import TopicFilter.Digest.Word

/-!
# Digest/Keccak — the SHA-3 functions

A state of 25 words, lane `(x, y)` at number `x + 5 * y`, is permuted after each block. A message ends with the
bits `011`, zeros and one bit, to a whole number of blocks. The digest is the front of the last state
(`length_digest`).
-/

namespace TopicFilter.Digest.Keccak

/-- The lanes of the state. -/
abbrev State := Vector UInt64 25

/-- The round constants. -/
def roundConstants : List UInt64 :=
  [0x0000000000000001, 0x0000000000008082, 0x800000000000808a, 0x8000000080008000,
   0x000000000000808b, 0x0000000080000001, 0x8000000080008081, 0x8000000000008009,
   0x000000000000008a, 0x0000000000000088, 0x0000000080008009, 0x000000008000000a,
   0x000000008000808b, 0x800000000000008b, 0x8000000000008089, 0x8000000000008003,
   0x8000000000008002, 0x8000000000000080, 0x000000000000800a, 0x800000008000000a,
   0x8000000080008081, 0x8000000000008080, 0x0000000080000001, 0x8000000080008008]

/-- How far each lane is rotated. -/
def distances : Vector Nat 25 := #v[
   0, 1, 62, 28, 27,
   36, 44, 6, 55, 20,
   3, 10, 43, 25, 39,
   41, 45, 15, 21, 8,
   18, 2, 61, 56, 14]

/-- The lane in column `x` and row `y`, both taken modulo five. -/
@[inline] def lane (s : State) (x y : Nat) : UInt64 := s[x % 5 + 5 * (y % 5)]

/-- Rotation to the left by a distance below the width. -/
@[inline] def rotate (w : UInt64) (n : Nat) : UInt64 := if n = 0 then w else Word.rotateLeft w n

/-- The parity of each column. -/
def parities (s : State) : Vector UInt64 5 :=
  Vector.ofFn fun x => lane s x 0 ^^^ lane s x 1 ^^^ lane s x 2 ^^^ lane s x 3 ^^^ lane s x 4

/-- Each lane mixed with the parities of the neighbouring columns. -/
def theta (s : State) : State :=
  let parity := parities s
  let d : Vector UInt64 5 :=
    Vector.ofFn fun x => parity[(x.val + 4) % 5] ^^^ rotate parity[(x.val + 1) % 5] 1
  Vector.ofFn fun i => s[i] ^^^ d[i.val % 5]

/-- Each lane rotated and moved to the place that it takes. -/
def rhoPi (s : State) : State :=
  Vector.ofFn fun i =>
    let x := i.val % 5
    let y := i.val / 5
    let source := (x + 3 * y) % 5 + 5 * (x % 5)
    rotate s[source] distances[source]

/-- Each lane mixed with the next two of its row. -/
def chi (s : State) : State :=
  Vector.ofFn fun i =>
    let x := i.val % 5
    let y := i.val / 5
    s[i] ^^^ (~~~(lane s (x + 1) y) &&& lane s (x + 2) y)

/-- One round. -/
def round (s : State) (k : UInt64) : State :=
  let t := chi (rhoPi (theta s))
  t.set 0 (t[0] ^^^ k)

/-- All rounds. -/
def permute (s : State) : State := roundConstants.foldl round s

/-- The state after a block of bytes. -/
def absorb (s : State) (block : Bytes) : State :=
  let words : Array UInt64 := ((blocks 7 block).map Word.ofBytesLE).toArray
  permute (Vector.ofFn fun i => s[i] ^^^ words.getD i 0)

/-- A message with its end marked, to a whole number of blocks of `rate` bytes. -/
def finished (rate : Nat) (b : Bytes) : Bytes :=
  let free := rate - b.length % rate
  if free ≤ 1 then b ++ [0x86] else b ++ 0x06 :: List.replicate (free - 2) 0 ++ [0x80]

/-- The first `size` bytes of the state after the whole message; a block leaves room for twice as many. -/
def digest (size : Nat) (b : Bytes) : Bytes :=
  let rate := 200 - 2 * size
  let final := (blocks (rate - 1) (finished rate b)).foldl absorb (Vector.replicate 25 0)
  (final.toList.flatMap Word.bytesLE).take size

theorem length_digest {size : Nat} (h : size ≤ 200) (b : Bytes) : (digest size b).length = size := by
  simp only [digest, List.length_take, Word.length_flatMap_bytesLE, Vector.length_toList]
  exact Nat.min_eq_left h

end TopicFilter.Digest.Keccak
