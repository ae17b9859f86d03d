import TopicFilter.Digest.Word

/-!
# Digest/Blake2 — the BLAKE2 functions without a key

The functions on 64-bit and on 32-bit words differ in word, initial words, rotation distances and number of
rounds, which a `Family` holds. The digest is the whole state, eight words (`Family.length_digest`).
-/

namespace TopicFilter.Digest.Blake2

open scoped Word

/-- The order of the message words in each of ten rounds; later rounds start over. -/
def schedule : List (List Nat) :=
  [[0, 1, 2, 3, 4, 5, 6, 7, 8, 9, 10, 11, 12, 13, 14, 15],
   [14, 10, 4, 8, 9, 15, 13, 6, 1, 12, 0, 2, 11, 7, 5, 3],
   [11, 8, 12, 0, 5, 2, 15, 13, 10, 14, 3, 6, 7, 1, 9, 4],
   [7, 9, 3, 1, 13, 12, 11, 14, 2, 6, 5, 10, 4, 0, 15, 8],
   [9, 0, 5, 7, 2, 4, 10, 15, 14, 1, 11, 12, 6, 8, 3, 13],
   [2, 12, 6, 10, 0, 11, 8, 3, 4, 13, 7, 5, 15, 14, 1, 9],
   [12, 5, 1, 15, 14, 13, 4, 10, 0, 7, 6, 3, 9, 2, 8, 11],
   [13, 11, 7, 14, 12, 1, 3, 9, 5, 0, 15, 4, 8, 6, 2, 10],
   [6, 15, 14, 9, 11, 3, 0, 8, 12, 2, 13, 7, 1, 4, 10, 5],
   [10, 2, 8, 4, 7, 6, 1, 5, 15, 11, 9, 14, 3, 12, 13, 0]]

/-- What distinguishes the functions on the two word sizes. -/
structure Family (ω : Type) where
  /-- The initial words. -/
  start : Vector ω 8
  /-- The four distances of rotation. -/
  distances : Nat × Nat × Nat × Nat
  /-- The number of rounds. -/
  rounds : Nat

section

variable {ω : Type} [Word ω]

/-- Two message words mixed into four words of the working state. -/
@[specialize] def Family.mix (fam : Family ω) (v : Vector ω 16) (a b c d : Fin 16) (x y : ω) :
    Vector ω 16 :=
  let (r1, r2, r3, r4) := fam.distances
  let va := v[a] + v[b] + x
  let vd := Word.rotateRight (v[d] ^^^ va) r1
  let vc := v[c] + vd
  let vb := Word.rotateRight (v[b] ^^^ vc) r2
  let va := va + vb + y
  let vd := Word.rotateRight (vd ^^^ va) r3
  let vc := vc + vd
  let vb := Word.rotateRight (vb ^^^ vc) r4
  (((v.set a va).set b vb).set c vc).set d vd

/-- One round, first down the columns and then along the diagonals. -/
@[specialize] def Family.round (fam : Family ω) (words : Array ω) (v : Vector ω 16) (order : List Nat) :
    Vector ω 16 :=
  let word (i : Nat) : ω := words.getD (order.getD i 0) (Word.ofNat 0)
  let v := fam.mix v 0 4 8 12 (word 0) (word 1)
  let v := fam.mix v 1 5 9 13 (word 2) (word 3)
  let v := fam.mix v 2 6 10 14 (word 4) (word 5)
  let v := fam.mix v 3 7 11 15 (word 6) (word 7)
  let v := fam.mix v 0 5 10 15 (word 8) (word 9)
  let v := fam.mix v 1 6 11 12 (word 10) (word 11)
  let v := fam.mix v 2 7 8 13 (word 12) (word 13)
  fam.mix v 3 4 9 14 (word 14) (word 15)

/-- The state after a block, given how many bytes the message has up to its end. -/
@[specialize] def Family.absorb (fam : Family ω) (h : Vector ω 8) (block : Bytes) (count : Nat)
    (last : Bool) : Vector ω 8 :=
  let words := ((blocks (Word.size ω - 1) block).map Word.ofBytesLE).toArray
  let v : Vector ω 16 := h ++ fam.start
  let v := v.set 12 (v[12] ^^^ Word.ofNat count)
  let v := v.set 13 (v[13] ^^^ Word.ofNat (count / Nat.pow 256 (Word.size ω)))
  let v := if last then v.set 14 (~~~v[14]) else v
  let v := (List.range fam.rounds).foldl (fun v i => fam.round words v (schedule.getD (i % 10) [])) v
  Vector.ofFn fun i : Fin 8 => h[i] ^^^ v[i.val] ^^^ v[i.val + 8]

/-- The state after all blocks; the last one is filled up with zeros. -/
@[specialize] def Family.absorbAll (fam : Family ω) (h : Vector ω 8) (count : Nat) :
    List Bytes → Vector ω 8
  | [] => fam.absorb h (List.replicate (16 * Word.size ω) 0) count true
  | [last] =>
    let count := count + last.length
    fam.absorb h (last ++ List.replicate (16 * Word.size ω - last.length) 0) count true
  | block :: more =>
    let count := count + block.length
    fam.absorbAll (fam.absorb h block count false) count more

/-- The digest: the state after the message, from the initial words marked with the digest size. -/
@[specialize] def Family.digest (fam : Family ω) (b : Bytes) : Bytes :=
  let marked := fam.start.set 0 (fam.start[0] ^^^ Word.ofNat (0x01010000 + 8 * Word.size ω))
  (fam.absorbAll marked 0 (blocks (16 * Word.size ω - 1) b)).toList.flatMap Word.bytesLE

theorem Family.length_digest (fam : Family ω) (b : Bytes) :
    (fam.digest b).length = Word.size ω * 8 := by
  rw [digest, Word.length_flatMap_bytesLE, Vector.length_toList]

end

/-- The function on 64-bit words. -/
def family64 : Family UInt64 where
  start := #v[0x6a09e667f3bcc908, 0xbb67ae8584caa73b, 0x3c6ef372fe94f82b, 0xa54ff53a5f1d36f1,
    0x510e527fade682d1, 0x9b05688c2b3e6c1f, 0x1f83d9abfb41bd6b, 0x5be0cd19137e2179]
  distances := (32, 24, 16, 63)
  rounds := 12

/-- The function on 32-bit words. -/
def family32 : Family UInt32 where
  start := #v[0x6a09e667, 0xbb67ae85, 0x3c6ef372, 0xa54ff53a, 0x510e527f, 0x9b05688c, 0x1f83d9ab, 0x5be0cd19]
  distances := (16, 12, 8, 7)
  rounds := 10

/-- The 64 bytes of the function on 64-bit words. -/
def blake2b (b : Bytes) : Bytes := family64.digest b

/-- The 32 bytes of the function on 32-bit words. -/
def blake2s (b : Bytes) : Bytes := family32.digest b

end TopicFilter.Digest.Blake2
