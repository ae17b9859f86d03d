import TopicFilter.Digest.Word

/-!
# Digest/Sha1 — the SHA-1 function

Five words of state and 80 steps a block; the schedule is a window of sixteen words that moves by one word a
step.
-/

namespace TopicFilter.Digest.Sha1

/-- Five words of state. -/
structure State where
  /-- First word. -/
  a : UInt32
  /-- Second word. -/
  b : UInt32
  /-- Third word. -/
  c : UInt32
  /-- Fourth word. -/
  d : UInt32
  /-- Fifth word. -/
  e : UInt32

/-- The words in order. -/
def State.toList (s : State) : List UInt32 := [s.a, s.b, s.c, s.d, s.e]

/-- The sum of two states, word by word. -/
def State.add (s t : State) : State := ⟨s.a + t.a, s.b + t.b, s.c + t.c, s.d + t.d, s.e + t.e⟩

/-- One step: number and message word. -/
def step (s : State) (i : Nat) (w : UInt32) : State :=
  let (mixed, k) :=
    if i < 20 then ((s.b &&& s.c) ||| (~~~s.b &&& s.d), 0x5a827999)
    else if i < 40 then (s.b ^^^ s.c ^^^ s.d, 0x6ed9eba1)
    else if i < 60 then ((s.b &&& s.c) ||| (s.b &&& s.d) ||| (s.c &&& s.d), 0x8f1bbcdc)
    else (s.b ^^^ s.c ^^^ s.d, 0xca62c1d6)
  ⟨Word.rotateLeft s.a 5 + mixed + s.e + k + w, s.a, Word.rotateLeft s.b 30, s.c, s.d⟩

/-- The window of the schedule, moved by one word. -/
def advance (window : List UInt32) : List UInt32 :=
  let next := window.getD 13 0 ^^^ window.getD 8 0 ^^^ window.getD 2 0 ^^^ window.headD 0
  window.tail ++ [Word.rotateLeft next 1]

/-- The last `n` steps of a block, up to number 79. -/
def steps : (n : Nat) → State → List UInt32 → State
  | 0, s, _ => s
  | n + 1, s, window => steps n (step s (79 - n) (window.headD 0)) (advance window)

/-- The state after a block of bytes. -/
def absorb (s : State) (block : Bytes) : State :=
  s.add (steps 80 s ((blocks 3 block).map Word.ofBytesBE))

/-- The initial state. -/
def start : State := ⟨0x67452301, 0xefcdab89, 0x98badcfe, 0x10325476, 0xc3d2e1f0⟩

/-- The 20 bytes of the digest. -/
def digest (b : Bytes) : Bytes :=
  ((blocks 63 (padded 64 8 (numberBE 8) b)).foldl absorb start).toList.flatMap Word.bytesBE

@[simp] theorem length_digest (b : Bytes) : (digest b).length = 20 := by
  rw [digest, Word.length_flatMap_bytesBE]
  rfl

end TopicFilter.Digest.Sha1
