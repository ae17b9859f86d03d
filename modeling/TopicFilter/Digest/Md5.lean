import TopicFilter.Digest.Word

/-!
# Digest/Md5 — the MD5 function

Four words of state and 64 steps a block. A step takes its constant, its rotation and the number of its message
word from tables, and its mixing function from the quarter it is in.
-/

namespace TopicFilter.Digest.Md5

/-- Four words of state. -/
structure State where
  /-- First word. -/
  a : UInt32
  /-- Second word. -/
  b : UInt32
  /-- Third word. -/
  c : UInt32
  /-- Fourth word. -/
  d : UInt32

/-- The words in order. -/
def State.toList (s : State) : List UInt32 := [s.a, s.b, s.c, s.d]

/-- The sum of two states, word by word. -/
def State.add (s t : State) : State := ⟨s.a + t.a, s.b + t.b, s.c + t.c, s.d + t.d⟩

/-- The constants, one a step: the fractions of the sines of 1 to 64. -/
def constants : List UInt32 :=
  [0xd76aa478, 0xe8c7b756, 0x242070db, 0xc1bdceee,
   0xf57c0faf, 0x4787c62a, 0xa8304613, 0xfd469501,
   0x698098d8, 0x8b44f7af, 0xffff5bb1, 0x895cd7be,
   0x6b901122, 0xfd987193, 0xa679438e, 0x49b40821,
   0xf61e2562, 0xc040b340, 0x265e5a51, 0xe9b6c7aa,
   0xd62f105d, 0x02441453, 0xd8a1e681, 0xe7d3fbc8,
   0x21e1cde6, 0xc33707d6, 0xf4d50d87, 0x455a14ed,
   0xa9e3e905, 0xfcefa3f8, 0x676f02d9, 0x8d2a4c8a,
   0xfffa3942, 0x8771f681, 0x6d9d6122, 0xfde5380c,
   0xa4beea44, 0x4bdecfa9, 0xf6bb4b60, 0xbebfbc70,
   0x289b7ec6, 0xeaa127fa, 0xd4ef3085, 0x04881d05,
   0xd9d4d039, 0xe6db99e5, 0x1fa27cf8, 0xc4ac5665,
   0xf4292244, 0x432aff97, 0xab9423a7, 0xfc93a039,
   0x655b59c3, 0x8f0ccc92, 0xffeff47d, 0x85845dd1,
   0x6fa87e4f, 0xfe2ce6e0, 0xa3014314, 0x4e0811a1,
   0xf7537e82, 0xbd3af235, 0x2ad7d2bb, 0xeb86d391]

/-- The rotations of the four steps that alternate in each quarter. -/
def rotations : List (List Nat) := [[7, 12, 17, 22], [5, 9, 14, 20], [4, 11, 16, 23], [6, 10, 15, 21]]

/-- One step: number, constant and message words. -/
def step (words : Array UInt32) (s : State) (i : Nat) (k : UInt32) : State :=
  let (mixed, number) :=
    if i < 16 then ((s.b &&& s.c) ||| (~~~s.b &&& s.d), i)
    else if i < 32 then ((s.d &&& s.b) ||| (~~~s.d &&& s.c), (5 * i + 1) % 16)
    else if i < 48 then (s.b ^^^ s.c ^^^ s.d, (3 * i + 5) % 16)
    else (s.c ^^^ (s.b ||| ~~~s.d), 7 * i % 16)
  let distance := (rotations.getD (i / 16) []).getD (i % 4) 0
  let sum := mixed + s.a + k + words.getD number 0
  ⟨s.d, s.b + Word.rotateLeft sum distance, s.b, s.c⟩

/-- The steps from a number on. -/
def steps (words : Array UInt32) : Nat → List UInt32 → State → State
  | _, [], s => s
  | i, k :: ks, s => steps words (i + 1) ks (step words s i k)

/-- The state after a block of bytes. -/
def absorb (s : State) (block : Bytes) : State :=
  s.add (steps ((blocks 3 block).map Word.ofBytesLE).toArray 0 constants s)

/-- The initial state. -/
def start : State := ⟨0x67452301, 0xefcdab89, 0x98badcfe, 0x10325476⟩

/-- The 16 bytes of the digest. -/
def digest (b : Bytes) : Bytes :=
  ((blocks 63 (padded 64 8 (numberLE 8) b)).foldl absorb start).toList.flatMap Word.bytesLE

@[simp] theorem length_digest (b : Bytes) : (digest b).length = 16 := by
  rw [digest, Word.length_flatMap_bytesLE]
  rfl

end TopicFilter.Digest.Md5
