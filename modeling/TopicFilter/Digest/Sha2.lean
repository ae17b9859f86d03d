import TopicFilter.Digest.Word

/-!
# Digest/Sha2 — the SHA-2 family

The 32-bit and the 64-bit functions differ in word, constants, rotation distances and number of rounds. A
`Family` holds these; the round and the message schedule are written once. The schedule is a window of sixteen
words that moves by one word a round.
-/

namespace TopicFilter.Digest.Sha2

open scoped Word

/-- Eight words of state. -/
structure State (ω : Type) where
  /-- First word. -/
  a : ω
  /-- Second word. -/
  b : ω
  /-- Third word. -/
  c : ω
  /-- Fourth word. -/
  d : ω
  /-- Fifth word. -/
  e : ω
  /-- Sixth word. -/
  f : ω
  /-- Seventh word. -/
  g : ω
  /-- Eighth word. -/
  h : ω

/-- Three distances of rotation; in the schedule the last one is a shift. -/
structure Distances where
  /-- First distance. -/
  r1 : Nat
  /-- Second distance. -/
  r2 : Nat
  /-- Third distance. -/
  r3 : Nat

/-- What the functions on one word size have in common. -/
structure Family (ω : Type) where
  /-- The round constants, one a round. -/
  constants : List ω
  /-- Mixing of the first word. -/
  upperA : Distances
  /-- Mixing of the fifth word. -/
  upperE : Distances
  /-- Mixing of the word fifteen back in the schedule. -/
  lower0 : Distances
  /-- Mixing of the word two back in the schedule. -/
  lower1 : Distances

section

variable {ω : Type} [Word ω]

/-- The eight words in order. -/
def State.toList (s : State ω) : List ω := [s.a, s.b, s.c, s.d, s.e, s.f, s.g, s.h]

/-- The sum of two states, word by word. -/
def State.add (s t : State ω) : State ω :=
  ⟨s.a + t.a, s.b + t.b, s.c + t.c, s.d + t.d, s.e + t.e, s.f + t.f, s.g + t.g, s.h + t.h⟩

/-- Three rotations mixed. -/
@[specialize] def Distances.upper (d : Distances) (w : ω) : ω :=
  Word.rotateRight w d.r1 ^^^ Word.rotateRight w d.r2 ^^^ Word.rotateRight w d.r3

/-- Two rotations and a shift mixed. -/
@[specialize] def Distances.lower (d : Distances) (w : ω) : ω :=
  Word.rotateRight w d.r1 ^^^ Word.rotateRight w d.r2 ^^^ Word.shiftRight w d.r3

/-- The window of the schedule, moved by one word. -/
@[specialize] def Family.advance (fam : Family ω) (window : List ω) : List ω :=
  let zero := Word.ofNat 0
  let w0 := window.headD zero
  let w1 := window.getD 1 zero
  let w9 := window.getD 9 zero
  let w14 := window.getD 14 zero
  window.tail ++ [fam.lower1.lower w14 + w9 + fam.lower0.lower w1 + w0]

/-- One round with the constant and the word of the round. -/
@[specialize] def Family.round (fam : Family ω) (s : State ω) (k w : ω) : State ω :=
  let choice := (s.e &&& s.f) ^^^ (~~~s.e &&& s.g)
  let majority := (s.a &&& s.b) ^^^ (s.a &&& s.c) ^^^ (s.b &&& s.c)
  let t1 := s.h + fam.upperE.upper s.e + choice + k + w
  let t2 := fam.upperA.upper s.a + majority
  ⟨t1 + t2, s.a, s.b, s.c, s.d + t1, s.e, s.f, s.g⟩

/-- The rounds of one block. -/
@[specialize] def Family.rounds (fam : Family ω) : List ω → State ω → List ω → State ω
  | [], s, _ => s
  | k :: ks, s, window =>
    fam.rounds ks (fam.round s k (window.headD (Word.ofNat 0))) (fam.advance window)

/-- The state after a block of bytes. -/
@[specialize] def Family.absorb (fam : Family ω) (s : State ω) (block : Bytes) : State ω :=
  s.add (fam.rounds fam.constants s ((blocks (Word.size ω - 1) block).map Word.ofBytesBE))

/-- The state after the whole message, from the initial state. -/
@[specialize] def Family.run (fam : Family ω) (start : State ω) (b : Bytes) : State ω :=
  let block := 16 * Word.size ω
  let lengthBytes := 2 * Word.size ω
  (blocks (block - 1) (padded block lengthBytes (numberBE lengthBytes) b)).foldl fam.absorb start

/-- The first `words` words of the state as bytes. -/
def State.output (words : Nat) (s : State ω) : Bytes := (s.toList.take words).flatMap Word.bytesBE

theorem State.length_output {words : Nat} (h : words ≤ 8) (s : State ω) :
    (s.output words).length = Word.size ω * words := by
  have : s.toList.length = 8 := rfl
  rw [output, Word.length_flatMap_bytesBE, List.length_take, this, Nat.min_eq_left h]

end

/-- The functions on 32-bit words. -/
def family32 : Family UInt32 where
  constants :=
    [0x428a2f98, 0x71374491, 0xb5c0fbcf, 0xe9b5dba5, 0x3956c25b, 0x59f111f1, 0x923f82a4, 0xab1c5ed5,
     0xd807aa98, 0x12835b01, 0x243185be, 0x550c7dc3, 0x72be5d74, 0x80deb1fe, 0x9bdc06a7, 0xc19bf174,
     0xe49b69c1, 0xefbe4786, 0x0fc19dc6, 0x240ca1cc, 0x2de92c6f, 0x4a7484aa, 0x5cb0a9dc, 0x76f988da,
     0x983e5152, 0xa831c66d, 0xb00327c8, 0xbf597fc7, 0xc6e00bf3, 0xd5a79147, 0x06ca6351, 0x14292967,
     0x27b70a85, 0x2e1b2138, 0x4d2c6dfc, 0x53380d13, 0x650a7354, 0x766a0abb, 0x81c2c92e, 0x92722c85,
     0xa2bfe8a1, 0xa81a664b, 0xc24b8b70, 0xc76c51a3, 0xd192e819, 0xd6990624, 0xf40e3585, 0x106aa070,
     0x19a4c116, 0x1e376c08, 0x2748774c, 0x34b0bcb5, 0x391c0cb3, 0x4ed8aa4a, 0x5b9cca4f, 0x682e6ff3,
     0x748f82ee, 0x78a5636f, 0x84c87814, 0x8cc70208, 0x90befffa, 0xa4506ceb, 0xbef9a3f7, 0xc67178f2]
  upperA := ⟨2, 13, 22⟩
  upperE := ⟨6, 11, 25⟩
  lower0 := ⟨7, 18, 3⟩
  lower1 := ⟨17, 19, 10⟩

/-- The functions on 64-bit words. -/
def family64 : Family UInt64 where
  constants :=
    [0x428a2f98d728ae22, 0x7137449123ef65cd, 0xb5c0fbcfec4d3b2f, 0xe9b5dba58189dbbc,
     0x3956c25bf348b538, 0x59f111f1b605d019, 0x923f82a4af194f9b, 0xab1c5ed5da6d8118,
     0xd807aa98a3030242, 0x12835b0145706fbe, 0x243185be4ee4b28c, 0x550c7dc3d5ffb4e2,
     0x72be5d74f27b896f, 0x80deb1fe3b1696b1, 0x9bdc06a725c71235, 0xc19bf174cf692694,
     0xe49b69c19ef14ad2, 0xefbe4786384f25e3, 0x0fc19dc68b8cd5b5, 0x240ca1cc77ac9c65,
     0x2de92c6f592b0275, 0x4a7484aa6ea6e483, 0x5cb0a9dcbd41fbd4, 0x76f988da831153b5,
     0x983e5152ee66dfab, 0xa831c66d2db43210, 0xb00327c898fb213f, 0xbf597fc7beef0ee4,
     0xc6e00bf33da88fc2, 0xd5a79147930aa725, 0x06ca6351e003826f, 0x142929670a0e6e70,
     0x27b70a8546d22ffc, 0x2e1b21385c26c926, 0x4d2c6dfc5ac42aed, 0x53380d139d95b3df,
     0x650a73548baf63de, 0x766a0abb3c77b2a8, 0x81c2c92e47edaee6, 0x92722c851482353b,
     0xa2bfe8a14cf10364, 0xa81a664bbc423001, 0xc24b8b70d0f89791, 0xc76c51a30654be30,
     0xd192e819d6ef5218, 0xd69906245565a910, 0xf40e35855771202a, 0x106aa07032bbd1b8,
     0x19a4c116b8d2d0c8, 0x1e376c085141ab53, 0x2748774cdf8eeb99, 0x34b0bcb5e19b48a8,
     0x391c0cb3c5c95a63, 0x4ed8aa4ae3418acb, 0x5b9cca4f7763e373, 0x682e6ff3d6b2b8a3,
     0x748f82ee5defb2fc, 0x78a5636f43172f60, 0x84c87814a1f0ab72, 0x8cc702081a6439ec,
     0x90befffa23631e28, 0xa4506cebde82bde9, 0xbef9a3f7b2c67915, 0xc67178f2e372532b,
     0xca273eceea26619c, 0xd186b8c721c0c207, 0xeada7dd6cde0eb1e, 0xf57d4f7fee6ed178,
     0x06f067aa72176fba, 0x0a637dc5a2c898a6, 0x113f9804bef90dae, 0x1b710b35131c471b,
     0x28db77f523047d84, 0x32caab7b40c72493, 0x3c9ebe0a15c9bebc, 0x431d67c49c100d4c,
     0x4cc5d4becb3e42b6, 0x597f299cfc657e2a, 0x5fcb6fab3ad6faec, 0x6c44198c4a475817]
  upperA := ⟨28, 34, 39⟩
  upperE := ⟨14, 18, 41⟩
  lower0 := ⟨1, 8, 7⟩
  lower1 := ⟨19, 61, 6⟩

/-- The initial state of the 224-bit function. -/
def start224 : State UInt32 :=
  ⟨0xc1059ed8, 0x367cd507, 0x3070dd17, 0xf70e5939, 0xffc00b31, 0x68581511, 0x64f98fa7, 0xbefa4fa4⟩

/-- The initial state of the 256-bit function. -/
def start256 : State UInt32 :=
  ⟨0x6a09e667, 0xbb67ae85, 0x3c6ef372, 0xa54ff53a, 0x510e527f, 0x9b05688c, 0x1f83d9ab, 0x5be0cd19⟩

/-- The initial state of the 384-bit function. -/
def start384 : State UInt64 :=
  ⟨0xcbbb9d5dc1059ed8, 0x629a292a367cd507, 0x9159015a3070dd17, 0x152fecd8f70e5939,
    0x67332667ffc00b31, 0x8eb44a8768581511, 0xdb0c2e0d64f98fa7, 0x47b5481dbefa4fa4⟩

/-- The initial state of the 512-bit function. -/
def start512 : State UInt64 :=
  ⟨0x6a09e667f3bcc908, 0xbb67ae8584caa73b, 0x3c6ef372fe94f82b, 0xa54ff53a5f1d36f1,
    0x510e527fade682d1, 0x9b05688c2b3e6c1f, 0x1f83d9abfb41bd6b, 0x5be0cd19137e2179⟩

/-- The 28 bytes of the 224-bit function. -/
def sha224 (b : Bytes) : Bytes := (family32.run start224 b).output 7

/-- The 32 bytes of the 256-bit function. -/
def sha256 (b : Bytes) : Bytes := (family32.run start256 b).output 8

/-- The 48 bytes of the 384-bit function. -/
def sha384 (b : Bytes) : Bytes := (family64.run start384 b).output 6

/-- The 64 bytes of the 512-bit function. -/
def sha512 (b : Bytes) : Bytes := (family64.run start512 b).output 8

end TopicFilter.Digest.Sha2
