import TopicFilter.Text

/-!
# Digest/Word — machine words and their bytes

The hash functions compute with words of 32 or 64 bits. A word is written to bytes in either order and always
to `Word.size` of them (`length_bytesBE`, `length_bytesLE`); `blocks` cuts a message into pieces of one length.
-/

namespace TopicFilter.Digest

/-- Words with the operations that hash functions are made of. -/
class Word (ω : Type) where
  /-- The number of bytes in a word. -/
  size : Nat
  /-- The word of a number, modulo the number of words. -/
  ofNat : Nat → ω
  /-- The number of a word. -/
  toNat : ω → Nat
  /-- Addition that wraps. -/
  add : ω → ω → ω
  /-- Exclusive or, bit by bit. -/
  xor : ω → ω → ω
  /-- Conjunction, bit by bit. -/
  and : ω → ω → ω
  /-- Disjunction, bit by bit. -/
  or : ω → ω → ω
  /-- Negation, bit by bit. -/
  not : ω → ω
  /-- Shift to the left, zeros coming in. -/
  shiftLeft : ω → Nat → ω
  /-- Shift to the right, zeros coming in. -/
  shiftRight : ω → Nat → ω

namespace Word

variable {ω : Type} [Word ω]

scoped instance : Add ω := ⟨add⟩
scoped instance : XorOp ω := ⟨xor⟩
scoped instance : AndOp ω := ⟨and⟩
scoped instance : OrOp ω := ⟨or⟩
scoped instance : Complement ω := ⟨not⟩

/-- Rotation to the right by a distance between zero and the width. -/
@[inline] def rotateRight (w : ω) (n : Nat) : ω := or (shiftRight w n) (shiftLeft w (8 * size ω - n))

/-- Rotation to the left by a distance between zero and the width. -/
@[inline] def rotateLeft (w : ω) (n : Nat) : ω := or (shiftLeft w n) (shiftRight w (8 * size ω - n))

/-- The bytes, lowest first. -/
def bytesLE (w : ω) : Bytes := (List.range (size ω)).map fun i => (toNat w / Nat.pow 256 i).toUInt8

/-- The bytes, highest first. -/
def bytesBE (w : ω) : Bytes := (bytesLE w).reverse

/-- The word of some bytes, highest first. -/
def ofBytesBE (b : Bytes) : ω := ofNat (b.foldl (fun n x => n * 256 + x.toNat) 0)

/-- The word of some bytes, lowest first. -/
def ofBytesLE (b : Bytes) : ω := ofNat (b.foldr (fun x n => n * 256 + x.toNat) 0)

@[simp] theorem length_bytesLE (w : ω) : (bytesLE w).length = size ω := by simp [bytesLE]

@[simp] theorem length_bytesBE (w : ω) : (bytesBE w).length = size ω := by simp [bytesBE]

theorem length_flatMap_bytesBE (ws : List ω) :
    (ws.flatMap bytesBE).length = size ω * ws.length := by
  induction ws with
  | nil => rfl
  | cons w ws ih => simp [ih, Nat.mul_add, Nat.add_comm]

theorem length_flatMap_bytesLE (ws : List ω) :
    (ws.flatMap bytesLE).length = size ω * ws.length := by
  induction ws with
  | nil => rfl
  | cons w ws ih => simp [ih, Nat.mul_add, Nat.add_comm]

end Word

instance : Word UInt32 where
  size := 4
  ofNat := UInt32.ofNat
  toNat := UInt32.toNat
  add := UInt32.add
  xor := UInt32.xor
  and := UInt32.land
  or := UInt32.lor
  not := UInt32.complement
  shiftLeft w n := w <<< UInt32.ofNat n
  shiftRight w n := w >>> UInt32.ofNat n

instance : Word UInt64 where
  size := 8
  ofNat := UInt64.ofNat
  toNat := UInt64.toNat
  add := UInt64.add
  xor := UInt64.xor
  and := UInt64.land
  or := UInt64.lor
  not := UInt64.complement
  shiftLeft w n := w <<< UInt64.ofNat n
  shiftRight w n := w >>> UInt64.ofNat n

/-- Pieces of `n + 1` bytes, the last one perhaps shorter. -/
def blocks (n : Nat) (b : Bytes) : List Bytes :=
  match b with
  | [] => []
  | x :: rest => (x :: rest.take n) :: blocks n (rest.drop n)
termination_by b.length
decreasing_by simp only [List.length_drop, List.length_cons]; omega

/-- A message ended by one bit, zeros, and its length in bits, to a whole number of blocks. -/
def padded (block lengthBytes : Nat) (lengthOf : Nat → Bytes) (b : Bytes) : Bytes :=
  let used := (b.length + 1 + lengthBytes) % block
  b ++ 0x80 :: List.replicate (if used = 0 then 0 else block - used) 0 ++ lengthOf (8 * b.length)

/-- A number in `width` bytes, highest first. -/
def numberBE (width n : Nat) : Bytes :=
  ((List.range width).map fun i => (n / Nat.pow 256 i).toUInt8).reverse

/-- A number in `width` bytes, lowest first. -/
def numberLE (width n : Nat) : Bytes := (List.range width).map fun i => (n / Nat.pow 256 i).toUInt8

end TopicFilter.Digest
