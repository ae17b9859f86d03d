import TopicFilter.Text

/-!
# Text/Hexadecimal — hexadecimal digits

`digit` writes a number below sixteen in lower case, `value?` reads either case, and
`value?_digit` says that reading undoes writing.
-/

namespace TopicFilter.Hexadecimal

/-- The lower-case digit of a number below sixteen. -/
def digit (n : Nat) : Char :=
  if n < 10 then Char.ofNat (0x30 + n) else Char.ofNat (0x61 + (n - 10))

/-- The number that a digit of either case stands for. -/
def value? (c : CodePoint) : Option Nat :=
  let n := c.toNat
  if 0x30 ≤ n ∧ n ≤ 0x39 then some (n - 0x30)
  else if 0x41 ≤ n ∧ n ≤ 0x46 then some (n - 0x37)
  else if 0x61 ≤ n ∧ n ≤ 0x66 then some (n - 0x57)
  else none

/-- The last `width` digits of a number. -/
def digits : (width : Nat) → Nat → List Char
  | 0, _ => []
  | width + 1, n => digits width (n / 16) ++ [digit (n % 16)]

/-- The two digits of a byte. -/
def byte (b : UInt8) : List Char := [digit (b.toNat / 16), digit (b.toNat % 16)]

/-- Two digits a byte, in order. -/
def bytes (b : Bytes) : Text := Text.ofChars (b.flatMap byte)

theorem value?_lt {c : CodePoint} {n : Nat} (h : value? c = some n) : n < 16 := by
  simp only [value?] at h
  split at h
  · cases h; omega
  · split at h
    · cases h; omega
    · split at h
      · cases h; omega
      · cases h

theorem value?_digit : ∀ n, n < 16 → value? (CodePoint.ofChar (digit n)) = some n := by decide

@[simp] theorem length_digits (width n : Nat) : (digits width n).length = width := by
  induction width generalizing n with
  | zero => rfl
  | succ width ih => simp [digits, ih]

@[simp] theorem length_bytes (b : Bytes) : (bytes b).length = 2 * b.length := by
  induction b with
  | nil => rfl
  | cons x rest ih =>
    simp only [bytes, Text.ofChars, byte, List.length_map, List.flatMap_cons, List.length_append,
      List.length_cons] at ih ⊢
    simp only [List.length_nil]
    omega

end TopicFilter.Hexadecimal
