import TopicFilter.Proofs.Topic.Spelling

/-!
# Proofs/Topic/Order — topics in the order of their names

Texts come in the order of a dictionary, by the numbers of their code points, and byte strings in that of their bytes.
The digits of a byte string come before those of another one just when the byte string does (`bytes_lt_bytes_iff`),
and as the bytes of a topic are its number to base 256, the order of names is that of topics: `Topic.hex_lt_hex_iff`.
-/

namespace TopicFilter

instance : LT CodePoint := ⟨fun c d => c.toNat < d.toNat⟩

theorem CodePoint.lt_def {c d : CodePoint} : c < d ↔ c.toNat < d.toNat := Iff.rfl

instance (c d : CodePoint) : Decidable (c < d) := inferInstanceAs (Decidable (c.toNat < d.toNat))

namespace Hexadecimal

/-- Digits come in the order of their numbers. -/
theorem digit_lt_digit_iff : ∀ m < 16, ∀ n < 16,
    CodePoint.ofChar (digit m) < CodePoint.ofChar (digit n) ↔ m < n := by decide

theorem digit_eq_digit_iff : ∀ m < 16, ∀ n < 16,
    CodePoint.ofChar (digit m) = CodePoint.ofChar (digit n) ↔ m = n := by decide

/-- **Byte strings and their digits come in one order.** -/
theorem bytes_lt_bytes_iff {b c : Bytes} : bytes b < bytes c ↔ b < c := by
  induction b generalizing c with
  | nil =>
    cases c with
    | nil => exact iff_of_false (List.not_lt_nil _) (List.not_lt_nil _)
    | cons y c => exact iff_of_true (List.nil_lt_cons _ _) (List.nil_lt_cons _ _)
  | cons x b ih =>
    cases c with
    | nil => exact iff_of_false (List.not_lt_nil _) (List.not_lt_nil _)
    | cons y c =>
      have hx := x.toNat_lt
      have hy := y.toNat_lt
      rw [bytes_cons, bytes_cons]
      simp only [List.cons_lt_cons_iff, ih]
      rw [digit_lt_digit_iff _ (by omega) _ (by omega), digit_lt_digit_iff _ (by omega) _ (by omega),
        digit_eq_digit_iff _ (by omega) _ (by omega), digit_eq_digit_iff _ (by omega) _ (by omega),
        UInt8.lt_iff_toNat_lt, ← UInt8.toNat_inj]
      by_cases hbc : b < c <;> simp only [hbc, and_true, and_false, or_false] <;> omega

end Hexadecimal

namespace Topic

variable {a b : Topic}

/-- **Topics come in the order of their bytes.** -/
theorem bytes_lt_bytes_iff : a.bytes < b.bytes ↔ a < b := by
  simp only [bytes, List.cons_lt_cons_iff, List.not_lt_nil, and_false, or_false, UInt8.lt_iff_toNat_lt,
    ← UInt8.toNat_inj, lt_def, toNat]
  have := a.b0.toNat_lt
  have := a.b1.toNat_lt
  have := a.b2.toNat_lt
  have := a.b3.toNat_lt
  have := b.b0.toNat_lt
  have := b.b1.toNat_lt
  have := b.b2.toNat_lt
  have := b.b3.toNat_lt
  omega

/-- **Topics come in the order of their names.** -/
theorem hex_lt_hex_iff : a.hex < b.hex ↔ a < b := Hexadecimal.bytes_lt_bytes_iff.trans bytes_lt_bytes_iff

end Topic

end TopicFilter
