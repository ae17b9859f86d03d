import Mathlib.Data.Nat.Digits.Defs
import TopicFilter.Proofs.Topic.Order

/-!
# Proofs/Topic/Number — topics as numbers

The digits of a byte string denote to base 16 the number that its bytes denote to base 256
(`Hexadecimal.number?_bytes`). For a topic this is `Topic.toNat`, so that its name, its bytes and its number say the
same. The topics are the integers from 0 up to `2 ^ 32`, no other integer has one, and all three forms come in one
order: `Store.on_topicOfInt`.
-/

namespace TopicFilter

/-! ## Names as numbers -/

namespace Hexadecimal

/-- The number that a text denotes to base 16, if it is made of digits. -/
def number? (t : Text) : Option Nat := (t.mapM value?).map fun ds => Nat.ofDigits 16 ds.reverse

/-- The halves of a byte, the high one first. -/
def halves (x : UInt8) : List Nat := [x.toNat / 16, x.toNat % 16]

theorem length_flatMap_halves (b : Bytes) : (b.flatMap halves).length = 2 * b.length := by
  induction b with
  | nil => rfl
  | cons x b ih =>
    rw [List.flatMap_cons, List.length_append, ih, List.length_cons]
    simp only [halves, List.length_cons, List.length_nil]
    omega

/-- The digits of bytes are read as their halves. -/
theorem mapM_value?_bytes (b : Bytes) : (bytes b).mapM value? = some (b.flatMap halves) := by
  induction b with
  | nil => rfl
  | cons x b ih =>
    have hx := x.toNat_lt
    rw [bytes_cons, List.mapM_cons, List.mapM_cons, value?_digit _ (by omega), value?_digit _ (by omega), ih]
    rfl

/-- Halves to base 16 make up what bytes make up to base 256. -/
theorem ofDigits_halves (b : Bytes) :
    Nat.ofDigits 16 (b.flatMap halves).reverse = Nat.ofDigits 256 (b.map UInt8.toNat).reverse := by
  induction b with
  | nil => rfl
  | cons x b ih =>
    have hbyte : Nat.ofDigits 16 (halves x).reverse = x.toNat := by
      simp only [halves, List.reverse_cons, List.reverse_nil, List.nil_append, List.singleton_append,
        Nat.ofDigits_cons, Nat.ofDigits_nil]
      omega
    have hpow : 16 ^ (b.flatMap halves).reverse.length = 256 ^ (b.map UInt8.toNat).reverse.length := by
      rw [List.length_reverse, length_flatMap_halves, List.length_reverse, List.length_map, Nat.pow_mul]
    rw [List.flatMap_cons, List.reverse_append, Nat.ofDigits_append, ih, hbyte, hpow, List.map_cons,
      List.reverse_cons, Nat.ofDigits_append, Nat.ofDigits_singleton]

/-- **The digits of bytes denote the number of the bytes.** -/
theorem number?_bytes (b : Bytes) : number? (bytes b) = some (Nat.ofDigits 256 (b.map UInt8.toNat).reverse) := by
  rw [number?, mapM_value?_bytes, Option.map_some, ofDigits_halves]

end Hexadecimal

namespace Topic

variable {τ : Topic} {n : Int}

/-- The number of a topic is that of its bytes, the first byte in front. -/
theorem ofDigits_bytes (τ : Topic) : Nat.ofDigits 256 (τ.bytes.map UInt8.toNat).reverse = τ.toNat := by
  simp only [bytes, List.map_cons, List.map_nil, List.reverse_cons, List.reverse_nil, List.nil_append,
    List.cons_append, Nat.ofDigits_cons, Nat.ofDigits_nil, toNat]
  omega

/-- …and that which its name denotes. -/
theorem number?_hex (τ : Topic) : Hexadecimal.number? τ.hex = some τ.toNat := by
  rw [hex, Hexadecimal.number?_bytes, ofDigits_bytes]

/-- A topic comes of its own number only. -/
theorem ofInt_eq_ok_iff : ofInt n = .ok τ ↔ (τ.toNat : Int) = n := by
  refine ⟨toNat_ofInt, ?_⟩
  rintro rfl
  exact ofInt_toNat τ

example : ofInt 0x01020304 = .ok ⟨1, 2, 3, 4⟩ := by decide

/-- **The integers that have a topic** are those that four bytes hold. -/
theorem exists_ofInt_eq_ok_iff : (∃ τ, ofInt n = .ok τ) ↔ 0 ≤ n ∧ n < 2 ^ 32 := by
  constructor
  · rintro ⟨τ, hτ⟩
    have hn := ofInt_eq_ok_iff.mp hτ
    have hlt := τ.toNat_lt
    omega
  · rintro ⟨hpos, hlt⟩
    exact ⟨_, by rw [ofInt, if_pos ⟨hpos, by omega⟩]⟩

/-- …and any other one is refused for its value, also if it is too long to be written out. -/
theorem exists_ofInt_eq_error (h : ¬ (0 ≤ n ∧ n < 2 ^ 32)) : ∃ fault, fault.sort = .value ∧ ofInt n = .error fault := by
  rw [ofInt, if_neg (by omega)]
  split
  · exact ⟨.tooManyDigits, rfl, rfl⟩
  · exact ⟨.topicRange n, rfl, rfl⟩

end Topic

namespace Store

variable {s : Store}

theorem on_topicOfInt_int (n : Int) : (Action.topicOfInt (.scalar (.int n))).on s = (Topic.ofInt n, s) :=
  Action.on_ofExcept _ s

/-- **Topics and the integers that four bytes hold are one and the same, in one order.** The truth values count as the
integers that they stand for. -/
theorem on_topicOfInt :
    (∀ n : Int,
      ((∃ τ s', (Action.topicOfInt (.scalar (.int n))).on s = (.ok τ, s')) ↔ 0 ≤ n ∧ n < 2 ^ 32) ∧
      (∀ τ s', (Action.topicOfInt (.scalar (.int n))).on s = (.ok τ, s') → (τ.toNat : Int) = n) ∧
      (¬ (0 ≤ n ∧ n < 2 ^ 32) →
        ∃ fault, fault.sort = .value ∧ (Action.topicOfInt (.scalar (.int n))).on s = (.error fault, s))) ∧
    (∀ b : Bool, (Action.topicOfInt (.scalar (.bool b))).on s = (Action.topicOfInt (.scalar (.int b.toInt))).on s) ∧
    (∀ τ : Topic, (Action.topicOfInt (.scalar (.int τ.toNat))).on s = (.ok τ, s) ∧
      Hexadecimal.number? τ.hex = some τ.toNat) ∧
    ∀ a b : Topic, (a.toNat < b.toNat ↔ a.hex < b.hex) ∧ (a.toNat < b.toNat ↔ a.bytes < b.bytes) := by
  refine ⟨fun n => ⟨?_, fun τ s' hτ => ?_, fun hn => ?_⟩, fun b => ?_, fun τ => ⟨?_, τ.number?_hex⟩, fun a b => ?_⟩
  · simp only [on_topicOfInt_int, Prod.mk.injEq, exists_and_left, exists_eq', and_true]
    exact Topic.exists_ofInt_eq_ok_iff
  · rw [on_topicOfInt_int] at hτ
    exact Topic.ofInt_eq_ok_iff.mp (Prod.mk.inj hτ).1
  · obtain ⟨fault, hsort, hfault⟩ := Topic.exists_ofInt_eq_error hn
    exact ⟨fault, hsort, by rw [on_topicOfInt_int, hfault]⟩
  · cases b <;> rfl
  · rw [on_topicOfInt_int, Topic.ofInt_toNat]
  · exact ⟨Topic.hex_lt_hex_iff.symm, Topic.bytes_lt_bytes_iff.symm⟩

end Store

end TopicFilter
