import TopicFilter.Fault

/-!
# Topic — four bytes that classify content

A topic is the first four bytes of a digest. Its number reads the bytes with the first one in front; the
order of topics is the order of their numbers. `ofInt_toNat` and `toNat_ofInt` make numbers below `2 ^ 32` and
topics the same thing.
-/

namespace TopicFilter

/-- Four bytes. -/
structure Topic where
  /-- The first byte. -/
  b0 : UInt8
  /-- The second byte. -/
  b1 : UInt8
  /-- The third byte. -/
  b2 : UInt8
  /-- The last byte. -/
  b3 : UInt8
deriving DecidableEq

namespace Topic

/-- How many bytes a topic has. -/
def length : Nat := 4

/-- The all-zero topic, kept for wildcards by convention only. -/
def sentinel : Topic := ⟨0, 0, 0, 0⟩

/-- The bytes in order. -/
def bytes (t : Topic) : Bytes := [t.b0, t.b1, t.b2, t.b3]

/-- The topic with exactly these bytes. -/
def ofBytes : Bytes → Except Fault Topic
  | [b0, b1, b2, b3] => .ok ⟨b0, b1, b2, b3⟩
  | b => .error (.topicLength b.length)

/-- The topic at the front of a digest. -/
def ofDigest : Bytes → Except Fault Topic
  | b0 :: b1 :: b2 :: b3 :: _ => .ok ⟨b0, b1, b2, b3⟩
  | b => .error (.digestLength b.length)

/-- The bytes read as one number, the first byte in front. -/
def toNat (t : Topic) : Nat :=
  ((t.b0.toNat * 256 + t.b1.toNat) * 256 + t.b2.toNat) * 256 + t.b3.toNat

/-- The topic of a number below `2 ^ 32`, by its digits to base 256. -/
def ofNat (n : Nat) : Topic :=
  ⟨(n / 16777216).toUInt8, (n / 65536).toUInt8, (n / 256).toUInt8, n.toUInt8⟩

/-- The topic of an integer, if it is in range. An integer too long to be written out cannot be named in the
failure either. -/
def ofInt (n : Int) : Except Fault Topic :=
  if 0 ≤ n ∧ n < 4294967296 then .ok (ofNat n.toNat)
  else if (Nat.toDigits 10 n.natAbs).length > Text.digitLimit then .error .tooManyDigits
  else .error (.topicRange n)

/-- The topic is the sentinel. -/
def isSentinel (t : Topic) : Bool := t = sentinel

/-- The bytes as code points of the same number, for a reader's eye only. -/
def display (t : Topic) : Text := Text.ofBytes t.bytes

instance : LT Topic := ⟨fun a b => a.toNat < b.toNat⟩

instance : LE Topic := ⟨fun a b => a.toNat ≤ b.toNat⟩

theorem lt_def {a b : Topic} : a < b ↔ a.toNat < b.toNat := Iff.rfl

instance (a b : Topic) : Decidable (a < b) := inferInstanceAs (Decidable (a.toNat < b.toNat))

instance (a b : Topic) : Decidable (a ≤ b) := inferInstanceAs (Decidable (a.toNat ≤ b.toNat))

@[simp] theorem length_bytes (t : Topic) : t.bytes.length = 4 := rfl

@[simp] theorem ofBytes_bytes (t : Topic) : ofBytes t.bytes = .ok t := rfl

theorem ofBytes_eq_ok_iff {b : Bytes} {t : Topic} : ofBytes b = .ok t ↔ b = t.bytes := by
  constructor
  · intro h
    unfold ofBytes at h
    split at h
    · cases h; rfl
    · cases h
  · rintro rfl
    rfl

theorem ofDigest_eq_ok_iff {b : Bytes} {t : Topic} : ofDigest b = .ok t ↔ t.bytes <+: b := by
  constructor
  · intro h
    unfold ofDigest at h
    split at h
    · cases h; exact ⟨_, rfl⟩
    · cases h
  · rintro ⟨rest, rfl⟩
    rfl

/-- A digest fails for its length alone. -/
theorem ofDigest_eq_error_iff {b : Bytes} {f : Fault} :
    ofDigest b = .error f ↔ b.length < 4 ∧ f = .digestLength b.length := by
  unfold ofDigest
  split
  · simp only [reduceCtorEq, List.length_cons, false_iff]
    omega
  · next h =>
    rcases b with _ | ⟨x0, _ | ⟨x1, _ | ⟨x2, _ | ⟨x3, rest⟩⟩⟩⟩
    · simp [eq_comm]
    · simp [eq_comm]
    · simp [eq_comm]
    · simp [eq_comm]
    · exact absurd rfl (h x0 x1 x2 x3 rest)

theorem toNat_lt (t : Topic) : t.toNat < 4294967296 := by
  have h0 := t.b0.toNat_lt
  have h1 := t.b1.toNat_lt
  have h2 := t.b2.toNat_lt
  have h3 := t.b3.toNat_lt
  simp only [toNat]
  omega

theorem ofNat_toNat (t : Topic) : ofNat t.toNat = t := by
  obtain ⟨b0, b1, b2, b3⟩ := t
  have h0 := b0.toNat_lt
  have h1 := b1.toNat_lt
  have h2 := b2.toNat_lt
  have h3 := b3.toNat_lt
  simp only [ofNat, toNat, mk.injEq]
  refine ⟨?_, ?_, ?_, ?_⟩ <;> apply UInt8.toNat_inj.mp <;> simp <;> omega

theorem toNat_ofNat {n : Nat} (h : n < 4294967296) : (ofNat n).toNat = n := by
  simp only [ofNat, toNat]
  simp
  omega

theorem toNat_injective {a b : Topic} (h : a.toNat = b.toNat) : a = b := by
  rw [← ofNat_toNat a, h, ofNat_toNat]

theorem ofInt_toNat (t : Topic) : ofInt t.toNat = .ok t := by
  have h := t.toNat_lt
  rw [ofInt, if_pos (by omega), Int.toNat_natCast, ofNat_toNat]

theorem toNat_ofInt {n : Int} {t : Topic} (h : ofInt n = .ok t) : (t.toNat : Int) = n := by
  rw [ofInt] at h
  split at h
  · next hn =>
    cases h
    rw [toNat_ofNat (by omega)]
    omega
  · split at h <;> cases h

end Topic

end TopicFilter
