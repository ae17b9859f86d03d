import TopicFilter.Proofs.Json.Encodable

/-!
# Proofs/Text/Utf8 — bytes of a text are read back

A sequence is as long as its code point needs, and the ranges behind the lead bytes leave out exactly the sequences that
are too long, the halves of pairs and what is beyond the code space. So the bytes of a code point are one sequence that
stands for it (`decodeFrom_encodePoint`), and a text that has bytes is read back from them (`decode_of_encode`). They are
the bytes that its characters have as a string (`encode_ofChars`), and each text with bytes is made of characters
(`exists_ofChars`).
-/

namespace TopicFilter.Utf8

variable {t : Text} {c : CodePoint} {owed pos n : Nat} {b low high : UInt8} {content rest : Bytes}

/-! ## Lead bytes -/

theorem lead_single (h : b.toNat < 0x80) : lead b = .single := if_pos (UInt8.lt_iff_toNat_lt.mpr h)

theorem lead_two (h : 0xC2 ≤ b.toNat) (h' : b.toNat < 0xE0) : lead b = .opens 1 0x80 0xBF := by
  simp only [lead, UInt8.lt_iff_toNat_lt, UInt8.reduceToNat]
  rw [if_neg (by omega), if_neg (by omega), if_pos h']

/-- A sequence of three bytes: after the first lead byte nothing shorter would do, and after one of them no half. -/
theorem exists_lead_three (first : Nat) (h : 0xE0 ≤ b.toNat) (h' : b.toNat < 0xF0) (hlow : 0x80 ≤ first)
    (hhigh : first ≤ 0xBF) (hshort : b.toNat = 0xE0 → 0xA0 ≤ first) (hhalf : b.toNat = 0xED → first ≤ 0x9F) :
    ∃ low high, lead b = .opens 2 low high ∧ low.toNat ≤ first ∧ first ≤ high.toNat := by
  simp only [lead, UInt8.lt_iff_toNat_lt, ← UInt8.toNat_inj, UInt8.reduceToNat]
  rw [if_neg (by omega), if_neg (by omega), if_neg (by omega)]
  split_ifs with hfirst hhalves
  · exact ⟨_, _, rfl, hshort hfirst, hhigh⟩
  · exact ⟨_, _, rfl, hlow, hhalf hhalves⟩
  · exact ⟨_, _, rfl, hlow, hhigh⟩

/-- A sequence of four bytes: after the first lead byte nothing shorter would do, and after the last the code space
ends. -/
theorem exists_lead_four (first : Nat) (h : 0xF0 ≤ b.toNat) (h' : b.toNat ≤ 0xF4) (hlow : 0x80 ≤ first)
    (hhigh : first ≤ 0xBF) (hshort : b.toNat = 0xF0 → 0x90 ≤ first) (hend : b.toNat = 0xF4 → first ≤ 0x8F) :
    ∃ low high, lead b = .opens 3 low high ∧ low.toNat ≤ first ∧ first ≤ high.toNat := by
  simp only [lead, UInt8.lt_iff_toNat_lt, ← UInt8.toNat_inj, UInt8.reduceToNat]
  rw [if_neg (by omega), if_neg (by omega), if_neg (by omega), if_neg (by omega), if_neg (by omega), if_neg (by omega)]
  split_ifs with hfirst hmiddle hlast
  · exact ⟨_, _, rfl, hshort hfirst, hhigh⟩
  · exact ⟨_, _, rfl, hlow, hhigh⟩
  · exact ⟨_, _, rfl, hlow, hend hlast⟩
  · exact absurd (show b.toNat = 0xF4 by omega) hlast

/-! ## Sequences -/

theorem toNat_toUInt8 (h : n < 0x100) : n.toUInt8.toNat = n := UInt8.toNat_ofNat_of_lt h

/-- A byte that goes on with a sequence, from the lowest six bits of a number. -/
def trail (n : Nat) : UInt8 := (0x80 + n % 64).toUInt8

theorem toNat_trail (n : Nat) : (trail n).toNat = 0x80 + n % 64 := toNat_toUInt8 (by omega)

theorem continuation_trail (hlow : low.toNat ≤ 0x80 + n % 64) (hhigh : 0x80 + n % 64 ≤ high.toNat) (owed : Nat)
    (rest : Bytes) :
    continuation (owed + 1) low high (trail n :: rest) = trail n :: continuation owed 0x80 0xBF rest := by
  rw [← toNat_trail] at hlow hhigh
  exact if_pos ⟨UInt8.le_iff_toNat_le.mpr hlow, UInt8.le_iff_toNat_le.mpr hhigh⟩

/-- Further bytes of a sequence have the whole range. -/
theorem continuation_trail_full (n owed : Nat) (rest : Bytes) :
    continuation (owed + 1) 0x80 0xBF (trail n :: rest) = trail n :: continuation owed 0x80 0xBF rest :=
  continuation_trail (by simp only [UInt8.reduceToNat]; omega) (by simp only [UInt8.reduceToNat]; omega) owed rest

theorem point_toNat (c : CodePoint) : point c.toNat = c := dif_pos c.isLt

/-- A whole sequence stands for its code point. -/
theorem decodeFrom_opens (more : Bytes) (hlead : lead b = .opens owed low high)
    (hmore : continuation owed low high (more ++ rest) = more) (hlength : more.length = owed)
    (hpoint : assemble b more = c.toNat) (pos : Nat) :
    decodeFrom pos (b :: (more ++ rest)) = (c :: ·) <$> decodeFrom (pos + 1 + owed) rest := by
  rw [decodeFrom, hlead]
  dsimp only
  rw [hmore, if_pos hlength, hpoint, point_toNat, ← hlength, List.drop_left]
  rfl

/-- The number of a sequence, by the class of its lead byte. -/
theorem assemble_eq (b : UInt8) (more : Bytes) :
    assemble b more = more.foldl (fun n x => n * 64 + (x.toNat - 0x80))
      (if b.toNat < 0xE0 then b.toNat - 0xC0 else if b.toNat < 0xF0 then b.toNat - 0xE0 else b.toNat - 0xF0) := by
  simp only [assemble, UInt8.lt_iff_toNat_lt, UInt8.reduceToNat]

/-- **One code point** is read back from its bytes, whatever follows them. -/
theorem decodeFrom_encodePoint (hc : c.isSurrogate = false) (pos : Nat) (rest : Bytes) :
    ∃ next, decodeFrom pos (encodePoint c ++ rest) = (c :: ·) <$> decodeFrom next rest := by
  have hend := c.isLt
  have hhalf := CodePoint.isSurrogate_eq_false_iff.mp hc
  unfold encodePoint
  dsimp only
  split_ifs with hone htwo hthree
  · have hb := toNat_toUInt8 (n := c.toNat) (by omega)
    have hself : CodePoint.ofByte c.toNat.toUInt8 = c := CodePoint.ext hb
    refine ⟨pos + 1, ?_⟩
    rw [List.singleton_append, decodeFrom, lead_single (hb.symm ▸ hone)]
    dsimp only
    rw [hself]
    rfl
  · have hb := toNat_toUInt8 (n := 0xC0 + c.toNat / 64) (by omega)
    have hlead := lead_two (b := (0xC0 + c.toNat / 64).toUInt8) (by omega) (by omega)
    refine ⟨_, decodeFrom_opens [trail c.toNat] hlead (continuation_trail_full _ _ _) rfl ?_ pos⟩
    rw [assemble_eq, hb, if_pos (by omega)]
    simp only [List.foldl_cons, List.foldl_nil, toNat_trail]
    omega
  · have hb := toNat_toUInt8 (n := 0xE0 + c.toNat / 4096) (by omega)
    obtain ⟨low, high, hlead, hlow, hhigh⟩ :=
      exists_lead_three (b := (0xE0 + c.toNat / 4096).toUInt8) (0x80 + c.toNat / 64 % 64)
        (by omega) (by omega) (by omega) (by omega) (by omega) (by omega)
    refine ⟨_, decodeFrom_opens [trail (c.toNat / 64), trail c.toNat] hlead ?_ rfl ?_ pos⟩
    · rw [List.cons_append, continuation_trail hlow hhigh]
      exact congrArg _ (continuation_trail_full _ _ _)
    · rw [assemble_eq, hb, if_neg (by omega), if_pos (by omega)]
      simp only [List.foldl_cons, List.foldl_nil, toNat_trail]
      omega
  · have hb := toNat_toUInt8 (n := 0xF0 + c.toNat / 262144) (by omega)
    obtain ⟨low, high, hlead, hlow, hhigh⟩ :=
      exists_lead_four (b := (0xF0 + c.toNat / 262144).toUInt8) (0x80 + c.toNat / 4096 % 64)
        (by omega) (by omega) (by omega) (by omega) (by omega) (by omega)
    refine ⟨_, decodeFrom_opens [trail (c.toNat / 4096), trail (c.toNat / 64), trail c.toNat]
      hlead ?_ rfl ?_ pos⟩
    · rw [List.cons_append, List.cons_append, continuation_trail hlow hhigh, continuation_trail_full]
      exact congrArg _ (congrArg _ (continuation_trail_full _ _ _))
    · rw [assemble_eq, hb, if_neg (by omega), if_neg (by omega)]
      simp only [List.foldl_cons, List.foldl_nil, toNat_trail]
      omega

/-- A text without halves of pairs is read from its bytes, wherever they stand. -/
theorem decodeFrom_flatMap (h : t.IsEncodable) (pos : Nat) :
    decodeFrom pos (t.flatMap encodePoint) = .ok t := by
  induction t generalizing pos with
  | nil => rw [List.flatMap_nil, decodeFrom]
  | cons c t ih =>
    obtain ⟨hc, ht⟩ := List.forall_mem_cons.mp h
    obtain ⟨next, hnext⟩ := decodeFrom_encodePoint hc pos (t.flatMap encodePoint)
    rw [List.flatMap_cons, hnext, ih ht next]
    rfl

/-- Exactly the texts without halves of pairs have bytes. -/
theorem encode_eq_ok_iff : encode t = .ok content ↔ t.IsEncodable ∧ t.flatMap encodePoint = content := by
  constructor
  · intro h
    refine ⟨(exists_encode_eq_ok_iff t).mp ⟨_, h⟩, ?_⟩
    unfold encode at h
    split at h <;> cases h
    rfl
  · rintro ⟨hall, rfl⟩
    obtain ⟨b, hb⟩ := (exists_encode_eq_ok_iff t).mpr hall
    have hshape := hb
    unfold encode at hshape
    split at hshape <;> cases hshape
    exact hb

/-- **A text is read back from its bytes.** -/
theorem decode_of_encode (h : encode t = .ok content) : decode content = .ok t := by
  obtain ⟨hall, rfl⟩ := encode_eq_ok_iff.mp h
  exact decodeFrom_flatMap hall 0

/-! ## Characters -/

/-- A character has the bytes that it has in a string. -/
theorem encodePoint_ofChar (c : Char) : encodePoint (.ofChar c) = String.utf8EncodeChar c := by
  have hend := (CodePoint.ofChar c).isLt
  rw [CodePoint.toNat_ofChar] at hend
  have hval : c.val.toNat = c.toNat := rfl
  simp only [encodePoint, String.utf8EncodeChar, CodePoint.toNat_ofChar, hval, Nat.toUInt8_eq]
  split_ifs
  any_goals omega
  · rfl
  · simp only [Nat.mod_eq_of_lt (show c.toNat / 64 < 32 by omega), Nat.add_comm]
  · simp only [Nat.mod_eq_of_lt (show c.toNat / 4096 < 16 by omega), Nat.add_comm]
  · simp only [Nat.mod_eq_of_lt (show c.toNat / 262144 < 8 by omega), Nat.add_comm]

/-- **The bytes of characters** are those that they have in a string. -/
theorem encode_ofChars (cs : List Char) : encode (Text.ofChars cs) = .ok (cs.flatMap String.utf8EncodeChar) := by
  refine encode_eq_ok_iff.mpr ⟨List.forall_mem_map.mpr fun c _ => Text.isSurrogate_ofChar c, ?_⟩
  simp only [Text.ofChars, List.flatMap_map, encodePoint_ofChar]

/-- Whatever is no half of a pair is a character. -/
theorem exists_ofChar (hc : c.isSurrogate = false) : ∃ d, CodePoint.ofChar d = c := by
  have hvalid : c.toNat.isValidChar :=
    (CodePoint.isSurrogate_eq_false_iff.mp hc).imp_right fun h => ⟨h, c.isLt⟩
  exact ⟨Char.ofNatAux c.toNat hvalid, rfl⟩

/-- Whatever has bytes is made of characters. -/
theorem exists_ofChars (h : t.IsEncodable) : ∃ cs, Text.ofChars cs = t := by
  induction t with
  | nil => exact ⟨[], rfl⟩
  | cons c t ih =>
    obtain ⟨hc, ht⟩ := List.forall_mem_cons.mp h
    obtain ⟨d, rfl⟩ := exists_ofChar hc
    obtain ⟨cs, rfl⟩ := ih ht
    exact ⟨d :: cs, rfl⟩

end TopicFilter.Utf8
