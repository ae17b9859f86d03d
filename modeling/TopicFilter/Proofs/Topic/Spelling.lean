import Mathlib.Data.List.Forall2
import TopicFilter.Proofs.Store.Keeping
import TopicFilter.Store.Topics

/-!
# Proofs/Topic/Spelling — the texts that name a topic

A topic is named by four pairs of digits of either case, `0x` or `0X` or neither in front, and blanks before, between
and after the pairs: `Spells t pairs`. These are all texts that name one (`read_spelled` and `exists_spelled_of_read`
for the pairs, `dropMarker_append_of_read` for what is in front), and any other text is refused for its value (`on_topicOfHex`). The
name that a topic is written with is read as the topic again, whichever case its digits have been given.
-/

namespace TopicFilter

/-! ## The grammar -/

/-- The small digits, in the order of the numbers that they stand for. -/
def Hexadecimal.numerals : Text := text "0123456789abcdef"

/-- Two hexadecimal digits of either case. -/
structure HexPair where
  /-- The first digit. -/
  high : CodePoint
  /-- The second digit. -/
  low : CodePoint
  /-- The first one is a digit. -/
  high_mem : Algorithm.lowerAscii high ∈ Hexadecimal.numerals
  /-- The second one is a digit. -/
  low_mem : Algorithm.lowerAscii low ∈ Hexadecimal.numerals

namespace HexPair

/-- The two digits. -/
def text (p : HexPair) : Text := [p.high, p.low]

/-- The byte that two digits stand for. -/
def value (p : HexPair) : UInt8 :=
  (Hexadecimal.numerals.idxOf (Algorithm.lowerAscii p.high) * 16 +
    Hexadecimal.numerals.idxOf (Algorithm.lowerAscii p.low)).toUInt8

end HexPair

/-- A run of blanks: spaces, tabs, and what ends or feeds a line or a page. -/
abbrev Blanks := { t : Text // ∀ c ∈ t, c ∈ text " \t\n\u000b\u000c\r" }

/-- What may be in front of the pairs. -/
inductive IsMarker : Text → Prop where
  /-- Nothing. -/
  | none : IsMarker []
  /-- A small marker. -/
  | small : IsMarker (text "0x")
  /-- A capital marker. -/
  | capital : IsMarker (text "0X")

/-- Blanks, and then pairs of digits, each with blanks after it. -/
def HexPairs.spelled (first : Blanks) (pairs : List (HexPair × Blanks)) : Text :=
  first.1 ++ pairs.flatMap fun p => p.1.text ++ p.2.1

/-- The text is made of pairs of digits, with a marker in front or none, and with blanks anywhere but inside of a
pair. -/
def Spells (t : Text) (pairs : List HexPair) : Prop :=
  ∃ (marker : Text) (first : Blanks) (rest : List (HexPair × Blanks)),
    IsMarker marker ∧ t = marker ++ HexPairs.spelled first rest ∧ rest.map Prod.fst = pairs

/-! ## Digits -/

namespace Hexadecimal

variable {c : CodePoint} {n : Nat}

theorem toNat_digit : ∀ n, n < 16 → (digit n).toNat = if n < 10 then 0x30 + n else 0x57 + n := by decide

/-- The digit that is written for a number is the one that was read, made small. -/
theorem ofChar_digit_of_value? (h : value? c = some n) : CodePoint.ofChar (digit n) = Algorithm.lowerAscii c := by
  refine CodePoint.ext ?_
  rw [CodePoint.toNat_ofChar, toNat_digit n (value?_lt h)]
  simp only [value?] at h
  unfold Algorithm.lowerAscii
  grind

/-- A digit is read alike in either case. -/
theorem value?_lowerAscii (c : CodePoint) : value? (Algorithm.lowerAscii c) = value? c := by
  unfold Algorithm.lowerAscii value?
  grind

/-- Small digits are written for numbers. -/
theorem mem_numerals_iff : c ∈ numerals ↔ ∃ n < 16, c = CodePoint.ofChar (digit n) := by
  have hnumerals : numerals = (List.range 16).map fun n => CodePoint.ofChar (digit n) := by decide
  simp [hnumerals, Eq.comm]

theorem idxOf_digit : ∀ n < 16, numerals.idxOf (CodePoint.ofChar (digit n)) = n := by decide

/-- **Digits are read by their place among the small ones.** -/
theorem value?_eq_some_iff :
    value? c = some n ↔ Algorithm.lowerAscii c ∈ numerals ∧ numerals.idxOf (Algorithm.lowerAscii c) = n := by
  constructor
  · intro h
    have hn := value?_lt h
    rw [← ofChar_digit_of_value? h]
    exact ⟨mem_numerals_iff.mpr ⟨n, hn, rfl⟩, idxOf_digit n hn⟩
  · rintro ⟨hmem, rfl⟩
    obtain ⟨n, hn, hc⟩ := mem_numerals_iff.mp hmem
    rw [← value?_lowerAscii, hc, idxOf_digit n hn, value?_digit n hn]

/-- Blanks are no digits. -/
theorem value?_of_isBlank (h : HexPairs.isBlank c = true) : value? c = none := by
  simp only [HexPairs.isBlank, Bool.or_eq_true, Bool.and_eq_true, decide_eq_true_eq] at h
  unfold value?
  grind

end Hexadecimal

namespace HexPair

variable (p : HexPair)

theorem value?_high : Hexadecimal.value? p.high = some (Hexadecimal.numerals.idxOf (Algorithm.lowerAscii p.high)) :=
  Hexadecimal.value?_eq_some_iff.mpr ⟨p.high_mem, rfl⟩

theorem value?_low : Hexadecimal.value? p.low = some (Hexadecimal.numerals.idxOf (Algorithm.lowerAscii p.low)) :=
  Hexadecimal.value?_eq_some_iff.mpr ⟨p.low_mem, rfl⟩

/-- Two characters that are read as numbers are a pair of digits. -/
theorem exists_pair {c d : CodePoint} {m n : Nat} (hc : Hexadecimal.value? c = some m)
    (hd : Hexadecimal.value? d = some n) : ∃ p : HexPair, p.text = [c, d] ∧ p.value = (m * 16 + n).toUInt8 := by
  obtain ⟨hcmem, rfl⟩ := Hexadecimal.value?_eq_some_iff.mp hc
  obtain ⟨hdmem, rfl⟩ := Hexadecimal.value?_eq_some_iff.mp hd
  exact ⟨⟨c, d, hcmem, hdmem⟩, rfl, rfl⟩

end HexPair

/-! ## Pairs read -/

namespace HexPairs

variable {t t' : Text} {b : Bytes} {c d : CodePoint}

/-- There are six blanks. -/
theorem isBlank_iff : isBlank c = true ↔ c ∈ text " \t\n\u000b\u000c\r" := by
  have hmem : c ∈ text " \t\n\u000b\u000c\r" ↔ c.toNat ∈ (text " \t\n\u000b\u000c\r").map CodePoint.toNat :=
    (List.mem_map_of_injective fun _ _ => CodePoint.ext).symm
  have hnumbers : (text " \t\n\u000b\u000c\r").map CodePoint.toNat = [32, 9, 10, 11, 12, 13] := by decide
  rw [hmem, hnumbers]
  simp only [isBlank, Bool.or_eq_true, Bool.and_eq_true, decide_eq_true_eq, List.mem_cons, List.not_mem_nil,
    or_false]
  omega

theorem read_blank (hc : isBlank c = true) (t : Text) : read (c :: t) = read t := by
  rw [read.eq_def]
  exact if_pos hc

theorem read_blanks (w : Blanks) (t : Text) : read (w.1 ++ t) = read t := by
  obtain ⟨w, hw⟩ := w
  induction w with
  | nil => rfl
  | cons c w ih =>
    obtain ⟨hc, hw⟩ := List.forall_mem_cons.mp hw
    rw [List.cons_append, read_blank (isBlank_iff.mpr hc)]
    exact ih hw

/-- Two digits are read as a byte. -/
theorem read_pair (p : HexPair) (t : Text) : read (p.text ++ t) = (read t).map (p.value :: ·) := by
  have hblank : ¬ isBlank p.high = true := fun h => by cases (Hexadecimal.value?_of_isBlank h).symm.trans p.value?_high
  simp [HexPair.text, HexPair.value, read, hblank, p.value?_high, p.value?_low]

/-- Pairs with blanks between them are read as their bytes. -/
theorem read_spelled (first : Blanks) (pairs : List (HexPair × Blanks)) :
    read (spelled first pairs) = some (pairs.map fun p => p.1.value) := by
  rw [spelled, read_blanks]
  induction pairs with
  | nil => rfl
  | cons p pairs ih =>
    rw [List.flatMap_cons, List.append_assoc, read_pair, read_blanks, ih]
    rfl

/-- **Only pairs with blanks between them are read.** -/
theorem exists_spelled_of_read (h : read t = some b) :
    ∃ first pairs, t = spelled first pairs ∧ b = pairs.map fun p => p.1.value := by
  fun_induction read t generalizing b with
  | case1 => exact ⟨⟨[], nofun⟩, [], rfl, (Option.some.inj h).symm⟩
  | case2 c rest hc ih =>
    obtain ⟨first, pairs, rfl, hb⟩ := ih h
    exact ⟨⟨c :: first.1, List.forall_mem_cons.mpr ⟨isBlank_iff.mp hc, first.2⟩⟩, pairs, rfl, hb⟩
  | case3 => cases h
  | case4 c _ d rest high low hlow hhigh ih =>
    obtain ⟨b', hb', rfl⟩ := Option.map_eq_some_iff.mp h
    obtain ⟨first, pairs, rfl, rfl⟩ := ih hb'
    obtain ⟨p, hp, hvalue⟩ := HexPair.exists_pair hhigh hlow
    exact ⟨⟨[], nofun⟩, (p, first) :: pairs, by simp [spelled, hp], by rw [List.map_cons, hvalue]⟩
  | case5 => cases h

/-! ## What is in front -/

/-- What is dropped in front is a marker or nothing. -/
theorem exists_marker (t : Text) : ∃ marker, IsMarker marker ∧ t = marker ++ dropMarker t := by
  unfold dropMarker
  split
  · next a b rest =>
    split
    · next hmarker =>
      obtain ⟨rfl, rfl | rfl⟩ := hmarker
      · exact ⟨_, .small, rfl⟩
      · exact ⟨_, .capital, rfl⟩
    · exact ⟨_, .none, rfl⟩
  · exact ⟨_, .none, rfl⟩

/-- A marker in front of pairs is dropped, and nothing else: no pair looks like a marker. -/
theorem dropMarker_append_of_read {marker : Text} (hmarker : IsMarker marker) (h : read t = some b) :
    dropMarker (marker ++ t) = t := by
  cases hmarker with
  | none =>
    match t, h with
    | [], _ => rfl
    | [c], _ => rfl
    | c :: d :: rest, h =>
      refine if_neg ?_
      rintro ⟨rfl, rfl | rfl⟩ <;> cases h
  | small => rfl
  | capital => rfl

end HexPairs

/-! ## Names read and written -/

namespace Hexadecimal

variable {digits : Text} {b : Bytes}

theorem bytes_cons (x : UInt8) (b : Bytes) : bytes (x :: b) =
    CodePoint.ofChar (digit (x.toNat / 16)) :: CodePoint.ofChar (digit (x.toNat % 16)) :: bytes b := rfl

/-- Bytes are written with digits, which are small. -/
theorem exists_digit_of_mem_bytes {c : CodePoint} (h : c ∈ bytes b) : ∃ n < 16, c = CodePoint.ofChar (digit n) := by
  induction b with
  | nil => cases h
  | cons x b ih =>
    have hx := x.toNat_lt
    rw [bytes_cons] at h
    rcases List.mem_cons.mp h with rfl | h
    · exact ⟨_, by omega, rfl⟩
    · rcases List.mem_cons.mp h with rfl | h
      · exact ⟨_, by omega, rfl⟩
      · exact ih h

theorem isSome_value?_of_mem_bytes {c : CodePoint} (h : c ∈ bytes b) : (value? c).isSome = true := by
  obtain ⟨n, hn, rfl⟩ := exists_digit_of_mem_bytes h
  rw [value?_digit n hn]
  rfl

theorem lowerAscii_of_mem_bytes {c : CodePoint} (h : c ∈ bytes b) : Algorithm.lowerAscii c = c := by
  obtain ⟨n, hn, rfl⟩ := exists_digit_of_mem_bytes h
  exact (ofChar_digit_of_value? (value?_digit n hn)).symm

/-- The digits of bytes are read as the bytes, in either case. -/
theorem read_of_lowerAscii (h : digits.map Algorithm.lowerAscii = bytes b) : HexPairs.read digits = some b := by
  induction b generalizing digits with
  | nil =>
    obtain rfl := List.map_eq_nil_iff.mp h
    rfl
  | cons x b ih =>
    obtain ⟨c, rest, rfl, hc, hrest⟩ := List.map_eq_cons_iff.mp h
    obtain ⟨d, rest, rfl, hd, hrest⟩ := List.map_eq_cons_iff.mp hrest
    have hx := x.toNat_lt
    have hhigh : value? c = some (x.toNat / 16) := by
      rw [← value?_lowerAscii, hc, value?_digit _ (by omega)]
    have hlow : value? d = some (x.toNat % 16) := by
      rw [← value?_lowerAscii, hd, value?_digit _ (by omega)]
    obtain ⟨p, hp, hvalue⟩ := HexPair.exists_pair hhigh hlow
    have hx : p.value = x := by
      rw [hvalue, Nat.div_add_mod']
      exact UInt8.ofNat_toNat
    have hread := HexPairs.read_pair p rest
    rw [hp, ih hrest, hx] at hread
    exact hread

/-- Written digits, some of them made capital, are the written ones when they are made small again. -/
theorem map_lowerAscii_eq_bytes (h : List.Forall₂ (fun d c => d = c ∨ Algorithm.lowerAscii d = c) digits (bytes b)) :
    digits.map Algorithm.lowerAscii = bytes b := by
  have hsmall : ∀ c ∈ bytes b, Algorithm.lowerAscii c = c := fun c => lowerAscii_of_mem_bytes
  generalize bytes b = written at h hsmall
  induction h with
  | nil => rfl
  | @cons d c ds cs hd _ ih =>
    obtain ⟨hc, hcs⟩ := List.forall_mem_cons.mp hsmall
    rw [List.map_cons, ih hcs]
    rcases hd with rfl | hd
    · rw [hc]
    · rw [hd]

/-- Pairs are written with their digits, made small. -/
theorem bytes_map_value (pairs : List HexPair) :
    bytes (pairs.map HexPair.value) = (pairs.flatMap HexPair.text).map Algorithm.lowerAscii := by
  induction pairs with
  | nil => rfl
  | cons p pairs ih =>
    have hm := value?_lt p.value?_high
    have hn := value?_lt p.value?_low
    have hvalue : p.value.toNat =
        numerals.idxOf (Algorithm.lowerAscii p.high) * 16 + numerals.idxOf (Algorithm.lowerAscii p.low) := by
      rw [HexPair.value, Nat.toUInt8_eq, UInt8.toNat_ofNat']
      omega
    have hhigh : p.value.toNat / 16 = numerals.idxOf (Algorithm.lowerAscii p.high) := by omega
    have hlow : p.value.toNat % 16 = numerals.idxOf (Algorithm.lowerAscii p.low) := by omega
    rw [List.map_cons, bytes_cons, hhigh, hlow, ofChar_digit_of_value? p.value?_high,
      ofChar_digit_of_value? p.value?_low, ih]
    rfl

end Hexadecimal

/-! ## Topics by name -/

namespace Topic

variable {t : Text} {τ : Topic} {pairs : List HexPair}

/-- A topic has the bytes of four pairs. -/
theorem ofBytes_map_value (h : pairs.length = 4) : ∃ τ, ofBytes (pairs.map HexPair.value) = .ok τ := by
  match pairs, h with
  | [_, _, _, _], _ => exact ⟨_, rfl⟩

/-- A topic is named by its name. -/
theorem ofHex_hex (t : Topic) : ofHex t.hex = .ok t := by
  have hread : HexPairs.read t.hex = some t.bytes :=
    Hexadecimal.read_of_lowerAscii (Hexadecimal.map_lowerAscii_eq_bytes (List.forall₂_same.mpr fun _ _ => .inl rfl))
  have hnone : HexPairs.dropMarker t.hex = t.hex := HexPairs.dropMarker_append_of_read .none hread
  simp only [ofHex, hnone, hread, ofBytes_bytes]

theorem ofBytes_of_length_ne {b : Bytes} (h : b.length ≠ 4) : ofBytes b = .error (.topicLength b.length) := by
  unfold ofBytes
  split
  · exact absurd rfl h
  · rfl

end Topic

/-- Pairs that a text is made of are read from it. -/
theorem Spells.read {t : Text} {pairs : List HexPair} (h : Spells t pairs) :
    HexPairs.read (HexPairs.dropMarker t) = some (pairs.map HexPair.value) := by
  obtain ⟨marker, first, rest, hmarker, rfl, rfl⟩ := h
  have hread := HexPairs.read_spelled first rest
  rw [HexPairs.dropMarker_append_of_read hmarker hread, hread, List.map_map]
  rfl

/-- …and what can be read is made of pairs. -/
theorem exists_spells {t : Text} {b : Bytes} (h : HexPairs.read (HexPairs.dropMarker t) = some b) :
    ∃ pairs, Spells t pairs ∧ b = pairs.map HexPair.value := by
  obtain ⟨marker, hmarker, ht⟩ := HexPairs.exists_marker t
  obtain ⟨first, rest, hrest, rfl⟩ := HexPairs.exists_spelled_of_read h
  exact ⟨rest.map Prod.fst, ⟨marker, first, rest, hmarker, hrest ▸ ht, rfl⟩, by rw [List.map_map]; rfl⟩

namespace Store

variable {s : Store} {v : Value} {t : Text} {b : Bytes}

/-- The names of kinds are no digits. -/
theorem read_name (k : Kind) : HexPairs.read k.name = none := by
  cases k <;> simp [Kind.name, Text.ofString, HexPairs.read, HexPairs.isBlank, Hexadecimal.value?]

theorem dropMarker_name (k : Kind) : HexPairs.dropMarker k.name = k.name := by cases k <;> rfl

/-- A text, or the name of a kind, is read without what is in front, and then is up to the bytes that are read. -/
theorem on_topicOfHex_of_read (h : v.text? = some t) (hread : HexPairs.read (HexPairs.dropMarker t) = some b) :
    (Action.topicOfHex v).on s = (Topic.ofBytes b, s) := by
  cases v with
  | scalar x =>
    cases x with
    | text t' =>
      obtain rfl := Option.some.inj h
      rw [Action.topicOfHex, Action.on_bind_ok (Action.on_bytes? _ s), Action.on_bind_ok (Action.on_cellOf? _ s)]
      simp only [Topic.ofHex, hread, Action.on_ofExcept]
    | _ => cases h
  | kind k =>
    obtain rfl := Option.some.inj h
    rw [dropMarker_name, read_name] at hread
    cases hread
  | _ => cases h

/-- …and if it cannot be read it is refused. -/
theorem exists_on_topicOfHex_of_read (h : v.text? = some t) (hread : HexPairs.read (HexPairs.dropMarker t) = none) :
    ∃ shown, (Action.topicOfHex v).on s = (.error (.topicHex shown), s) := by
  cases v with
  | scalar x =>
    cases x with
    | text t' =>
      obtain rfl := Option.some.inj h
      rw [Action.topicOfHex, Action.on_bind_ok (Action.on_bytes? _ s), Action.on_bind_ok (Action.on_cellOf? _ s)]
      simp only [Topic.ofHex, hread, Action.on_ofExcept]
      exact ⟨_, rfl⟩
    | _ => cases h
  | kind k =>
    rw [Action.topicOfHex, Action.on_bind_ok (Action.on_bytes? _ s), Action.on_bind_ok (Action.on_cellOf? _ s)]
    simp only [read_name]
    exact ⟨_, rfl⟩
  | _ => cases h

/-- **Which texts name a topic.** A text names a topic if it is made of four pairs of digits, with a marker in front
or none and with blanks anywhere but inside of a pair; the bytes of the topic are those that the pairs stand for, and
its name is their digits, made small. Any other text is refused for its value. And a topic is named by its own name,
with either marker or none and with any of the digits in the other case. -/
theorem on_topicOfHex (h : v.text? = some t) :
    ((∃ τ, (Action.topicOfHex v).on s = (.ok τ, s)) ↔ ∃ pairs, Spells t pairs ∧ pairs.length = 4) ∧
      (∀ pairs, Spells t pairs → pairs.length = 4 →
        ∃ τ, (Action.topicOfHex v).on s = (.ok τ, s) ∧ τ.bytes = pairs.map HexPair.value ∧
          τ.hex = (pairs.flatMap HexPair.text).map Algorithm.lowerAscii) ∧
      ((¬ ∃ pairs, Spells t pairs ∧ pairs.length = 4) →
        ∃ fault, (Action.topicOfHex v).on s = (.error fault, s) ∧ fault.sort = .value) ∧
      ∀ (τ : Topic) (marker digits : Text), IsMarker marker →
        List.Forall₂ (fun d c => d = c ∨ Algorithm.lowerAscii d = c) digits τ.hex →
        (Action.topicOfHex (.scalar (.text (marker ++ digits)))).on s = (.ok τ, s) := by
  have hspells : ∀ pairs, Spells t pairs → pairs.length = 4 →
      ∃ τ, (Action.topicOfHex v).on s = (.ok τ, s) ∧ τ.bytes = pairs.map HexPair.value ∧
        τ.hex = (pairs.flatMap HexPair.text).map Algorithm.lowerAscii := by
    intro pairs hpairs hlen
    obtain ⟨τ, hτ⟩ := Topic.ofBytes_map_value hlen
    have hbytes := (Topic.ofBytes_eq_ok_iff.mp hτ).symm
    refine ⟨τ, by rw [on_topicOfHex_of_read h hpairs.read, hτ], hbytes, ?_⟩
    rw [Topic.hex, hbytes, Hexadecimal.bytes_map_value]
  have hother : (¬ ∃ pairs, Spells t pairs ∧ pairs.length = 4) →
      ∃ fault, (Action.topicOfHex v).on s = (.error fault, s) ∧ fault.sort = .value := by
    intro hnone
    cases hread : HexPairs.read (HexPairs.dropMarker t) with
    | none =>
      obtain ⟨shown, hon⟩ := exists_on_topicOfHex_of_read (s := s) h hread
      exact ⟨_, hon, rfl⟩
    | some b =>
      obtain ⟨pairs, hpairs, rfl⟩ := exists_spells hread
      have hlen : (pairs.map HexPair.value).length ≠ 4 := fun hlen => hnone ⟨pairs, hpairs, by simpa using hlen⟩
      exact ⟨_, (on_topicOfHex_of_read h hread).trans (by rw [Topic.ofBytes_of_length_ne hlen]), rfl⟩
  refine ⟨⟨?_, ?_⟩, hspells, hother, fun τ marker digits hmarker hdigits => ?_⟩
  · rintro ⟨τ, hτ⟩
    refine Classical.byContradiction fun hnone => ?_
    obtain ⟨fault, hfault, _⟩ := hother hnone
    cases hτ.symm.trans hfault
  · rintro ⟨pairs, hpairs, hlen⟩
    obtain ⟨τ, hτ, _⟩ := hspells pairs hpairs hlen
    exact ⟨τ, hτ⟩
  · have hread := Hexadecimal.read_of_lowerAscii (Hexadecimal.map_lowerAscii_eq_bytes hdigits)
    refine (on_topicOfHex_of_read rfl ?_).trans (by rw [Topic.ofBytes_bytes])
    rw [HexPairs.dropMarker_append_of_read hmarker hread, hread]

/-- Four pairs after a capital marker, some of them in capitals, with a blank of each sort. -/
theorem on_topicOfHex_blanks :
    let v : Value := .scalar (.text (text "0X dE\tAd\n\u000b\u000cbe\rEF "))
    ∃ τ : Topic, (Action.topicOfHex v).on (holding []) = (.ok τ, holding []) ∧
      τ.bytes = [0xde, 0xad, 0xbe, 0xef] ∧ τ.hex = text "deadbeef" := by
  intro v
  let pairs : List (HexPair × Blanks) :=
    [(⟨.ofChar 'd', .ofChar 'E', by decide, by decide⟩, ⟨text "\t", by decide⟩),
      (⟨.ofChar 'A', .ofChar 'd', by decide, by decide⟩, ⟨text "\n\u000b\u000c", by decide⟩),
      (⟨.ofChar 'b', .ofChar 'e', by decide, by decide⟩, ⟨text "\r", by decide⟩),
      (⟨.ofChar 'E', .ofChar 'F', by decide, by decide⟩, ⟨text " ", by decide⟩)]
  have hspells : Spells (text "0X dE\tAd\n\u000b\u000cbe\rEF ") (pairs.map Prod.fst) :=
    ⟨_, ⟨text " ", by decide⟩, pairs, .capital, by decide, rfl⟩
  obtain ⟨-, hspelled, -⟩ := on_topicOfHex (s := holding []) (v := v) rfl
  obtain ⟨τ, hτ, hbytes, hhex⟩ := hspelled _ hspells rfl
  exact ⟨τ, hτ, hbytes.trans (by decide), hhex.trans (by decide)⟩

end Store

end TopicFilter
