import TopicFilter.Proofs.Json.Encodable
import TopicFilter.Settings.File

/-!
# Proofs/Json/LineEnds — what a text spells does not depend on its line ends

Between tokens a line end of either kind is space, and in a number it is the end of the number. In a text or a word it
is a fault. So for the machine a line end is the same as the end of the text: it completes what is being read, and it
fails where that is not complete (`step_of_isLineEnd`). A second line end has nothing to complete, and a text spells the
same when its line ends are unified (`read_unifyLineEnds`).
-/

namespace TopicFilter

namespace Json

variable {rules : Rules} {mode mode' : Mode} {tokens before : List Token} {c : CodePoint} {read : Text}

/-- The code point ends a line, by itself or as a half of a pair. -/
def IsLineEnd (c : CodePoint) : Prop := c = CodePoint.ofChar '\n' ∨ c = CodePoint.ofChar '\r'

/-! ## A line end by itself -/

theorem IsLineEnd.lt (h : IsLineEnd c) : c.toNat < 0x20 := by
  rcases h with rfl | rfl <;> decide

theorem IsLineEnd.start_eq (h : IsLineEnd c) : start c = some (.between, []) := by
  rcases h with rfl | rfl <;> rfl

/-- No number goes on with a line end. -/
theorem IsLineEnd.next_eq (h : IsLineEnd c) (p : Phase) : p.next c = none := by
  rcases h with rfl | rfl <;> cases p <;> rfl

/-- No text goes on with a line end. -/
theorem IsLineEnd.inString_eq (h : IsLineEnd c) (rules : Rules) (read : Text) : inString rules read c = none := by
  rcases h with rfl | rfl <;> rfl

/-- No line end follows a backslash. -/
theorem IsLineEnd.endEscape_eq (h : IsLineEnd c) (read : Text) : endEscape read c = none := by
  rcases h with rfl | rfl <;> rfl

theorem IsLineEnd.value?_eq (h : IsLineEnd c) : Hexadecimal.value? c = none := by
  rcases h with rfl | rfl <;> rfl

theorem IsLineEnd.isChar_eq (h : IsLineEnd c) {d : Char} (hd : 0x20 ≤ d.toNat) : isChar c d = false := by
  refine decide_eq_false fun heq => ?_
  have hlt := h.lt
  rw [heq, CodePoint.toNat_ofChar] at hlt
  exact absurd hd (Nat.not_le.mpr hlt)

/-! ## A line end in what is being read -/

/-- The rest of the word that is being read holds no line end. -/
def Mode.IsOneLine : Mode → Prop
  | .word left _ => ∀ c ∈ left, ¬ IsLineEnd c
  | _ => True

theorem not_isLineEnd_ofChar {d : Char} (hd : 0x20 ≤ d.toNat) : ¬ IsLineEnd (CodePoint.ofChar d) :=
  fun h => absurd hd (Nat.not_le.mpr h.lt)

/-- A string without signs of control holds no line end. -/
theorem not_isLineEnd_of_mem {s : String} (hs : s.toList.all (fun d => 0x20 ≤ d.toNat) = true) :
    ∀ c ∈ Text.ofString s, ¬ IsLineEnd c := fun c hc => by
  obtain ⟨d, hd, rfl⟩ := List.mem_map.mp hc
  exact not_isLineEnd_ofChar (of_decide_eq_true (List.all_eq_true.mp hs d hd))

/-- Words are spelled on one line. -/
theorem isOneLine_startWord (h : startWord c = some mode) : mode.IsOneLine := by
  have hwords : ∀ entry ∈ words, ∀ c ∈ entry.1, ¬ IsLineEnd c := by
    simp only [words, List.forall_mem_cons, List.not_mem_nil, false_implies, implies_true, and_true]
    refine ⟨?_, ?_, ?_, ?_, ?_⟩ <;> exact not_isLineEnd_of_mem (by decide)
  obtain ⟨⟨word, value⟩, hmem, hmode⟩ := List.exists_of_findSome?_eq_some h
  have hword := hwords _ hmem
  cases word with
  | nil => cases hmode
  | cons first left =>
    obtain ⟨_, hmode⟩ := Option.ite_none_right_eq_some.mp hmode
    obtain rfl := Option.some.inj hmode
    exact (List.forall_mem_cons.mp hword).2

theorem isOneLine_start {next : Mode × List Token} : start c = some next → next.1.IsOneLine := by
  iterate 11 refine of_choice (P := fun next => next.1.IsOneLine) trivial ?_
  intro h
  obtain ⟨mode, hmode, rfl⟩ := Option.map_eq_some_iff.mp h
  exact isOneLine_startWord hmode

/-- What a code point of a text leads to is no word. -/
theorem isOneLine_inString {next : Mode × List Token} : inString rules read c = some next → next.1.IsOneLine := by
  iterate 2 refine of_choice (P := fun next => next.1.IsOneLine) trivial ?_
  intro h
  split at h <;> cases h
  trivial

theorem isOneLine_endEscape (h : endEscape read c = some mode) : mode.IsOneLine := by
  unfold endEscape at h
  split at h
  · cases h
    trivial
  · obtain ⟨d, _, rfl⟩ := Option.map_eq_some_iff.mp h
    trivial

theorem isOneLine_endFirst {n : Nat} (h : endFirst rules read n = some mode) : mode.IsOneLine := by
  unfold endFirst at h
  split_ifs at h
  · cases h
    trivial
  all_goals
    obtain ⟨d, _, rfl⟩ := Option.map_eq_some_iff.mp h
    trivial

theorem isOneLine_endUnit {n : Nat} {high : Option Nat} (h : endUnit rules read high n = some mode) :
    mode.IsOneLine := by
  cases high with
  | none => exact isOneLine_endFirst h
  | some high =>
    simp only [endUnit] at h
    split at h
    · obtain ⟨d, _, rfl⟩ := Option.map_eq_some_iff.mp h
      trivial
    · obtain ⟨read', _, h⟩ := Option.bind_eq_some_iff.mp h
      exact isOneLine_endFirst h

/-- **One code point** leads from one line to one line. -/
theorem isOneLine_step {next : Mode × List Token} (hmode : mode.IsOneLine) (h : step rules mode c = some next) :
    next.1.IsOneLine := by
  cases mode with
  | between => exact isOneLine_start h
  | word left value =>
    cases left with
    | nil => cases h
    | cons d left =>
      simp only [step] at h
      split_ifs at h <;> cases h
      · trivial
      · exact (List.forall_mem_cons.mp hmode).2
  | number p read =>
    simp only [step] at h
    split at h
    · cases h
      trivial
    · split at h
      · cases h
        exact not_isLineEnd_of_mem (by decide)
      · obtain ⟨token, _, h⟩ := Option.bind_eq_some_iff.mp h
        obtain ⟨⟨mode, tokens⟩, hstart, h⟩ := Option.bind_eq_some_iff.mp h
        cases h
        have hmode' := isOneLine_start hstart
        exact hmode'
  | string read => exact isOneLine_inString h
  | escape read =>
    obtain ⟨mode, hmode', rfl⟩ := Option.map_eq_some_iff.mp h
    exact isOneLine_endEscape hmode'
  | unit read high left value =>
    obtain ⟨digit, _, h⟩ := Option.bind_eq_some_iff.mp h
    dsimp only at h
    split at h
    · obtain ⟨mode, hmode', h⟩ := Option.bind_eq_some_iff.mp h
      cases h
      exact isOneLine_endUnit hmode'
    · cases h
      trivial
  | pair read high =>
    simp only [step] at h
    split at h
    · cases h
      trivial
    · obtain ⟨read', _, h⟩ := Option.bind_eq_some_iff.mp h
      exact isOneLine_inString h
  | pairMark read high =>
    simp only [step] at h
    split at h
    · cases h
      trivial
    · obtain ⟨read', _, h⟩ := Option.bind_eq_some_iff.mp h
      obtain ⟨mode, hmode', h⟩ := Option.bind_eq_some_iff.mp h
      cases h
      exact isOneLine_endEscape hmode'

/-! ## Line ends in a text -/

/-- **A line end is the same as the end of the text**: it completes what is being read, or it is a fault. -/
theorem step_of_isLineEnd (hc : IsLineEnd c) (hmode : mode.IsOneLine) (rules : Rules) :
    step rules mode c = (finish mode).map (Mode.between, ·) := by
  cases mode with
  | between => exact hc.start_eq
  | word left value =>
    cases left with
    | nil => rfl
    | cons d left =>
      refine if_neg fun heq => ?_
      exact hmode d List.mem_cons_self (heq ▸ hc)
  | number p read =>
    simp only [step, hc.next_eq, hc.isChar_eq (d := 'I') (by decide), Bool.and_false, hc.start_eq, finish]
    cases numberToken p read <;> rfl
  | string read => exact hc.inString_eq rules read
  | escape read => simp only [step, hc.endEscape_eq, finish, Option.map_none]
  | unit read high left value =>
    simp only [step, hc.value?_eq, finish, Option.map_none]
    rfl
  | pair read high =>
    simp only [step, hc.isChar_eq (d := '\\') (by decide), hc.inString_eq, finish, Option.map_none]
    cases alone rules read high <;> rfl
  | pairMark read high =>
    simp only [step, hc.isChar_eq (d := 'u') (by decide), hc.endEscape_eq, finish, Option.map_none]
    cases alone rules read high <;> rfl

/-- The tokens of a text that begins with a line end. -/
theorem scanFrom_cons_of_isLineEnd (hc : IsLineEnd c) (hmode : mode.IsOneLine) (before : List Token) (rest : Text) :
    scanFrom rules mode before (c :: rest) =
      (finish mode).bind fun tokens => scanFrom rules .between (tokens.reverse ++ before) rest := by
  rw [scanFrom, step_of_isLineEnd hc hmode]
  cases finish mode <;> rfl

/-- A line end after a line end has nothing to complete. -/
theorem scanFrom_cons_cons_of_isLineEnd {d : CodePoint} (hc : IsLineEnd c) (hd : IsLineEnd d) (hmode : mode.IsOneLine)
    (before : List Token) (rest : Text) :
    scanFrom rules mode before (c :: d :: rest) = scanFrom rules mode before (d :: rest) := by
  rw [scanFrom_cons_of_isLineEnd hc hmode, scanFrom_cons_of_isLineEnd hd hmode]
  congr 1
  funext tokens
  have hbetween : Mode.between.IsOneLine := trivial
  exact scanFrom_cons_of_isLineEnd hd hbetween _ rest

/-- **Unified line ends make the same tokens**, from any mode on one line. -/
theorem scanFrom_unifyLineEnds (hmode : mode.IsOneLine) (before : List Token) (t : Text) :
    scanFrom rules mode before (Settings.unifyLineEnds t) = scanFrom rules mode before t := by
  have hcr : IsLineEnd (CodePoint.ofChar '\r') := .inr rfl
  have hlf : IsLineEnd (CodePoint.ofChar '\n') := .inl rfl
  have hbetween : Mode.between.IsOneLine := trivial
  induction t using Settings.unifyLineEnds.induct generalizing mode before with
  | case1 => rfl
  | case2 rest ih =>
    simp only [Settings.unifyLineEnds, ↓reduceIte]
    rw [scanFrom_cons_cons_of_isLineEnd hcr hlf hmode, scanFrom_cons_of_isLineEnd hlf hmode,
      scanFrom_cons_of_isLineEnd hlf hmode]
    simp only [ih hbetween]
  | case3 d rest hd ih =>
    simp only [Settings.unifyLineEnds, hd, ↓reduceIte]
    rw [scanFrom_cons_of_isLineEnd hlf hmode, scanFrom_cons_of_isLineEnd hcr hmode]
    simp only [ih hbetween]
  | case4 =>
    simp only [Settings.unifyLineEnds, ↓reduceIte]
    rw [scanFrom_cons_of_isLineEnd hlf hmode, scanFrom_cons_of_isLineEnd hcr hmode]
  | case5 c rest hc ih =>
    have hkeep : Settings.unifyLineEnds (c :: rest) = c :: Settings.unifyLineEnds rest := by
      rw [Settings.unifyLineEnds.eq_def]
      exact if_neg hc
    rw [hkeep, scanFrom, scanFrom]
    split
    · next mode' tokens hstep => exact ih (isOneLine_step hmode hstep) _
    · rfl

/-- **A text spells the same when its line ends are unified.** -/
theorem read_unifyLineEnds (rules : Rules) (t : Text) :
    Json.read rules (Settings.unifyLineEnds t) = Json.read rules t := by
  have hbetween : Mode.between.IsOneLine := trivial
  rw [Json.read, Json.read, scan, scan, scanFrom_unifyLineEnds hbetween]

end Json

end TopicFilter
