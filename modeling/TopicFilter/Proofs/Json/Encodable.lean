import Mathlib.Tactic.SplitIfs
import TopicFilter.Json.Reader
import TopicFilter.Text.Utf8

/-!
# Proofs/Json/Encodable — what is read strictly has bytes

A half of a pair can be written with a backslash in a text that has none itself, and it has no bytes. The strict rules
let none pass, so each text in a value that is read under them has bytes (`isEncodable_read`), whatever text it is read
from. Both readers are machines, and for each the fact is carried by what one step keeps.
-/

namespace TopicFilter

/-- No half of a pair stands by itself in the text. -/
def Text.IsEncodable (t : Text) : Prop := ∀ c ∈ t, c.isSurrogate = false

theorem CodePoint.isSurrogate_eq_false_iff {c : CodePoint} :
    c.isSurrogate = false ↔ c.toNat < 0xD800 ∨ 0xDFFF < c.toNat := by
  simp only [isSurrogate, Bool.and_eq_false_iff, decide_eq_false_iff_not, Nat.not_le]

namespace Text

theorem isEncodable_nil : IsEncodable [] := nofun

theorem IsEncodable.cons {c : CodePoint} {t : Text} (hc : c.isSurrogate = false) (ht : t.IsEncodable) :
    IsEncodable (c :: t) := List.forall_mem_cons.mpr ⟨hc, ht⟩

theorem IsEncodable.append {t u : Text} (ht : t.IsEncodable) (hu : u.IsEncodable) : IsEncodable (t ++ u) :=
  List.forall_mem_append.mpr ⟨ht, hu⟩

theorem IsEncodable.reverse {t : Text} (ht : t.IsEncodable) : IsEncodable t.reverse :=
  fun c hc => ht c (List.mem_reverse.mp hc)

theorem isSurrogate_ofChar (c : Char) : (CodePoint.ofChar c).isSurrogate = false := by
  have hvalid : c.toNat < 0xD800 ∨ 0xDFFF < c.toNat ∧ c.toNat < 0x110000 := c.valid
  exact CodePoint.isSurrogate_eq_false_iff.mpr (hvalid.imp_right And.left)

/-- Strings have no halves of pairs. -/
theorem isEncodable_ofString (s : String) : IsEncodable (ofString s) := fun c hc => by
  obtain ⟨d, _, rfl⟩ := List.mem_map.mp hc
  exact isSurrogate_ofChar d

end Text

namespace Json

variable {rules : Rules} {mode mode' : Mode} {tokens : List Token} {c : CodePoint} {read t : Text} {limit : Nat}
  {around : List Open} {v : Json}

/-- All texts in the value have bytes, the names of fields among them. -/
inductive IsEncodable : Json → Prop where
  /-- Nothing has no texts. -/
  | null : IsEncodable .null
  /-- Truth values have no texts. -/
  | bool (b : Bool) : IsEncodable (.bool b)
  /-- Numbers have no texts. -/
  | number (lexeme : Text) : IsEncodable (.number lexeme)
  /-- A text that has bytes. -/
  | text {t : Text} (h : t.IsEncodable) : IsEncodable (.text t)
  /-- A list of such values. -/
  | array {items : List Json} (h : ∀ v ∈ items, IsEncodable v) : IsEncodable (.array items)
  /-- An object of such values, under names that have bytes. -/
  | object {fields : List (Text × Json)} (hnames : ∀ field ∈ fields, field.1.IsEncodable)
    (hvalues : ∀ field ∈ fields, IsEncodable field.2) : IsEncodable (.object fields)

theorem isEncodable_text_iff : (Json.text t).IsEncodable ↔ t.IsEncodable :=
  ⟨fun h => by cases h; assumption, .text⟩

/-! ## Tokens -/

/-- The value of a token has such texts. -/
def Token.IsEncodable : Token → Prop
  | .scalar v => v.IsEncodable
  | _ => True

/-- What was read of a text has bytes, and the word that is being read stands for a value with such texts. -/
def Mode.IsEncodable : Mode → Prop
  | .between | .number .. => True
  | .word _ value => value.IsEncodable
  | .string read | .escape read | .unit read .. | .pair read _ | .pairMark read _ => read.IsEncodable

/-- What comes of one code point: a mode and the tokens that are complete. -/
structure Advanced (next : Mode × List Token) : Prop where
  /-- The mode is one of those. -/
  mode : next.1.IsEncodable
  /-- The tokens are of those. -/
  tokens : ∀ token ∈ next.2, token.IsEncodable

theorem Advanced.of_mode (h : mode.IsEncodable) : Advanced (mode, []) := ⟨h, nofun⟩

theorem Advanced.of_token {token : Token} (h : token.IsEncodable) : Advanced (.between, [token]) :=
  ⟨trivial, List.forall_mem_singleton.mpr h⟩

theorem isEncodable_startWord (h : startWord c = some mode) : mode.IsEncodable := by
  have hwords : ∀ entry ∈ words, entry.2.IsEncodable := by
    simp only [words, List.forall_mem_cons, List.not_mem_nil, false_implies, implies_true, and_true]
    exact ⟨.bool _, .bool _, .null, .number _, .number _⟩
  obtain ⟨⟨word, value⟩, hmem, hmode⟩ := List.exists_of_findSome?_eq_some h
  have hvalue := hwords _ hmem
  cases word with
  | nil => cases hmode
  | cons first left =>
    obtain ⟨_, hmode⟩ := Option.ite_none_right_eq_some.mp hmode
    obtain rfl := Option.some.inj hmode
    exact hvalue

/-- A choice between what comes of a code point, and further choices. -/
theorem of_choice {P : Mode × List Token → Prop} {p : Prop} [Decidable p] {x next : Mode × List Token}
    {rest : Option (Mode × List Token)} (hx : P x) (hrest : rest = some next → P next) :
    (if p then some x else rest) = some next → P next := by
  intro h
  split at h
  · obtain rfl := Option.some.inj h
    exact hx
  · exact hrest h

theorem advanced_start {next : Mode × List Token} : start c = some next → Advanced next := by
  refine of_choice (.of_mode trivial) ?_
  iterate 6 refine of_choice (.of_token trivial) ?_
  refine of_choice (.of_mode Text.isEncodable_nil) ?_
  iterate 3 refine of_choice (.of_mode trivial) ?_
  intro h
  obtain ⟨mode, hmode, rfl⟩ := Option.map_eq_some_iff.mp h
  exact .of_mode (isEncodable_startWord hmode)

theorem isEncodable_numberToken {p : Phase} {token : Token} (h : numberToken p read = some token) :
    token.IsEncodable := by
  simp only [numberToken] at h
  split at h
  · cases h
    exact .number _
  · cases h

theorem advanced_inString {next : Mode × List Token} (hrules : rules.halves = false) (hread : read.IsEncodable)
    (h : inString rules read c = some next) : Advanced next := by
  unfold inString at h
  split_ifs at h with _ _ hc
  all_goals obtain rfl := Option.some.inj h
  · exact .of_token (.text hread.reverse)
  · exact .of_mode hread
  · have hsurrogate : c.isSurrogate = false := by
      simp only [hrules, Bool.not_false, Bool.and_true, Bool.or_eq_true, not_or] at hc
      exact Bool.eq_false_iff.mpr hc.2
    exact .of_mode (.cons hsurrogate hread)

theorem isSurrogate_escaped {d : CodePoint} (h : escaped c = some d) : d.isSurrogate = false := by
  unfold escaped at h
  split_ifs at h with hself
  all_goals obtain rfl := Option.some.inj h
  · simp only [isChar, Bool.or_eq_true, decide_eq_true_eq] at hself
    rcases hself with (rfl | rfl) | rfl <;> rfl
  all_goals rfl

theorem isEncodable_endEscape (hread : read.IsEncodable) (h : endEscape read c = some mode) : mode.IsEncodable := by
  unfold endEscape at h
  split at h
  · cases h
    exact hread
  · obtain ⟨d, hd, rfl⟩ := Option.map_eq_some_iff.mp h
    exact .cons (isSurrogate_escaped hd) hread

theorem alone_eq_none (hrules : rules.halves = false) (read : Text) (half : Nat) : alone rules read half = none := by
  simp [alone, hrules]

theorem isSurrogate_ofNat? {n : Nat} (hn : n < 0xD800 ∨ 0xDFFF < n) (h : CodePoint.ofNat? n = some c) :
    c.isSurrogate = false := by
  unfold CodePoint.ofNat? at h
  split at h
  · cases h
    exact CodePoint.isSurrogate_eq_false_iff.mpr hn
  · cases h

theorem isEncodable_endFirst {n : Nat} (hrules : rules.halves = false) (hread : read.IsEncodable)
    (h : endFirst rules read n = some mode) : mode.IsEncodable := by
  unfold endFirst at h
  split_ifs at h
  · cases h
    exact hread
  · rw [alone_eq_none hrules] at h
    cases h
  · obtain ⟨d, hd, rfl⟩ := Option.map_eq_some_iff.mp h
    exact .cons (isSurrogate_ofNat? (by omega) hd) hread

/-- Both halves of a pair stand for one code point, which is none of the halves. -/
theorem isEncodable_endUnit {n : Nat} {high : Option Nat} (hrules : rules.halves = false) (hread : read.IsEncodable)
    (h : endUnit rules read high n = some mode) : mode.IsEncodable := by
  cases high with
  | none => exact isEncodable_endFirst hrules hread h
  | some high =>
    simp only [endUnit, alone_eq_none hrules, Option.bind_none] at h
    split at h
    · obtain ⟨d, hd, rfl⟩ := Option.map_eq_some_iff.mp h
      exact .cons (isSurrogate_ofNat? (by omega) hd) hread
    · cases h

/-- **One code point** leads to a mode in which what was read has bytes, and completes tokens with such texts. -/
theorem advanced_step {next : Mode × List Token} (hrules : rules.halves = false) (hmode : mode.IsEncodable)
    (h : step rules mode c = some next) : Advanced next := by
  cases mode with
  | between => exact advanced_start h
  | word left value =>
    cases left with
    | nil => cases h
    | cons d left =>
      simp only [step] at h
      split_ifs at h <;> cases h
      · exact .of_token hmode
      · exact .of_mode hmode
  | number p read =>
    simp only [step] at h
    split at h
    · cases h
      exact .of_mode trivial
    · split at h
      · cases h
        exact .of_mode (.number _)
      · -- a number ends where it does not go on, and the code point starts something else
        obtain ⟨token, htoken, h⟩ := Option.bind_eq_some_iff.mp h
        obtain ⟨⟨mode, tokens⟩, hstart, h⟩ := Option.bind_eq_some_iff.mp h
        cases h
        obtain ⟨hmode, htokens⟩ := advanced_start hstart
        exact ⟨hmode, List.forall_mem_cons.mpr ⟨isEncodable_numberToken htoken, htokens⟩⟩
  | string read => exact advanced_inString hrules hmode h
  | escape read =>
    obtain ⟨mode, hmode', rfl⟩ := Option.map_eq_some_iff.mp h
    exact .of_mode (isEncodable_endEscape hmode hmode')
  | unit read high left value =>
    obtain ⟨digit, _, h⟩ := Option.bind_eq_some_iff.mp h
    dsimp only at h
    split at h
    · obtain ⟨mode, hmode', h⟩ := Option.bind_eq_some_iff.mp h
      cases h
      exact .of_mode (isEncodable_endUnit hrules hmode hmode')
    · cases h
      exact .of_mode hmode
  | pair read high =>
    simp only [step, alone_eq_none hrules, Option.bind_none] at h
    split at h <;> cases h
    exact .of_mode hmode
  | pairMark read high =>
    simp only [step, alone_eq_none hrules] at h
    split at h <;> cases h
    exact .of_mode hmode

theorem isEncodable_finish (h : finish mode = some tokens) : ∀ token ∈ tokens, token.IsEncodable := by
  cases mode with
  | between =>
    cases h
    exact nofun
  | number p read =>
    obtain ⟨token, htoken, rfl⟩ := Option.map_eq_some_iff.mp h
    exact List.forall_mem_singleton.mpr (isEncodable_numberToken htoken)
  | _ => cases h

/-- **All tokens of a text** that is read from such a mode on, after such tokens. -/
theorem isEncodable_scanFrom {before : List Token} (hrules : rules.halves = false) (hmode : mode.IsEncodable)
    (hbefore : ∀ token ∈ before, token.IsEncodable) (h : scanFrom rules mode before t = some tokens) :
    ∀ token ∈ tokens, token.IsEncodable := by
  induction t generalizing mode before with
  | nil =>
    obtain ⟨last, hlast, rfl⟩ := Option.map_eq_some_iff.mp h
    exact List.forall_mem_append.mpr ⟨fun token hm => hbefore token (List.mem_reverse.mp hm), isEncodable_finish hlast⟩
  | cons c rest ih =>
    simp only [scanFrom] at h
    split at h
    · next mode' more hstep =>
      obtain ⟨hmode', hmore⟩ := advanced_step hrules hmode hstep
      exact ih hmode'
        (List.forall_mem_append.mpr ⟨fun token hm => hmore token (List.mem_reverse.mp hm), hbefore⟩) h
    · cases h

theorem isEncodable_scan (hrules : rules.halves = false) (h : scan rules t = some tokens) :
    ∀ token ∈ tokens, token.IsEncodable :=
  have hbetween : Mode.between.IsEncodable := trivial
  isEncodable_scanFrom hrules hbetween (List.forall_mem_nil _) h

/-! ## Values -/

/-- The fields have names that have bytes, and values with such texts. -/
structure AreEncodable (fields : List (Text × Json)) : Prop where
  /-- The names have bytes. -/
  names : ∀ field ∈ fields, field.1.IsEncodable
  /-- The values have such texts. -/
  values : ∀ field ∈ fields, field.2.IsEncodable

theorem AreEncodable.nil : AreEncodable [] := ⟨nofun, nofun⟩

theorem AreEncodable.cons {fields : List (Text × Json)} (hname : t.IsEncodable) (hv : v.IsEncodable)
    (h : AreEncodable fields) : AreEncodable ((t, v) :: fields) :=
  ⟨List.forall_mem_cons.mpr ⟨hname, h.names⟩, List.forall_mem_cons.mpr ⟨hv, h.values⟩⟩

theorem AreEncodable.object_reverse {fields : List (Text × Json)} (h : AreEncodable fields) :
    (Json.object fields.reverse).IsEncodable :=
  .object (fun field hm => h.names field (List.mem_reverse.mp hm))
    fun field hm => h.values field (List.mem_reverse.mp hm)

/-- What a list or an object holds so far has such texts. -/
def Open.IsEncodable : Open → Prop
  | .array items => ∀ v ∈ items, v.IsEncodable
  | .object fields key => AreEncodable fields ∧ key.IsEncodable

/-- All that was read so far has such texts. -/
def State.IsEncodable : State → Prop
  | .value around | .listStart around | .objectStart around => ∀ part ∈ around, part.IsEncodable
  | .listNext items around => (∀ v ∈ items, v.IsEncodable) ∧ ∀ part ∈ around, part.IsEncodable
  | .objectNext fields around | .key fields around => AreEncodable fields ∧ ∀ part ∈ around, part.IsEncodable
  | .colon fields name around => (AreEncodable fields ∧ name.IsEncodable) ∧ ∀ part ∈ around, part.IsEncodable
  | .finished v => v.IsEncodable

theorem isEncodable_give (hv : v.IsEncodable) (haround : ∀ part ∈ around, part.IsEncodable) :
    (give v around).IsEncodable := by
  cases around with
  | nil => exact hv
  | cons part around =>
    obtain ⟨hpart, hrest⟩ := List.forall_mem_cons.mp haround
    cases part with
    | array items => exact ⟨List.forall_mem_cons.mpr ⟨hv, hpart⟩, hrest⟩
    | object fields key => exact ⟨.cons hpart.2 hv hpart.1, hrest⟩

theorem isEncodable_startValue {token : Token} {s : State} (haround : ∀ part ∈ around, part.IsEncodable)
    (htoken : token.IsEncodable) (h : startValue around token = some s) : s.IsEncodable := by
  cases token with
  | scalar v =>
    cases h
    exact isEncodable_give htoken haround
  | openBracket | openBrace =>
    cases h
    exact haround
  | _ => cases h

/-- **One token** leads on to a state in which all that was read has such texts. -/
theorem isEncodable_advance {token : Token} {s s' : State} (hs : s.IsEncodable) (htoken : token.IsEncodable)
    (h : advance limit s token = some s') : s'.IsEncodable := by
  -- the cases are the clauses of `advance`, in their order
  unfold advance at h
  split at h
  · exact isEncodable_startValue hs htoken h
  · cases h
    exact isEncodable_give (.array nofun) hs
  · split at h
    · refine isEncodable_startValue ?_ htoken h
      exact List.forall_mem_cons.mpr ⟨List.forall_mem_nil _, hs⟩
    · cases h
  · cases h
    exact isEncodable_give AreEncodable.nil.object_reverse hs
  · split at h
    · cases h
      exact ⟨⟨.nil, isEncodable_text_iff.mp htoken⟩, hs⟩
    · cases h
  · cases h
    exact List.forall_mem_cons.mpr hs
  · cases h
    exact isEncodable_give (.array fun v hm => hs.1 v (List.mem_reverse.mp hm)) hs.2
  · cases h
    exact hs
  · cases h
    exact isEncodable_give hs.1.object_reverse hs.2
  · cases h
    exact ⟨⟨hs.1, isEncodable_text_iff.mp htoken⟩, hs.2⟩
  · cases h
    exact List.forall_mem_cons.mpr hs
  · cases h

/-- **The value** that is read from such a state and such tokens on. -/
theorem isEncodable_readFrom {s : State} (hs : s.IsEncodable) (htokens : ∀ token ∈ tokens, token.IsEncodable)
    (h : readFrom limit s tokens = some v) : v.IsEncodable := by
  induction tokens generalizing s with
  | nil =>
    cases s with
    | finished value =>
      cases h
      exact hs
    | _ => cases h
  | cons token tokens ih =>
    obtain ⟨htoken, htokens⟩ := List.forall_mem_cons.mp htokens
    rw [readFrom] at h
    obtain ⟨s', hs', h⟩ := Option.bind_eq_some_iff.mp h
    exact ih (isEncodable_advance hs htoken hs') htokens h

/-- **Texts that are read without halves of pairs have bytes**, from whatever text they are read. -/
theorem isEncodable_read (hrules : rules.halves = false) (h : Json.read rules t = some v) : v.IsEncodable := by
  obtain ⟨tokens, hscan, h⟩ := Option.bind_eq_some_iff.mp h
  have hstart : (State.value []).IsEncodable := List.forall_mem_nil _
  exact isEncodable_readFrom hstart (isEncodable_scan hrules hscan) h

end Json

end TopicFilter
