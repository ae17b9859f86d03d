import TopicFilter.Proofs.Matcher.Abstraction
import TopicFilter.Proofs.Matcher.Agreement
import TopicFilter.Proofs.Topic.Order

/-!
# Proofs/Matcher/Rendering — the form of a matcher says what it is

A matcher is shown as its conditions one after another: a star for a wildcard, and the names of its topics between
braces for any other. Stars and braces stand nowhere else, and names have neither commas nor blanks, so the conditions
can be read back character by character (`Matcher.ofShown_shown`), and matchers that are shown alike are equal. The
names come in the order of a dictionary, which is that of the topics (`TopicSet.hexList_unique`); so it does not show
in which order, or how often, a topic was listed.
-/

namespace TopicFilter

/-- A condition that is no wildcard has topics to list. -/
theorem Condition.toList_topics_ne_nil {c : Condition} (h : c.isWildcard = false) : c.topics.toList ≠ [] := by
  intro hnil
  have hw : c.isWildcard = true := isWildcard_iff_topics.mpr (TopicSet.isEmpty_iff.mp (List.isEmpty_iff.mpr hnil))
  exact Bool.noConfusion (hw.symm.trans h)

/-! ## Reading a form -/

namespace Matcher

/-- What has been read of the form of a matcher. -/
inductive Reading where
  /-- Some conditions, and no other has begun. -/
  | between (conditions : List Condition)
  /-- Some conditions, then some topics of another one, and then the beginning of a name. -/
  | inside (conditions : List Condition) (topics : List Topic) (name : Text)

namespace Reading

/-- The topic of a name, if it is one. -/
def named (name : Text) : List Topic := (Topic.ofHex name).toOption.toList

/-- One more character is read. -/
def step : Reading → CodePoint → Reading
  | between cs, c =>
    if c = .ofChar '*' then between (cs ++ [.any])
    else if c = .ofChar '\x7b' then inside cs [] []
    else between cs
  | inside cs ts name, c =>
    if c = .ofChar '\x7d' then between (cs ++ [.ofTopics (.ofList (ts ++ named name))])
    else if c = .ofChar ',' then inside cs (ts ++ named name) []
    else if c = .ofChar ' ' then inside cs ts name
    else inside cs ts (name ++ [c])

/-- The conditions that have been read. -/
def conditions : Reading → List Condition
  | between cs => cs
  | inside cs _ _ => cs

end Reading

/-- The matcher that is shown in some form. -/
def ofShown (t : Text) : Matcher := ⟨(t.foldl Reading.step (.between [])).conditions⟩

namespace Reading

variable {cs ds : List Condition} {ts us : List Topic} {name t : Text}

/-- What is between the conditions is passed over. -/
theorem foldl_between (h : ∀ c ∈ t, c ≠ .ofChar '*' ∧ c ≠ .ofChar '\x7b') :
    t.foldl step (between cs) = between cs := by
  induction t with
  | nil => rfl
  | cons c t ih =>
    obtain ⟨⟨hstar, hbrace⟩, ht⟩ := List.forall_mem_cons.mp h
    rw [List.foldl_cons, step, if_neg hstar, if_neg hbrace, ih ht]

/-- Digits go on with a name. -/
theorem foldl_inside (h : ∀ c ∈ t, (Hexadecimal.value? c).isSome = true) :
    t.foldl step (inside cs ts name) = inside cs ts (name ++ t) := by
  induction t generalizing name with
  | nil => rw [List.append_nil]; rfl
  | cons c t ih =>
    obtain ⟨hc, ht⟩ := List.forall_mem_cons.mp h
    have hne : ∀ d : Char, Hexadecimal.value? (.ofChar d) = none → c ≠ .ofChar d := by
      rintro d hd rfl
      rw [hd] at hc
      cases hc
    rw [List.foldl_cons, step, if_neg (hne _ rfl), if_neg (hne _ rfl), if_neg (hne _ rfl), ih ht, List.append_assoc]
    rfl

theorem named_hex (t : Topic) : named t.hex = [t] := by rw [named, Topic.ofHex_hex]; rfl

/-- A comma ends a name. -/
theorem foldl_comma (cs : List Condition) (ts : List Topic) (name : Text) :
    (text ", ").foldl step (inside cs ts name) = inside cs (ts ++ named name) [] := rfl

theorem foldl_hex (cs : List Condition) (ts : List Topic) (t : Topic) :
    t.hex.foldl step (inside cs ts []) = inside cs ts t.hex :=
  foldl_inside fun _ => Hexadecimal.isSome_value?_of_mem_bytes

/-- Topics by name up to the end of a condition are read as the condition on them. -/
theorem foldl_topics (h : us ≠ []) :
    (Text.join (text ", ") (us.map Topic.hex) ++ text "\x7d").foldl step (inside cs ts []) =
      between (cs ++ [.ofTopics (.ofList (ts ++ us))]) := by
  induction us generalizing ts with
  | nil => exact absurd rfl h
  | cons u us ih =>
    cases us with
    | nil =>
      have hend : (text "\x7d").foldl step (inside cs ts u.hex) =
          between (cs ++ [.ofTopics (.ofList (ts ++ named u.hex))]) := rfl
      rw [List.map_singleton, Text.join, List.foldl_append, foldl_hex, hend, named_hex]
    | cons w us =>
      rw [List.map_cons, List.map_cons, Text.join, ← List.map_cons, List.append_assoc, List.append_assoc,
        List.foldl_append, foldl_hex, List.foldl_append, foldl_comma, named_hex, ih (List.cons_ne_nil _ _),
        List.append_assoc]
      · rfl
      · nofun

/-- A condition is read as it is shown. -/
theorem foldl_brief (c : Condition) : c.brief.foldl step (between cs) = between (cs ++ [c]) := by
  unfold Condition.brief
  split
  · next hw =>
    have hc : c = .any := by
      rw [← Condition.ofTopics_topics c, Condition.isWildcard_iff_topics.mp hw]
      rfl
    rw [hc]
    rfl
  · next hw =>
    have hne := Condition.toList_topics_ne_nil (Bool.eq_false_iff.mpr hw)
    have hopen : (text "\x7b").foldl step (between cs) = inside cs [] [] := rfl
    rw [TopicSet.brief, List.append_assoc, List.foldl_append, hopen, TopicSet.hexList, foldl_topics hne,
      List.nil_append, TopicSet.ofList_toList, Condition.ofTopics_topics]

theorem foldl_briefs (ds : List Condition) :
    (Text.join (text ", ") (ds.map Condition.brief)).foldl step (between cs) = between (cs ++ ds) := by
  have hcomma : ∀ cs, (text ", ").foldl step (between cs) = between cs := fun _ => rfl
  induction ds generalizing cs with
  | nil => rw [List.append_nil]; rfl
  | cons d ds ih =>
    cases ds with
    | nil => exact foldl_brief d
    | cons e ds =>
      rw [List.map_cons, List.map_cons, Text.join, ← List.map_cons, List.foldl_append, List.foldl_append, foldl_brief,
        hcomma, ih, List.append_assoc]
      · rfl
      · nofun

end Reading

/-- **A matcher is read as it is shown.** -/
theorem ofShown_shown (M : Matcher) : ofShown M.shown = M := by
  have hbefore : (text "TopicMatcher([").foldl Reading.step (.between []) = .between [] :=
    Reading.foldl_between (by decide)
  have hafter : (text "])").foldl Reading.step (.between M.conditions) = .between M.conditions := rfl
  rw [ofShown, shown, shownConditions, List.foldl_append, List.foldl_append, hbefore, Reading.foldl_briefs,
    List.nil_append, hafter]
  rfl

end Matcher

/-! ## One form for each -/

/-- **The names of a set are those of its members in the order of a dictionary**, however the members are listed. -/
theorem TopicSet.hexList_unique {ts : TopicSet} {l : List Topic} {names : List Text} (hl : l.Nodup)
    (hmem : ∀ t, t ∈ l ↔ t ∈ ts) (hperm : names.Perm (l.map Topic.hex)) (hsorted : names.Pairwise fun a b => ¬ b < a) :
    names = ts.hexList := by
  have hnodup : ts.toList.Nodup := ts.sorted.imp fun {a b} (hab : a.toNat < b.toNat) (heq : a = b) =>
    absurd (congrArg Topic.toNat heq) hab.ne
  have hlist : l.Perm ts.toList := (List.perm_ext_iff_of_nodup hl hnodup).mpr hmem
  have hnames : ts.hexList.Pairwise fun a b => ¬ b < a := by
    refine List.pairwise_map.mpr (ts.sorted.imp fun {a b} (hab : a.toNat < b.toNat) hba => ?_)
    exact hab.asymm (Topic.hex_lt_hex_iff.mp hba)
  have hall : names.Perm ts.hexList := hperm.trans (hlist.map Topic.hex)
  refine List.Perm.eq_of_pairwise (fun a b ha hb hab hba => ?_) hsorted hnames hall
  obtain ⟨t, _, rfl⟩ := List.mem_map.mp (hall.mem_iff.mp ha)
  obtain ⟨u, _, rfl⟩ := List.mem_map.mp hb
  have htu : t.toNat = u.toNat := Nat.le_antisymm
    (Nat.le_of_not_lt fun h => hab (Topic.hex_lt_hex_iff.mpr h))
    (Nat.le_of_not_lt fun h => hba (Topic.hex_lt_hex_iff.mpr h))
  rw [Topic.toNat_injective htu]

/-- A condition is shown as a star, or as the names of its topics between braces. Each topic is named once, in
increasing order, and whichever way the topics are listed, these are their names in the order of a dictionary. -/
inductive Condition.ShownAs (c : Condition) : Text → Prop where
  /-- A wildcard. -/
  | star (h : c.isWildcard = true) : c.ShownAs (text "*")
  /-- Topics. -/
  | names (ts : List Topic) (h : c.isWildcard = false) (hne : ts ≠ []) (hmem : ∀ t, t ∈ ts ↔ t ∈ c.topics)
      (hincreasing : ts.Pairwise (· < ·))
      (hnames : ∀ (l : List Topic) (names : List Text), l.Nodup → (∀ t, t ∈ l ↔ t ∈ c.topics) →
        names.Perm (l.map Topic.hex) → (names.Pairwise fun a b => ¬ b < a) → names = ts.map Topic.hex) :
      c.ShownAs (text "\x7b" ++ Text.join (text ", ") (ts.map Topic.hex) ++ text "\x7d")

theorem Condition.shownAs_brief (c : Condition) : c.ShownAs c.brief := by
  unfold Condition.brief
  cases h : c.isWildcard with
  | true => exact .star h
  | false =>
    exact .names c.topics.toList h (Condition.toList_topics_ne_nil h) (fun _ => Iff.rfl) c.topics.sorted
      fun l names => TopicSet.hexList_unique

/-- Each position lists the topics of the condition there, in any order and with repetitions. -/
def Matcher.ListedBy (M : Matcher) (tss : List (List Topic)) : Prop :=
  List.Forall₂ (fun ts (c : Condition) => ∀ t, t ∈ ts ↔ t ∈ c.topics) tss M.conditions

/-- However its topics are listed, the matcher is the same. -/
theorem Matcher.ListedBy.ofLists_eq {M : Matcher} {tss : List (List Topic)} (h : M.ListedBy tss) : ofLists tss = M := by
  have hconditions : (tss.map fun ts => Condition.ofTopics (.ofList ts)) = M.conditions := by
    refine List.forall₂_eq_eq_eq ▸ List.forall₂_map_left_iff.mpr (h.imp fun ts c hts => ?_)
    have htopics : TopicSet.ofList ts = c.topics := TopicSet.ext fun t => TopicSet.mem_ofList.trans (hts t)
    rw [htopics, Condition.ofTopics_topics]
  exact Matcher.ext ((Matcher.conditions_ofLists tss).trans hconditions)

namespace Store

variable {s : Store} {m m₁ m₂ : Value} {M M₁ M₂ : Matcher}

theorem Holds.on_quoted (h : s.Holds m (M.conditions.map .condition)) : (Action.quoted m).on s = (.ok M.shown, s) := by
  rw [Action.quoted, Action.on_inquire, h.quoted]

/-- **Matchers are shown alike when they are equal.** The form of a matcher over conditions of the two kinds has a
piece for each condition, and the conditions can be read back from it; so two such matchers are shown alike just when
a comparison says that they are equal. It does not matter in which order, and how often, the topics are listed that a
matcher is compiled from, and neither does it for payloads with these topics. -/
theorem quoted_eq_iff_agrees (h₁ : s.Holds m₁ (M₁.conditions.map .condition))
    (h₂ : s.Holds m₂ (M₂.conditions.map .condition)) :
    ∃ shown₁ shown₂ b, (Action.quoted m₁).on s = (.ok shown₁, s) ∧ (Action.quoted m₂).on s = (.ok shown₂, s) ∧
      (Action.agrees m₁ m₂).on s = (.ok b, s) ∧ (shown₁ = shown₂ ↔ b = true) ∧ Matcher.ofShown shown₁ = M₁ ∧
      (∃ pieces, shown₁ = text "TopicMatcher([" ++ Text.join (text ", ") pieces ++ text "])" ∧
        List.Forall₂ Condition.ShownAs M₁.conditions pieces) ∧
      (∀ (s₀ : Store) p vs tss, s₀.Sequence p vs → List.Forall₂ s₀.Lists vs tss →
        (vs.Pairwise fun v w => s₀.IsIterator v → v ≠ w) → M₁.ListedBy tss →
        ∃ m s', (Action.compile p).on s₀ = (.ok m, s') ∧ (Action.quoted m).on s' = (.ok shown₁, s')) ∧
      ∀ (s₀ : Store) p d f own bss, s₀.DerivesBy d f own → (∀ b, 4 ≤ (f b).length) → s₀.HasPositions own p bss →
        M₁.ListedBy (bss.map (topicsBy f)) →
        ∃ m s', (Action.ofPayloads p d).on s₀ = (.ok m, s') ∧ (Action.quoted m).on s' = (.ok shown₁, s') := by
  have hshown : M₁.shown = M₂.shown ↔ M₁ = M₂ := by
    refine ⟨fun h => ?_, fun h => congrArg Matcher.shown h⟩
    rw [← Matcher.ofShown_shown M₁, h, Matcher.ofShown_shown]
  have hagrees : (Action.agrees m₁ m₂).on s = (.ok (decide (M₁ = M₂)), s) := by
    rw [Action.agrees, Action.on_inquire, h₁.agrees h₂]
  refine ⟨M₁.shown, M₂.shown, _, h₁.on_quoted, h₂.on_quoted, hagrees, hshown.trans decide_eq_true_iff.symm,
    Matcher.ofShown_shown M₁, ⟨M₁.conditions.map Condition.brief, rfl, ?_⟩, ?_, ?_⟩
  · exact List.forall₂_map_right_iff.mpr (List.forall₂_same.mpr fun c _ => c.shownAs_brief)
  · rintro s₀ p vs tss hp hvs hown hlisted
    obtain ⟨m, s', hm, hstands⟩ := exists_on_compile hp hvs hown
    rw [hlisted.ofLists_eq] at hstands
    exact ⟨m, s', hm, (MatcherOver.cells hstands).on_quoted⟩
  · rintro s₀ p d f own bss hd hwide hp hlisted
    obtain ⟨m, s', hm, hstands, _⟩ := exists_on_ofPayloads hd hwide hp
    rw [hlisted.ofLists_eq] at hstands
    exact ⟨m, s', hm, (MatcherOver.cells hstands).on_quoted⟩

/-- Two matchers, of which the second is compiled from the same topics in another order and with a repetition. -/
theorem quoted_eq_iff_agrees_reordered :
    let t : Topic := ⟨0xa9, 0x05, 0x9c, 0xbb⟩
    let u : Topic := ⟨0xde, 0xad, 0xbe, 0xef⟩
    let s₀ := holding [.items .set [.topic u, .topic t], .items .tuple [.topic t, .topic u, .topic u],
      .items .tuple [.none, .object 2], .items .tuple [.none, .object 3]]
    ∃ m₁ s₁ m₂ s, (Action.compile (.object 4)).on s₀ = (.ok m₁, s₁) ∧
      (Action.compile (.object 5)).on s₁ = (.ok m₂, s) ∧ (Action.agrees m₁ m₂).on s = (.ok true, s) ∧
      ∀ m, m = m₁ ∨ m = m₂ →
        (Action.quoted m).on s = (.ok (text "TopicMatcher([*, \x7ba9059cbb, deadbeef\x7d])"), s) := by
  intro t u s₀
  have hown : ∀ (s : Store) a, [Value.none, .object a].Pairwise fun v w => s.IsIterator v → v ≠ w := by
    simp
  have hvs : List.Forall₂ s₀.Lists [.none, .object 2] [[], [u, t]] :=
    .cons .absent (.cons (.items (cell?_holding _ 0)) .nil)
  have hp₀ : s₀.Sequence (.object 4) [.none, .object 2] := ⟨4, .tuple, rfl, .inr rfl, cell?_holding _ 2⟩
  obtain ⟨m₁, s₁, hm₁, hstands₁⟩ := exists_on_compile hp₀ hvs (hown s₀ 2)
  have hkeeps := (steady_compile (.object 4) s₀).1
  rw [hm₁] at hkeeps
  have hws : List.Forall₂ s₁.Lists [.none, .object 3] [[], [t, u, u]] :=
    .cons .absent (.cons (.items (hkeeps.cell (cell?_holding _ 1) rfl)) .nil)
  have hp : s₁.Sequence (.object 5) [.none, .object 3] :=
    ⟨5, .tuple, rfl, .inr rfl, hkeeps.cell (cell?_holding _ 3) rfl⟩
  obtain ⟨m₂, s, hm₂, hstands₂⟩ := exists_on_compile hp hws (hown s₁ 3)
  have hkeeps' := (steady_compile (.object 5) s₁).1
  rw [hm₂] at hkeeps'
  have hholds₁ := (MatcherOver.cells hstands₁).keep hkeeps'
  obtain ⟨shown₁, shown₂, b, hon₁, hon₂, hagrees, hiff, _, _, hcompile, _⟩ :=
    quoted_eq_iff_agrees hholds₁ (MatcherOver.cells hstands₂)
  have hlisted : (Matcher.ofLists [[], [u, t]]).ListedBy [[], [t, u, u]] := by
    rw [Matcher.ListedBy, Matcher.conditions_ofLists]
    simp [Condition.topics_ofTopics, or_comm]
  obtain ⟨m, s', hm, hquoted⟩ := hcompile s₁ _ _ _ hp hws (hown s₁ 3) hlisted
  obtain ⟨rfl, rfl⟩ : m₂ = m ∧ s = s' := by simpa using hm₂.symm.trans hm
  obtain rfl : shown₂ = shown₁ := by simpa using hon₂.symm.trans hquoted
  obtain rfl : shown₂ = text "TopicMatcher([*, \x7ba9059cbb, deadbeef\x7d])" := by
    have hform : (Matcher.ofLists [[], [u, t]]).shown = text "TopicMatcher([*, \x7ba9059cbb, deadbeef\x7d])" := by
      decide
    simpa [hform] using hon₁.symm.trans hholds₁.on_quoted
  refine ⟨m₁, s₁, m₂, s, hm₁, hm₂, hiff.mp rfl ▸ hagrees, ?_⟩
  rintro m (rfl | rfl)
  · exact hon₁
  · exact hon₂

end Store

end TopicFilter
