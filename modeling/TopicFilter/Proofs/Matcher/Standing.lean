import TopicFilter.Proofs.Store.Listing
import TopicFilter.Store.Conditions

/-!
# Proofs/Matcher/Standing — a matcher in a store, and what it answers

`s.MatcherOver m members` says that a value is a matcher over some conditions and as it was built. It lasts as long as
what is fixed is kept (`MatcherOver.keep`), and it decides every question about the matcher: `on_matchesTopics` and
`on_matchesValue` say what it answers to topics. `s.Stands m M` is the case that each condition has one of the two
kinds; there the answer is that of the `Matcher` (`Stands.on_matchesValue`).
-/

namespace TopicFilter

namespace Store

variable {s s' : Store} {m v q : Value} {members : List Value} {M : Matcher} {ts : List Topic}

/-! ## Conditions -/

/-- The value is a condition: of one of the two kinds, or under another label. -/
inductive IsCondition (s : Store) : Value → Prop where
  /-- A condition of a kind. -/
  | proper (c : Condition) : s.IsCondition (.condition c)
  /-- A condition under a label. -/
  | labelled {a : Address} {label : Value} {topics : TopicSet}
      (h : s.cell? a = some (.labelled label topics)) : s.IsCondition (.object a)

theorem isCondition_of_isSome (h : (s.conditionParts? v).isSome = true) : s.IsCondition v := by
  cases v with
  | condition c => exact .proper c
  | object a =>
    unfold conditionParts? at h
    split at h
    · next he => cases he
    · next hc _ => exact .labelled (show s.cell? a = _ from hc)
    · cases h
  | _ => cases h

theorem IsCondition.isSome_conditionParts? (h : s.IsCondition v) : (s.conditionParts? v).isSome = true := by
  cases h with
  | proper c => rfl
  | labelled h => simp [conditionParts?, cellOf?, h]

theorem isCondition_of_mem_map {cs : List Condition} (h : v ∈ cs.map .condition) : s.IsCondition v := by
  obtain ⟨c, _, rfl⟩ := List.mem_map.mp h
  exact .proper c

theorem on_isCondition (s : Store) (v : Value) :
    (Action.isCondition v).on s = (.ok (s.conditionParts? v).isSome, s) := rfl

/-- A condition stands for itself. -/
theorem IsCondition.on_conditionOf (h : s.IsCondition v) : (Action.conditionOf v).on s = (.ok v, s) := by
  rw [Action.conditionOf, Action.on_bind_ok (on_isCondition s v), if_pos h.isSome_conditionParts?]
  rfl

/-- Any other value stands for a new condition. -/
theorem on_conditionOf_of_not_isCondition (h : ¬ s.IsCondition v) :
    (Action.conditionOf v).on s = (Value.condition <$> Action.conditionOn v).on s := by
  rw [Action.conditionOf, Action.on_bind_ok (on_isCondition s v), if_neg fun hv => h (isCondition_of_isSome hv),
    map_eq_pure_bind]

/-- What a condition is, is fixed. -/
theorem IsCondition.keep (h : s.IsCondition v) (hs : s.Keeps s') : s'.IsCondition v := by
  cases h with
  | proper c => exact .proper c
  | labelled h => exact .labelled (hs.cell h rfl)

/-- What is a condition accepts a topic. -/
def admits (s : Store) (member : Value) (t : Topic) : Bool :=
  match member, s.cellOf? member with
  | .condition c, _ => c.accepts t
  | _, some (.labelled _ topics) => t ∈ topics
  | _, _ => false

/-- Each member accepts the topic across from it; whichever list is longer, its rest does not count. -/
def admitsAll (s : Store) : List Value → List Topic → Bool
  | member :: members, t :: ts => s.admits member t && admitsAll s members ts
  | _, _ => true

theorem IsCondition.admits_keep (h : s.IsCondition v) (hs : s.Keeps s') (t : Topic) :
    s'.admits v t = s.admits v t := by
  cases h with
  | proper c => rfl
  | labelled h => simp [admits, cellOf?, h, hs.cell h rfl]

theorem admitsAll_keep (h : ∀ v ∈ members, s.IsCondition v) (hs : s.Keeps s') :
    s'.admitsAll members ts = s.admitsAll members ts := by
  induction members generalizing ts with
  | nil => rfl
  | cons v members ih =>
    obtain ⟨hv, hmembers⟩ := List.forall_mem_cons.mp h
    cases ts with
    | nil => rfl
    | cons t ts => rw [admitsAll, admitsAll, hv.admits_keep hs, ih hmembers]

theorem admitsAll_conditions (s : Store) (cs : List Condition) (ts : List Topic) :
    s.admitsAll (cs.map .condition) ts = Matcher.acceptsAll cs ts := by
  induction cs generalizing ts with
  | nil => rfl
  | cons c cs ih =>
    cases ts with
    | nil => rfl
    | cons t ts => exact congrArg (c.accepts t && ·) (ih ts)

theorem IsCondition.on_memberAccepts (h : s.IsCondition v) (t : Topic) :
    (Action.memberAccepts v (.topic t)).on s = (.ok (s.admits v t), s) := by
  cases h with
  | proper c =>
    rw [Action.memberAccepts, Action.on_bind_ok (Action.on_inPlace rfl),
      Action.on_bind_ok (Action.on_cellOf? _ _)]
    cases hc : c.isWildcard <;> simp [Action.isAmong, admits, Condition.accepts, hc]
  | @labelled a label topics h =>
    have ha : s.assigned? (.object a) "accepts" = none := assigned?_of_attributeOwner? (by simp [h, attributeOwner?])
    rw [Action.memberAccepts, Action.on_bind_ok (Action.on_inPlace ha),
      Action.on_bind_ok (Action.on_cellOf? _ _)]
    simp [Action.isAmong, admits, cellOf?, h]

/-- What a value answers to a topic. -/
def acceptance (s : Store) (v : Value) (t : Topic) : Except Fault Bool := ((Action.memberAccepts v (.topic t)).on s).1

theorem IsCondition.acceptance (h : s.IsCondition v) (t : Topic) : s.acceptance v t = .ok (s.admits v t) := by
  rw [Store.acceptance, h.on_memberAccepts]

theorem on_acceptsAll (h : ∀ v ∈ members, s.IsCondition v) (ts : List Topic) :
    (Action.acceptsAll members (ts.map .topic)).on s = (.ok (s.admitsAll members ts), s) := by
  induction members generalizing ts with
  | nil => rfl
  | cons v members ih =>
    obtain ⟨hv, hmembers⟩ := List.forall_mem_cons.mp h
    cases ts with
    | nil => rfl
    | cons t ts =>
      rw [List.map_cons, Action.acceptsAll, Action.on_bind_ok (hv.on_memberAccepts t)]
      cases hvt : s.admits v t
      · simp [admitsAll, hvt]
      · simp [admitsAll, hvt, ih hmembers ts]

/-! ## Matchers -/

/-- The value is a matcher, and it holds some members: a cell holds the matcher, and another one the tuple of them. -/
def Holds (s : Store) (m : Value) (members : List Value) : Prop :=
  ∃ a t, m = .object a ∧ s.cell? a = some (.matcher (.object t)) ∧ s.cell? t = some (.items .tuple members)

theorem Holds.keep (h : s.Holds m members) (hs : s.Keeps s') : s'.Holds m members := by
  obtain ⟨a, t, rfl, ha, ht⟩ := h
  exact ⟨a, t, rfl, hs.cell ha rfl, hs.cell ht rfl⟩

namespace Holds

theorem on_conditionsOf (h : s.Holds m members) (need : String) :
    ∃ conditions, (Action.conditionsOf m need).on s = (.ok conditions, s) ∧ s.Sequence conditions members := by
  obtain ⟨a, t, rfl, ha, ht⟩ := h
  refine ⟨.object t, ?_, t, .tuple, rfl, .inr rfl, ht⟩
  rw [Action.conditionsOf, Action.on_bind_ok (Action.on_cellOf? _ _)]
  simp [cellOf?, ha]

/-- **What a matcher answers to topics**: there are enough, and each condition accepts its own. Only what was put in
the place of its function could answer instead. -/
theorem on_matchesTopics (h : s.Holds m members) (hplace : s.assigned? m "matches" = none)
    (hmembers : ∀ v ∈ members, s.IsCondition v) (ts : List Topic) :
    (Action.matchesTopics m ts).on s =
      (.ok (decide (members.length ≤ ts.length) && s.admitsAll members ts), s) := by
  obtain ⟨conditions, hconditions, hseq⟩ := h.on_conditionsOf "matches"
  have hitems : (Action.inquire (·.itemsOf conditions)).on s = (.ok members, s) := by
    rw [Action.on_inquire, hseq.itemsOf]
  rw [Action.matchesTopics, Action.on_bind_ok (Action.on_inPlace hplace),
    Action.on_bind_ok hconditions, Action.on_bind_ok hseq.on_length, Action.on_ite, Action.on_bind_ok hitems,
    on_acceptsAll hmembers]
  by_cases hlen : ts.length < members.length
  · simp [hlen, Nat.not_le.mpr hlen]
  · simp [hlen, Nat.not_lt.mp hlen]

/-- …and so it does when the topics stand in a list or a tuple. -/
theorem on_matchesValue (h : s.Holds m members) (hplace : s.assigned? m "matches" = none)
    (hmembers : ∀ v ∈ members, s.IsCondition v) (hq : s.Sequence q (ts.map .topic)) :
    (Action.matchesValue m q).on s =
      (.ok (decide (members.length ≤ ts.length) && s.admitsAll members ts), s) := by
  obtain ⟨conditions, hconditions, hseq⟩ := h.on_conditionsOf "matches"
  have hitems : (Action.inquire (·.itemsOf conditions)).on s = (.ok members, s) := by
    rw [Action.on_inquire, hseq.itemsOf]
  have htopics : (Action.inquire (·.itemsOf q)).on s = (.ok (ts.map .topic), s) := by
    rw [Action.on_inquire, hq.itemsOf]
  have hsame : (Action.matchesValue m q).on s = (Action.matchesTopics m ts).on s := by
    rw [Action.matchesValue, Action.matchesTopics]
    simp only [Action.on_bind_ok (Action.on_inPlace hplace), Action.on_bind_ok hconditions,
      Action.on_bind_ok hseq.on_length, Action.on_bind_ok hq.on_length, List.length_map, Action.on_ite,
      Action.on_bind_ok hitems, Action.on_bind_ok htopics]
  rw [hsame, h.on_matchesTopics hplace hmembers]

end Holds

/-- What a value answers to a new list of topics. -/
def answer (s : Store) (m : Value) (ts : List Topic) : Except Fault Bool :=
  ((Action.collect .list (ts.map .topic) >>= Action.matchesValue m).on s).1

theorem sequence_addCell_list (items : List Value) :
    (s.addCell (.items .list items)).Sequence (.object s.cells.length) items :=
  ⟨_, .list, rfl, .inl rfl, cell?_addCell_self⟩

theorem Holds.answer (h : s.Holds m members) (hplace : s.assigned? m "matches" = none)
    (hmembers : ∀ v ∈ members, s.IsCondition v) (ts : List Topic) :
    s.answer m ts = .ok (decide (members.length ≤ ts.length) && s.admitsAll members ts) := by
  have hkeep : s.Keeps (s.addCell (.items .list (ts.map .topic))) := .addCell
  have hplace' : (s.addCell (.items .list (ts.map .topic))).assigned? m "matches" = none := by
    obtain ⟨a, t, rfl, ha, _⟩ := h
    rw [hkeep.assigned _ ha, hplace]
  rw [Store.answer, Action.on_bind_ok (Action.on_collect _ _ _),
    (h.keep hkeep).on_matchesValue hplace' (fun v hv => (hmembers v hv).keep hkeep) (sequence_addCell_list _),
    admitsAll_keep hmembers hkeep]

/-- The value is a matcher over some conditions, and as it was built. -/
structure MatcherOver (s : Store) (m : Value) (members : List Value) : Prop where
  /-- It holds them. -/
  cells : s.Holds m members
  /-- Nothing was assigned to it. -/
  assigned : ∀ name, s.assigned? m name = none
  /-- Its members are conditions. -/
  conditions : ∀ v ∈ members, s.IsCondition v

namespace MatcherOver

theorem keep (h : s.MatcherOver m members) (hs : s.Keeps s') : s'.MatcherOver m members := by
  obtain ⟨hholds, hassigned, hmembers⟩ := h
  refine ⟨hholds.keep hs, fun name => ?_, fun v hv => (hmembers v hv).keep hs⟩
  obtain ⟨a, t, rfl, ha, _⟩ := hholds
  rw [hs.assigned name ha, hassigned]

theorem on_matchesTopics (h : s.MatcherOver m members) (ts : List Topic) :
    (Action.matchesTopics m ts).on s =
      (.ok (decide (members.length ≤ ts.length) && s.admitsAll members ts), s) :=
  h.cells.on_matchesTopics (h.assigned _) h.conditions ts

theorem on_matchesValue (h : s.MatcherOver m members) (hq : s.Sequence q (ts.map .topic)) :
    (Action.matchesValue m q).on s =
      (.ok (decide (members.length ≤ ts.length) && s.admitsAll members ts), s) :=
  h.cells.on_matchesValue (h.assigned _) h.conditions hq

theorem answer (h : s.MatcherOver m members) (ts : List Topic) :
    s.answer m ts = .ok (decide (members.length ≤ ts.length) && s.admitsAll members ts) :=
  h.cells.answer (h.assigned _) h.conditions ts

end MatcherOver

/-- The value is a matcher over the conditions of a `Matcher`, each of one of the two kinds. -/
def Stands (s : Store) (m : Value) (M : Matcher) : Prop := s.MatcherOver m (M.conditions.map .condition)

namespace Stands

theorem on_matchesValue (h : s.Stands m M) (hq : s.Sequence q (ts.map .topic)) :
    (Action.matchesValue m q).on s = (.ok (M.accepts ts), s) := by
  rw [MatcherOver.on_matchesValue h hq, admitsAll_conditions, List.length_map, Matcher.accepts]

theorem answer (h : s.Stands m M) (ts : List Topic) : s.answer m ts = .ok (M.accepts ts) := by
  rw [MatcherOver.answer h, admitsAll_conditions, List.length_map, Matcher.accepts]

end Stands

/-! ## Matchers as text -/

theorem exists_allOf {α β : Type} {f : α → Except Fault β} {as : List α} (h : ∀ a ∈ as, ∃ b, f a = .ok b) :
    ∃ bs, allOf f as = .ok bs := by
  induction as with
  | nil => exact ⟨[], rfl⟩
  | cons a as ih =>
    obtain ⟨⟨b, hb⟩, has⟩ := List.forall_mem_cons.mp h
    obtain ⟨bs, hbs⟩ := ih has
    exact ⟨b :: bs, by rw [allOf, hb, hbs]; rfl⟩

theorem allOf_map {α β γ : Type} {f : α → Except Fault β} {g : γ → α} {k : γ → β} {cs : List γ}
    (h : ∀ c, f (g c) = .ok (k c)) : allOf f (cs.map g) = .ok (cs.map k) := by
  induction cs with
  | nil => rfl
  | cons c cs ih =>
    rw [List.map_cons, allOf, h, ih]
    rfl

theorem IsCondition.exists_brief (h : s.IsCondition v) : ∃ t, s.brief v = .ok t := by
  cases h with
  | proper c => exact ⟨c.brief, rfl⟩
  | @labelled a label topics h => exact ⟨topics.brief, by simp [brief, cellOf?, h]⟩

/-- How a condition is shown in a matcher is fixed. -/
theorem IsCondition.brief_keep (h : s.IsCondition v) (hs : s.Keeps s') : s'.brief v = s.brief v := by
  cases h with
  | proper c => rfl
  | labelled h => simp [brief, cellOf?, h, hs.cell h rfl]

theorem allOf_congr {α β : Type} {f g : α → Except Fault β} {as : List α} (h : ∀ a ∈ as, f a = g a) :
    allOf f as = allOf g as := by
  induction as with
  | nil => rfl
  | cons a as ih =>
    obtain ⟨ha, has⟩ := List.forall_mem_cons.mp h
    rw [allOf, allOf, ha, ih has]

/-- A matcher shows its members one after another. -/
theorem Holds.quoted_eq (h : s.Holds m members) :
    s.quoted m = (allOf s.brief members).map Matcher.shownConditions := by
  obtain ⟨a, t, rfl, ha, ht⟩ := h
  rw [Store.quoted, depth, quotedWithin, ha]
  simp only [List.contains_nil, Bool.false_eq_true, if_false, shownMatcher, itemsOf, items?_object ht]
  rfl

/-- A matcher over conditions can be shown. -/
theorem MatcherOver.exists_quoted (h : s.MatcherOver m members) : ∃ shown, s.quoted m = .ok shown := by
  obtain ⟨texts, htexts⟩ := exists_allOf fun v hv => (h.conditions v hv).exists_brief
  exact ⟨Matcher.shownConditions texts, by rw [h.cells.quoted_eq, htexts]; rfl⟩

/-- …and it is always shown as it is now. -/
theorem MatcherOver.quoted_keep (h : s.MatcherOver m members) (hs : s.Keeps s') : s'.quoted m = s.quoted m := by
  rw [h.cells.quoted_eq, (h.cells.keep hs).quoted_eq, allOf_congr fun v hv => (h.conditions v hv).brief_keep hs]

/-- **The form of a matcher** shows its conditions. -/
theorem Holds.quoted (h : s.Holds m (M.conditions.map .condition)) : s.quoted m = .ok M.shown := by
  have hbriefs : allOf s.brief (M.conditions.map .condition) = .ok (M.conditions.map Condition.brief) :=
    allOf_map fun _ => rfl
  rw [h.quoted_eq, hbriefs]
  rfl

end Store

end TopicFilter
