import Mathlib.Order.Bounds.Basic
import Mathlib.Tactic.Choose
import TopicFilter.Proofs.Matcher.Positions

/-!
# Proofs/Matcher/Abstraction — matchers are equal when they answer alike

A condition is **selective** if some topic is not listed in it. Selective conditions are told apart by the topics that
they accept (`Condition.ext_accepts`), and so are the matchers over them (`Matcher.ext_accepts`): a list that one of
them accepts is changed at a single position until the other refuses it. The shortest such list is as long as the
matcher (`Matcher.isLeast_length`).

`agrees_iff_answers` carries this over to matchers that were built.
-/

namespace TopicFilter

/-! ## Conditions told apart -/

namespace TopicSet

theorem exists_mem {s : TopicSet} (h : s ≠ ∅) : ∃ t, t ∈ s := by
  by_contra hne
  refine h (TopicSet.ext fun t => ?_)
  exact ⟨fun ht => absurd ⟨t, ht⟩ hne, fun ht => absurd ht (not_mem_empty t)⟩

end TopicSet

namespace Condition

variable {c d : Condition}

theorem mem_topics_ofTopics {s : TopicSet} {t : Topic} : t ∈ (ofTopics s).topics ↔ t ∈ s := by
  rw [topics_ofTopics]

/-- Some topic is not listed. -/
def Selective (c : Condition) : Prop := ∃ t, t ∉ c.topics

theorem accepts_of_isWildcard (h : c.isWildcard = true) (t : Topic) : c.accepts t = true := by
  rw [accepts, h, Bool.true_or]

theorem accepts_iff_mem (h : c.isWildcard = false) (t : Topic) : c.accepts t = true ↔ t ∈ c.topics := by
  rw [accepts, h, Bool.false_or, decide_eq_true_iff]

/-- **Every condition accepts something.** -/
theorem exists_accepts (c : Condition) : ∃ t, c.accepts t = true := by
  cases hw : c.isWildcard
  · have hkind : c.kind = .exact := by
      cases hk : c.kind
      · simp [isWildcard, hk] at hw
      · rfl
    obtain ⟨t, ht⟩ := TopicSet.exists_mem (c.topics_of_exact hkind)
    exact ⟨t, (accepts_iff_mem hw t).mpr ht⟩
  · exact ⟨.sentinel, accepts_of_isWildcard hw _⟩

/-- A selective condition that accepts everything is a wildcard. -/
theorem Selective.isWildcard_iff (h : c.Selective) : c.isWildcard = true ↔ ∀ t, c.accepts t = true := by
  refine ⟨accepts_of_isWildcard, fun hall => ?_⟩
  obtain ⟨t, ht⟩ := h
  by_contra hw
  exact ht ((accepts_iff_mem (Bool.eq_false_iff.mpr hw) t).mp (hall t))

theorem kind_eq_of_isWildcard_eq (h : c.isWildcard = d.isWildcard) : c.kind = d.kind := by
  rw [isWildcard, isWildcard, decide_eq_decide] at h
  cases hc : c.kind <;> cases hd : d.kind <;> simp_all

/-- **Selective conditions are equal when they accept the same topics.** -/
theorem ext_accepts (hc : c.Selective) (hd : d.Selective) (h : ∀ t, c.accepts t = d.accepts t) : c = d := by
  have hw : c.isWildcard = d.isWildcard := by
    rw [Bool.eq_iff_iff, hc.isWildcard_iff, hd.isWildcard_iff]
    exact forall_congr' fun t => by rw [h t]
  have hkind := kind_eq_of_isWildcard_eq hw
  refine Condition.ext hkind ?_
  cases hcw : c.isWildcard
  · ext t
    rw [← accepts_iff_mem hcw, ← accepts_iff_mem (hw ▸ hcw), h t]
  · have hck : c.kind = .wildcard := of_decide_eq_true hcw
    rw [c.topics_of_wildcard hck, d.topics_of_wildcard (hkind ▸ hck)]

end Condition

/-! ## Matchers told apart -/

namespace Matcher

variable {m n : Matcher} {ts : List Topic}

/-- No position lists all topics. -/
def Selective (m : Matcher) : Prop := ∀ c ∈ m.conditions, c.Selective

theorem length_le_of_accepts (h : m.accepts ts = true) : m.conditions.length ≤ ts.length := (accepts_iff.mp h).1

theorem exists_accepts (m : Matcher) : ∃ ts, ts.length = m.conditions.length ∧ m.accepts ts = true := by
  choose sample hsample using Condition.exists_accepts
  refine ⟨m.conditions.map sample, List.length_map _, accepts_iff.mpr ⟨by simp, fun i hc ht => ?_⟩⟩
  rw [List.getElem_map]
  exact hsample _

/-- **A matcher is as long as the shortest list that it accepts**, and so it accepts something. -/
theorem isLeast_length (m : Matcher) :
    IsLeast {k | ∃ ts, ts.length = k ∧ m.accepts ts = true} m.conditions.length := by
  refine ⟨m.exists_accepts, ?_⟩
  rintro _ ⟨ts, rfl, hts⟩
  exact length_le_of_accepts hts

/-- Whether an accepted list is still accepted with another topic at a position is up to the condition there. -/
theorem accepts_set_iff (h : m.accepts ts = true) {i : Nat} (hi : i < m.conditions.length) (t : Topic) :
    m.accepts (ts.set i t) = true ↔ m.conditions[i].accepts t = true := by
  obtain ⟨hlen, hall⟩ := accepts_iff.mp h
  have hts : i < ts.length := Nat.lt_of_lt_of_le hi hlen
  rw [accepts_iff]
  constructor
  · rintro ⟨_, hset⟩
    have hat := hset i hi (by rwa [List.length_set])
    rwa [List.getElem_set_self] at hat
  · intro ht
    refine ⟨by rwa [List.length_set], fun j hj hj' => ?_⟩
    by_cases hij : i = j
    · subst hij
      rwa [List.getElem_set_self]
    · rw [List.getElem_set_ne hij]
      exact hall j hj _

/-- **Selective matchers are equal when they accept the same lists.** -/
theorem ext_accepts (hm : m.Selective) (hn : n.Selective) (h : ∀ ts, m.accepts ts = n.accepts ts) : m = n := by
  have hlen : m.conditions.length = n.conditions.length := by
    have hset := m.isLeast_length
    simp only [h] at hset
    exact hset.unique n.isLeast_length
  obtain ⟨ts, _, hts⟩ := m.exists_accepts
  have hconditions : m.conditions = n.conditions := by
    refine List.ext_getElem hlen fun i hi hi' => ?_
    refine Condition.ext_accepts (hm _ (List.getElem_mem hi)) (hn _ (List.getElem_mem hi')) fun t => ?_
    rw [Bool.eq_iff_iff, ← accepts_set_iff hts hi, ← accepts_set_iff (h ts ▸ hts) hi', h]
  cases m
  cases n
  exact congrArg Matcher.mk hconditions

/-- **A selective matcher is a wildcard throughout when it accepts whatever is long enough.** -/
theorem isWildcard_iff (hm : m.Selective) :
    m.isWildcard = true ↔ ∀ ts : List Topic, m.conditions.length ≤ ts.length → m.accepts ts = true := by
  rw [isWildcard, List.all_eq_true]
  constructor
  · intro hw ts hlen
    refine accepts_iff.mpr ⟨hlen, fun i hi _ => ?_⟩
    exact Condition.accepts_of_isWildcard (hw _ (List.getElem_mem hi)) _
  · intro hall c hc
    obtain ⟨i, hi, rfl⟩ := List.getElem_of_mem hc
    obtain ⟨ts, hlen, hts⟩ := m.exists_accepts
    refine (hm _ hc).isWildcard_iff.mpr fun t => ?_
    exact (accepts_set_iff hts hi t).mp (hall _ (by rw [List.length_set, hlen]))

end Matcher

namespace Store

variable {s : Store} {m₁ m₂ m : Value} {M₁ M₂ M : Matcher} {members : List Value}

/-! ## Matchers compared in a store -/

/-- Conditions are compared by kind and by topics. -/
theorem agreesWithin_conditions (fuel : Nat) (c d : Condition) :
    s.agreesWithin (fuel + 2) (.condition c) (.condition d) = .ok (decide (c = d)) := by
  have hext : c = d ↔ c.kind = d.kind ∧ c.topics = d.topics :=
    ⟨fun h => h ▸ ⟨rfl, rfl⟩, fun h => Condition.ext h.1 h.2⟩
  by_cases hk : c.kind = d.kind <;>
    simp [Store.agreesWithin, agreesBy, stranger?, bytes?, cellOf?, conditionParts?, hk, hext, bind, Except.bind, pure,
      Except.pure]

theorem agreeAll_conditions {agree : Comparison}
    (h : ∀ c d, agree (.condition c) (.condition d) = .ok (decide (c = d))) (cs ds : List Condition) :
    agreeAll agree (cs.map .condition) (ds.map .condition) = .ok (decide (cs = ds)) := by
  induction cs generalizing ds with
  | nil => cases ds <;> rfl
  | cons c cs ih =>
    cases ds with
    | nil => rfl
    | cons d ds =>
      rw [List.map_cons, List.map_cons, agreeAll, h, ih]
      by_cases hcd : c = d <;> simp [hcd, bind, Except.bind, pure, Except.pure]

/-- A store with a matcher in it has more than two cells to follow. -/
theorem Holds.two_lt_depth (h : s.Holds m members) : 2 < s.depth := by
  obtain ⟨a, t, rfl, ha, ht⟩ := h
  have hne : a ≠ t := by
    rintro rfl
    cases ha.symm.trans ht
  have halt := lt_length_of_cell? ha
  have htlt := lt_length_of_cell? ht
  rcases Nat.lt_or_gt_of_ne hne with hlt | hlt
  · exact Nat.succ_lt_succ (Nat.lt_of_le_of_lt (Nat.succ_le_of_lt (Nat.zero_lt_of_lt hlt)) htlt)
  · exact Nat.succ_lt_succ (Nat.lt_of_le_of_lt (Nat.succ_le_of_lt (Nat.zero_lt_of_lt hlt)) halt)

theorem agreesWithin_matchers {a b : Address} {v w : Value} (ha : s.cell? a = some (.matcher v))
    (hb : s.cell? b = some (.matcher w)) (fuel : Nat) :
    s.agreesWithin (fuel + 1) (.object a) (.object b) = s.agreesWithin fuel v w := by
  rw [agreesWithin, agreesBy]
  simp [stranger?, bytes?, cellOf?, conditionParts?, ha, hb]

/-- One tuple agrees with itself, and others are compared item by item. -/
theorem agreesWithin_tuples {a b : Address} {vs ws : List Value} (ha : s.cell? a = some (.items .tuple vs))
    (hb : s.cell? b = some (.items .tuple ws)) (fuel : Nat) :
    s.agreesWithin (fuel + 1) (.object a) (.object b) =
      if a = b then .ok true
      else agreeAll (fun v w => if v = w then .ok true else s.agreesWithin fuel v w) vs ws := by
  rw [agreesWithin, agreesBy]
  simp [stranger?, bytes?, cellOf?, conditionParts?, ha, hb, agreeCells]

/-- Tuples of conditions are compared as lists. -/
theorem agreesWithin_conditionTuples {a b : Address} {cs ds : List Condition}
    (ha : s.cell? a = some (.items .tuple (cs.map .condition)))
    (hb : s.cell? b = some (.items .tuple (ds.map .condition))) (fuel : Nat) :
    s.agreesWithin (fuel + 3) (.object a) (.object b) = .ok (decide (cs = ds)) := by
  rw [agreesWithin_tuples ha hb]
  by_cases hab : a = b
  · subst hab
    have hcs : cs = ds := by
      have hmap : cs.map Value.condition = ds.map .condition := by simpa using ha.symm.trans hb
      exact (List.map_inj_right fun _ _ => Value.condition.inj).mp hmap
    rw [if_pos rfl, decide_eq_true hcs]
  · rw [if_neg hab]
    refine agreeAll_conditions (fun c d => ?_) cs ds
    rw [agreesWithin_conditions]
    by_cases hcd : c = d
    · rw [if_pos (congrArg _ hcd), decide_eq_true hcd]
    · rw [if_neg fun h => hcd (Value.condition.inj h)]

/-- **Matchers are compared by their conditions.** -/
theorem Holds.agrees (h₁ : s.Holds m₁ (M₁.conditions.map .condition)) (h₂ : s.Holds m₂ (M₂.conditions.map .condition)) :
    s.agrees m₁ m₂ = .ok (decide (M₁ = M₂)) := by
  have hdepth := h₁.two_lt_depth
  have hfuel : 4 ≤ s.depth * s.depth := Nat.le_trans (by decide) (Nat.mul_le_mul hdepth.le hdepth.le)
  obtain ⟨a, t, rfl, ha, ht⟩ := h₁
  obtain ⟨b, u, rfl, hb, hu⟩ := h₂
  rw [Store.agrees, ← Nat.sub_add_cancel hfuel, agreesWithin_matchers ha hb, agreesWithin_conditionTuples ht hu]
  exact congrArg Except.ok (decide_eq_decide.mpr Matcher.ext_iff.symm)

namespace Stands

theorem on_length (h : s.Stands m M) : (Action.length m).on s = (.ok M.conditions.length, s) := by
  obtain ⟨fuel, hfuel⟩ := Nat.exists_eq_add_of_lt (MatcherOver.cells h).two_lt_depth
  obtain ⟨a, t, rfl, ha, ht⟩ := MatcherOver.cells h
  have hconditions : s.Sequence (.object t) (M.conditions.map .condition) := ⟨t, .tuple, rfl, .inr rfl, ht⟩
  rw [Action.length, Action.on_bind_ok (Action.on_get s), Action.on_inquire, hfuel, lengthWithin]
  simp only [cellOf?, ha]
  rw [Nat.add_comm 2, hconditions.lengthWithin, List.length_map]

/-- **A matcher is a wildcard if all its conditions are.** -/
theorem isWildcard (h : s.Stands m M) : s.isWildcard m = .ok M.isWildcard := by
  obtain ⟨fuel, hfuel⟩ := Nat.exists_eq_add_of_lt (MatcherOver.cells h).two_lt_depth
  have hassigned := MatcherOver.assigned h "is_wildcard"
  obtain ⟨a, t, rfl, ha, ht⟩ := MatcherOver.cells h
  have hconditions : ∀ cs : List Condition,
      allPass (s.isWildcardWithin (fuel + 2)) (cs.map .condition) = .ok (cs.all Condition.isWildcard) := by
    intro cs
    induction cs with
    | nil => rfl
    | cons c cs ih =>
      have hc : s.isWildcardWithin (fuel + 2) (.condition c) = .ok c.isWildcard := rfl
      rw [List.map_cons, allPass, hc, ih, List.all_cons]
      cases c.isWildcard <;> rfl
  rw [Store.isWildcard, hfuel, Nat.add_comm 2]
  simp only [isWildcardWithin, hassigned, cellOf?, ha, itemsOf, items?_object ht]
  exact hconditions M.conditions

end Stands

/-! ## Matchers that were built -/

/-- The value is a matcher that was built, over conditions of the two kinds of which none lists all topics. -/
def IsSelective (s : Store) (m : Value) : Prop :=
  s.Built m ∧ ∃ M : Matcher, s.Holds m (M.conditions.map .condition) ∧ M.Selective

theorem IsSelective.keep {s' : Store} (h : s.IsSelective m) (hs : s.Keeps s') : s'.IsSelective m := by
  obtain ⟨hbuilt, M, hholds, hsel⟩ := h
  exact ⟨hbuilt.keep hs, M, hholds.keep hs, hsel⟩

/-- What is compiled from positions that do not list all topics is selective. -/
theorem exists_isSelective {p : Value} {vs : List Value} {tss : List (List Topic)} (hp : s.Sequence p vs)
    (hvs : List.Forall₂ s.Lists vs tss) (hown : vs.Pairwise fun v w => s.IsIterator v → v ≠ w)
    (hsel : ∀ ts ∈ tss, ∃ t, t ∉ ts) :
    ∃ m s', (Action.compile p).on s = (.ok m, s') ∧ s.Keeps s' ∧ s'.IsSelective m := by
  obtain ⟨m, s', hon, hstands⟩ := exists_on_compile hp hvs hown
  have hkeeps := (steady_compile p s).1
  rw [hon] at hkeeps
  refine ⟨m, s', hon, hkeeps, ⟨s, s', _, .inl ⟨p, rfl⟩, hon, .refl s'⟩, .ofLists tss, hstands.cells, fun c hc => ?_⟩
  obtain ⟨ts, hts, rfl⟩ := List.mem_map.mp (Matcher.conditions_ofLists tss ▸ hc)
  obtain ⟨t, ht⟩ := hsel ts hts
  exact ⟨t, fun hmem => ht (TopicSet.mem_ofList.mp (Condition.mem_topics_ofTopics.mp hmem))⟩

/-- **Matchers are equal when they answer alike.** Of two selective matchers that were built, a comparison tells
whether they give the same answer to every list of topics; the length of one is that of the shortest list that it
accepts, and it is a wildcard throughout when it accepts whatever is no shorter. -/
theorem agrees_iff_answers (h₁ : s.IsSelective m₁) (h₂ : s.IsSelective m₂) :
    (∃ b, (Action.agrees m₁ m₂).on s = (.ok b, s) ∧
      (b = true ↔ ∀ ts, s.answer m₁ ts = s.answer m₂ ts)) ∧
    ∃ n, (Action.length m₁).on s = (.ok n, s) ∧
      IsLeast {k | ∃ ts, ts.length = k ∧ s.answer m₁ ts = .ok true} n ∧
      ∃ w, s.isWildcard m₁ = .ok w ∧
        (w = true ↔ ∀ ts : List Topic, n ≤ ts.length → s.answer m₁ ts = .ok true) := by
  obtain ⟨hbuilt₁, M₁, hholds₁, hsel₁⟩ := h₁
  obtain ⟨hbuilt₂, M₂, hholds₂, hsel₂⟩ := h₂
  have hm₁ : s.Stands m₁ M₁ := hbuilt₁.stands hholds₁
  have hm₂ : s.Stands m₂ M₂ := hbuilt₂.stands hholds₂
  have haccepts : ∀ ts, s.answer m₁ ts = .ok true ↔ M₁.accepts ts = true := fun ts => by
    rw [hm₁.answer, Except.ok.injEq]
  refine ⟨⟨decide (M₁ = M₂), ?_, ?_⟩, M₁.conditions.length, hm₁.on_length, ?_, M₁.isWildcard, hm₁.isWildcard, ?_⟩
  · rw [Action.agrees, Action.on_inquire, hholds₁.agrees hholds₂]
  · simp only [hm₁.answer, hm₂.answer, Except.ok.injEq, decide_eq_true_iff]
    exact ⟨fun h ts => h ▸ rfl, Matcher.ext_accepts hsel₁ hsel₂⟩
  · simp only [haccepts]
    exact M₁.isLeast_length
  · simp only [haccepts]
    exact Matcher.isWildcard_iff hsel₁

/-- Two matchers built one after the other, the second from the same topics in another order and with a repetition. -/
theorem agrees_iff_answers_reordered :
    let t : Topic := ⟨0xa9, 0x05, 0x9c, 0xbb⟩
    let u : Topic := ⟨0xde, 0xad, 0xbe, 0xef⟩
    let s₀ := holding [.items .tuple [.topic u, .topic t], .items .tuple [.topic t, .topic u, .topic u],
      .items .tuple [.none, .object 2], .items .tuple [.none, .object 3]]
    ∃ m₁ s₁ m₂ s, (Action.compile (.object 4)).on s₀ = (.ok m₁, s₁) ∧
      (Action.compile (.object 5)).on s₁ = (.ok m₂, s) ∧ s.IsSelective m₁ ∧ s.IsSelective m₂ ∧
      (∃ b, (Action.agrees m₁ m₂).on s = (.ok b, s) ∧
        (b = true ↔ ∀ ts, s.answer m₁ ts = s.answer m₂ ts)) ∧
      ∃ n, (Action.length m₁).on s = (.ok n, s) ∧
        IsLeast {k | ∃ ts, ts.length = k ∧ s.answer m₁ ts = .ok true} n ∧
        ∃ w, s.isWildcard m₁ = .ok w ∧
          (w = true ↔ ∀ ts : List Topic, n ≤ ts.length → s.answer m₁ ts = .ok true) := by
  intro t u s₀
  have hown : ∀ (s : Store) a, [Value.none, .object a].Pairwise fun v w => s.IsIterator v → v ≠ w := by
    simp
  have hother₁ : ∀ ts ∈ [[], [u, t]], Topic.sentinel ∉ ts := by decide
  have hother₂ : ∀ ts ∈ [[], [t, u, u]], Topic.sentinel ∉ ts := by decide
  have hvs : List.Forall₂ s₀.Lists [.none, .object 2] [[], [u, t]] := .cons .absent (.cons (.items rfl) .nil)
  obtain ⟨m₁, s₁, hm₁, hkeeps, hsel₁⟩ :=
    exists_isSelective (p := .object 4) ⟨4, .tuple, rfl, .inr rfl, rfl⟩ hvs (hown s₀ 2)
      fun ts hts => ⟨_, hother₁ ts hts⟩
  have hws : List.Forall₂ s₁.Lists [.none, .object 3] [[], [t, u, u]] :=
    .cons .absent (.cons (.items (hkeeps.cell rfl rfl)) .nil)
  obtain ⟨m₂, s, hm₂, hkeeps', hsel₂⟩ :=
    exists_isSelective (p := .object 5) ⟨5, .tuple, rfl, .inr rfl, hkeeps.cell rfl rfl⟩ hws (hown s₁ 3)
      fun ts hts => ⟨_, hother₂ ts hts⟩
  have hsel₁' := hsel₁.keep hkeeps'
  exact ⟨m₁, s₁, m₂, s, hm₁, hm₂, hsel₁', hsel₂, agrees_iff_answers hsel₁' hsel₂⟩

end Store

end TopicFilter
