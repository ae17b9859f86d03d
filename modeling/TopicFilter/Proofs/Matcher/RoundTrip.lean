import TopicFilter.Proofs.Matcher.Refusing
import TopicFilter.Proofs.Matcher.Labels
import TopicFilter.Store.Literal

/-!
# Proofs/Matcher/RoundTrip — nothing is lost in the topics of a condition

`c.IsOn ts` says that a condition holds some topics and no others, and is a wildcard if there are none. Whichever way a
condition of a kind comes about, it is the condition on what it was made from: the items of a value that are all topics
(`of_on_condition_kind`, `of_on_conditionOf`), topics one by one (`of_on_exactCondition`), or the topics of payloads
(`of_on_conditionOfPayloads`).

So its topics say all there is to say about it. `s.Restates v c` says that a value at a position lists the topics of a
condition, as the condition does itself and any frozen set of its topics. Positions that restate what a matcher holds
are compiled to a matcher that equals it (`Holds.exists_on_compile`), and `conditions_round_trip` puts this together.
-/

namespace TopicFilter

/-- The condition is the one on some topics: it holds these, and is a wildcard if there are none. -/
structure Condition.IsOn (c : Condition) (ts : List Topic) : Prop where
  /-- It holds the topics and no others. -/
  topics : c.topics = .ofList ts
  /-- It is a wildcard if there are none. -/
  isWildcard_iff : c.isWildcard = true ↔ ts = []

theorem Condition.isOn_iff {c : Condition} {ts : List Topic} : c.IsOn ts ↔ c.topics = .ofList ts := by
  refine ⟨fun h => h.topics, fun h => ⟨h, ?_⟩⟩
  rw [isWildcard_iff_topics, h, TopicSet.ofList_eq_empty_iff]

theorem Condition.isOn_ofTopics (ts : List Topic) : (ofTopics (.ofList ts)).IsOn ts :=
  isOn_iff.mpr (topics_ofTopics _)

theorem Condition.isOn_any : any.IsOn [] := isOn_iff.mpr rfl

/-- Every condition is the one on the topics that it holds. -/
theorem Condition.isOn_toList (c : Condition) : c.IsOn c.topics.toList := isOn_iff.mpr (TopicSet.ofList_toList _).symm

namespace Action

variable {α : Type} {f : Value → Action α} {s s' s₁ : Store} {v : Value} {it : Option Address} {back vs : List Value}
  {rs : List α} {src : Source}

/-! ## What comes of each item -/

/-- The items that there are to look at. -/
def Source.items : Source → List Value
  | .lasting items => items
  | .draining _ items => items

/-- The iterator that they are taken from. -/
def Source.iterator? : Source → Option Address
  | .lasting _ => none
  | .draining a _ => some a

theorem on_forEach_of_source (f : Value → Action α) (h : (source v).on s = (.ok src, s₁)) :
    (forEach v f).on s = (takeEach f src.iterator? src.items).on s₁ := by
  rw [forEach, on_bind_ok h]
  cases src with
  | lasting items => exact on_eachOf_eq_takeEach f items s₁
  | draining a items => exact congrArg (·.on s₁) (drain_eq_takeEach a f items)

/-- Each result of taking some items is what the computation comes to on its item, in a store that has kept what is
fixed. -/
theorem forall₂_of_passes (hf : ∀ v, (f v).Steady)
    (hit : ∀ a, it = some a → ∃ c, s.cell? a = some c ∧
      Store.cellClassName (.items .iterator []) = Store.cellClassName c)
    (h : Passes f it back s vs rs s') :
    List.Forall₂ (fun v r => ∃ s₁ s₂, s.Keeps s₁ ∧ (f v).on s₁ = (.ok r, s₂)) vs rs := by
  induction h with
  | nil => exact .nil
  | @cons s s₁ s₂ v r front rs hv _ ih =>
    have htaken : s.Keeps (s.left it (front ++ back)) := by
      cases it with
      | none => exact .refl s
      | some a =>
        obtain ⟨c, ha, hc⟩ := hit a rfl
        exact .setCell ha (Store.isMutable_congr hc).symm hc
    have hpassed : (s.left it (front ++ back)).Keeps s₁ := by
      simpa only [hv] using (hf v (s.left it (front ++ back))).1
    have hkeeps : s.Keeps s₁ := htaken.trans hpassed
    refine .cons ⟨_, s₁, htaken, hv⟩ ((ih fun a ha => ?_).imp fun w r => ?_)
    · obtain ⟨c, hcell, hc⟩ := hit a ha
      obtain ⟨d, hd, hdc⟩ := hkeeps.sameClass hcell
      exact ⟨d, hd, hc.trans hdc.symm⟩
    · rintro ⟨s₃, s₄, hs₃, hw⟩
      exact ⟨s₃, s₄, hkeeps.trans hs₃, hw⟩

end Action

namespace Store

variable {s s' : Store} {m p v w d kind : Value} {topics : Option Value} {vs ws cs : List Value} {ts : List Topic}
  {c : Condition} {M : Matcher}

/-- Going through the value gives some items. -/
def Gives (s : Store) (v : Value) (items : List Value) : Prop :=
  ∃ src s', (Action.source v).on s = (.ok src, s') ∧ src.items = items

/-- **Each result of going through a value comes of one of its items.** -/
theorem exists_gives_of_on_forEach {α : Type} {f : Value → Action α} {rs : List α} (hf : ∀ v, (f v).Steady)
    (h : (Action.forEach v f).on s = (.ok rs, s')) :
    ∃ vs, s.Gives v vs ∧ List.Forall₂ (fun v r => ∃ s₁ s₂, s.Keeps s₁ ∧ (f v).on s₁ = (.ok r, s₂)) vs rs := by
  obtain ⟨src, s₁, hsrc, -⟩ := Action.of_on_bind_ok h
  obtain ⟨hkeeps, hcell⟩ := Action.Ensures.source (s := s) v
  rw [Action.on_forEach_of_source f hsrc, Action.on_takeEach_eq_ok_iff] at h
  rw [hsrc] at hkeeps
  refine ⟨_, ⟨src, s₁, hsrc, rfl⟩, (Action.forall₂_of_passes hf (fun a ha => ?_) h).imp fun v r => ?_⟩
  · cases src with
    | lasting items => cases ha
    | draining b items =>
      obtain rfl : b = a := Option.some.inj ha
      exact ⟨_, hcell _ s₁ hsrc b items rfl, rfl⟩
  · rintro ⟨s₂, s₃, hs₂, hv⟩
    exact ⟨s₂, s₃, hkeeps.trans hs₂, hv⟩

/-! ## What a condition is made from -/

theorem of_on_memberTopics {us : TopicSet} (hfit : ∀ v ∈ vs, s.fit v = .ok ())
    (h : (Action.memberTopics vs).on s = (.ok us, s')) : ∃ ts, vs = ts.map .topic ∧ us = .ofList ts := by
  rcases on_memberTopics_cases hfit with ⟨ts, rfl, hon⟩ | ⟨_, _, _, _, _, hon⟩
  · exact ⟨ts, rfl, Except.ok.inj (Prod.mk.inj (h.symm.trans hon)).1⟩
  · cases h.symm.trans hon

/-- Hashed items are the items, and fit for a set. -/
theorem of_on_hashedItems {s₁ : Store} (h : (Action.hashedItems v).on s = (.ok vs, s₁)) :
    s.Gives v vs ∧ ∀ w ∈ vs, s₁.fit w = .ok () := by
  obtain ⟨src, s₀, hsrc, -⟩ := Action.of_on_bind_ok h
  rw [Action.hashedItems, Action.on_forEach_of_source _ hsrc, Action.on_takeEach_eq_ok_iff] at h
  have hleft : s₀.HasLeft src.iterator? src.items := fun a ha => by
    cases src with
    | lasting items => cases ha
    | draining b items =>
      obtain rfl : b = a := Option.some.inj ha
      exact (Action.Ensures.source (s := s) v).2 _ s₀ hsrc b items rfl
  obtain ⟨rfl, hfits, rfl⟩ := of_passes_hashed (by rwa [List.append_nil]) h
  exact ⟨⟨src, s₀, hsrc, rfl⟩, fun w hw => (fit_left hleft [] w).trans (hfits w hw)⟩

/-- **Items that make up a condition are topics.** -/
theorem exists_gives_of_on_hashedItems {us : TopicSet} {s₁ : Store} (hvs : (Action.hashedItems v).on s = (.ok vs, s₁))
    (hus : (Action.memberTopics vs).on s₁ = (.ok us, s')) : ∃ ts, s.Gives v (ts.map .topic) ∧ us = .ofList ts := by
  obtain ⟨hgives, hfits⟩ := of_on_hashedItems hvs
  obtain ⟨ts, rfl, rfl⟩ := of_on_memberTopics hfits hus
  exact ⟨ts, hgives, rfl⟩

/-- **A condition that is made** has a kind if it was given one, and it is the condition on the items it was given. -/
theorem of_on_condition_kind (h : (Action.condition kind topics).on s = (.ok v, s')) :
    ((∃ c, v = .condition c) ↔ ∃ k, kind = .kind k) ∧
      ∀ c, v = .condition c → kind = .kind c.kind ∧
        ∃ ts, c.IsOn ts ∧ topics.elim (ts = []) fun p => s.Gives p (ts.map .topic) := by
  obtain ⟨us, hparts, hconstructed⟩ := of_on_condition h
  have hkind : ∀ c, v = .condition c → kind = .kind c.kind ∧ us = c.topics := by
    rintro c rfl
    exact Prod.mk.inj (Option.some.inj hparts.symm)
  refine ⟨⟨fun ⟨c, hc⟩ => ⟨c.kind, (hkind c hc).1⟩, ?_⟩, fun c hc => ⟨(hkind c hc).1, ?_⟩⟩
  · rintro ⟨k, rfl⟩
    cases hconstructed with
    | proper c => exact ⟨c, rfl⟩
    | @labelled a label us' ha hlabel =>
      rw [conditionParts?_labelled ha] at hparts
      exact absurd (Prod.mk.inj (Option.some.inj hparts)).1 (hlabel k)
  · obtain ⟨rfl, -⟩ := hkind c hc
    subst hc
    rw [Action.condition_eq] at h
    obtain ⟨members, s₁, hmembers, h⟩ := Action.of_on_bind_ok h
    obtain ⟨us', s₂, hus, h⟩ := Action.of_on_bind_ok h
    obtain ⟨c', s₃, hmake, h⟩ := Action.of_on_bind_ok h
    obtain rfl : c' = c := Value.condition.inj (Except.ok.inj (Prod.mk.inj h).1)
    rw [Action.on_ofExcept] at hmake
    obtain ⟨-, htopics⟩ := Condition.make_eq_ok (Prod.mk.inj hmake).1
    cases topics with
    | none =>
      obtain ⟨rfl⟩ := Except.ok.inj (Prod.mk.inj hmembers).1
      obtain ⟨ts, hts, rfl⟩ := of_on_memberTopics (fun _ h => absurd h List.not_mem_nil) hus
      obtain rfl : ts = [] := List.map_eq_nil_iff.mp hts.symm
      exact ⟨[], Condition.isOn_iff.mpr htopics, rfl⟩
    | some p =>
      obtain ⟨ts, hgives, rfl⟩ := exists_gives_of_on_hashedItems hmembers hus
      exact ⟨ts, Condition.isOn_iff.mpr htopics, hgives⟩

/-- **An exact condition** is made of some topics and at least one. -/
theorem of_on_exactCondition (h : (Action.exactCondition vs).on s = (.ok c, s')) :
    ∃ ts, vs = ts.map .topic ∧ ts ≠ [] ∧ c.IsOn ts := by
  obtain ⟨ws, s₁, hws, h⟩ := Action.of_on_bind_ok h
  obtain ⟨us, s₂, hus, h⟩ := Action.of_on_bind_ok h
  rw [Action.on_eachOf_eq_takeEach, Action.on_takeEach_eq_ok_iff] at hws
  obtain ⟨rfl, hfits, rfl⟩ := of_passes_hashed (fun _ ha => by cases ha) hws
  obtain ⟨ts, rfl, rfl⟩ := of_on_memberTopics hfits hus
  rw [Action.on_ofExcept] at h
  obtain ⟨hkind, htopics⟩ := Condition.make_eq_ok (Prod.mk.inj h).1
  refine ⟨ts, rfl, ?_, Condition.isOn_iff.mpr htopics⟩
  rintro rfl
  exact c.topics_of_exact hkind htopics

/-- What a value becomes that stands for a condition. -/
inductive Becomes (s : Store) : Value → Value → Prop where
  /-- A condition is what it is. -/
  | itself {v : Value} (h : s.IsCondition v) : s.Becomes v v
  /-- The absent value becomes the condition on no topics. -/
  | absent {c : Condition} (h : c.IsOn []) : s.Becomes .none (.condition c)
  /-- Any other value becomes the condition on its items, which are topics. -/
  | items {v : Value} {c : Condition} {ts : List Topic} (hv : s.Gives v (ts.map .topic)) (h : c.IsOn ts) :
      s.Becomes v (.condition c)

theorem of_on_conditionOn (h : (Action.conditionOn v).on s = (.ok c, s')) : s.Becomes v (.condition c) := by
  unfold Action.conditionOn at h
  split at h
  · obtain ⟨rfl⟩ := Except.ok.inj (Prod.mk.inj h).1
    exact .absent Condition.isOn_any
  · rw [Action.on_bind_ok (Action.on_bytes? v s)] at h
    split at h
    · cases h
    · obtain ⟨items, s₁, hitems, h⟩ := Action.of_on_bind_ok h
      obtain ⟨us, s₂, hus, h⟩ := Action.of_on_bind_ok h
      obtain ⟨rfl⟩ := Except.ok.inj (Prod.mk.inj h).1
      obtain ⟨ts, hgives, rfl⟩ := exists_gives_of_on_hashedItems hitems hus
      exact .items hgives (Condition.isOn_ofTopics ts)

/-- **What stands for a condition** is one, or is absent, or its items are topics. -/
theorem of_on_conditionOf (h : (Action.conditionOf v).on s = (.ok w, s')) : s.Becomes v w := by
  by_cases hv : s.IsCondition v
  · rw [hv.on_conditionOf] at h
    obtain ⟨rfl⟩ := Except.ok.inj (Prod.mk.inj h).1
    exact .itself hv
  · rw [on_conditionOf_of_not_isCondition hv, map_eq_pure_bind] at h
    obtain ⟨c, s₁, hc, h⟩ := Action.of_on_bind_ok h
    obtain ⟨rfl⟩ := Except.ok.inj (Prod.mk.inj h).1
    exact of_on_conditionOn hc

/-- A condition made from a condition is the same one. -/
theorem IsCondition.on_conditionFrom {kept : Kept} (h : s.IsCondition kept.value) :
    (Action.conditionFrom kept).on s = (.ok kept, s) := by
  rw [Action.conditionFrom, Action.on_bind_ok (on_isCondition s _), if_pos h.isSome_conditionParts?]
  rfl

/-- From any other value a new condition is made, the one that the value stands for. -/
theorem on_conditionFrom_of_not_isCondition {kept : Kept} (h : ¬ s.IsCondition kept.value) :
    (Action.conditionFrom kept).on s = (Action.conditionOf kept.value >>= Action.fresh).on s := by
  rw [Action.conditionFrom, Action.on_bind_ok (on_isCondition s _), if_neg fun hv => h (isCondition_of_isSome hv),
    Action.on_bind, Action.on_bind, on_conditionOf_of_not_isCondition h, Action.on_map]
  rcases (Action.conditionOn kept.value).on s with ⟨_ | c, s₁⟩ <;> rfl

theorem of_on_conditionFrom {kept kept' : Kept} (h : (Action.conditionFrom kept).on s = (.ok kept', s')) :
    s.Becomes kept.value kept'.value := by
  by_cases hkept : s.IsCondition kept.value
  · rw [hkept.on_conditionFrom] at h
    obtain ⟨rfl⟩ := Except.ok.inj (Prod.mk.inj h).1
    exact .itself hkept
  · rw [on_conditionFrom_of_not_isCondition hkept] at h
    obtain ⟨w, s₁, hw, h⟩ := Action.of_on_bind_ok h
    rw [Action.on_fresh] at h
    obtain ⟨rfl⟩ := Except.ok.inj (Prod.mk.inj h).1
    exact of_on_conditionOf hw

/-- What comes of the payloads at a position: no condition at all if they are absent, and else the condition on their
topics. -/
def BecomesBy (s : Store) (d v w : Value) : Prop :=
  ∃ c ts, w = .condition c ∧ c.IsOn ts ∧
    (v = .none ∧ ts = [] ∨ ∃ s', (Action.deriveMany d v).on s = (.ok ts, s'))

theorem of_on_conditionOfPayloads (h : (Action.conditionOfPayloads d v).on s = (.ok w, s')) : s.BecomesBy d v w := by
  unfold Action.conditionOfPayloads at h
  split at h
  · obtain ⟨rfl⟩ := Except.ok.inj (Prod.mk.inj h).1
    exact ⟨.any, [], rfl, Condition.isOn_any, .inl ⟨rfl, rfl⟩⟩
  · obtain ⟨ts, s₁, hts, h⟩ := Action.of_on_bind_ok h
    obtain ⟨rfl⟩ := Except.ok.inj (Prod.mk.inj h).1
    exact ⟨_, ts, rfl, Condition.isOn_ofTopics ts, .inr ⟨s₁, hts⟩⟩

/-- **What a compiled matcher holds** comes of the items of a value one by one. -/
theorem exists_holds_of_on_bind {f : Value → Action Value} (hf : ∀ v, (f v).Steady)
    (h : (Action.forEach p f >>= Action.compiled).on s = (.ok m, s')) :
    ∃ vs cs, s.Gives p vs ∧ s'.Holds m cs ∧
      List.Forall₂ (fun v w => ∃ s₁ s₂, s.Keeps s₁ ∧ (f v).on s₁ = (.ok w, s₂)) vs cs := by
  obtain ⟨cs, s₁, hcs, hm⟩ := Action.of_on_bind_ok h
  obtain ⟨vs, hgives, hvs⟩ := exists_gives_of_on_forEach hf hcs
  obtain ⟨rfl, hkeeps⟩ := of_on_compiled hm
  exact ⟨vs, cs, hgives, holds_withMatcher.keep hkeeps, hvs⟩

theorem of_on_compile (h : (Action.compile p).on s = (.ok m, s')) :
    ∃ vs cs, s.Gives p vs ∧ s'.Holds m cs ∧ List.Forall₂ (fun v w => ∃ s₁, s.Keeps s₁ ∧ s₁.Becomes v w) vs cs := by
  obtain ⟨vs, cs, hgives, hholds, hvs⟩ := exists_holds_of_on_bind (fun v => .ensures (ensures_conditionOf v)) h
  refine ⟨vs, cs, hgives, hholds, hvs.imp fun v w => ?_⟩
  rintro ⟨s₁, _, hkeeps, hw⟩
  exact ⟨s₁, hkeeps, of_on_conditionOf hw⟩

theorem of_on_ofPayloads (h : (Action.ofPayloads p d).on s = (.ok m, s')) :
    ∃ vs cs, s.Gives p vs ∧ s'.Holds m cs ∧
      List.Forall₂ (fun v w => ∃ s₁, s.Keeps s₁ ∧ s₁.BecomesBy d v w) vs cs := by
  obtain ⟨vs, cs, hgives, hholds, hvs⟩ :=
    exists_holds_of_on_bind (fun v => .ensures (ensures_conditionOfPayloads d v)) h
  refine ⟨vs, cs, hgives, hholds, hvs.imp fun v w => ?_⟩
  rintro ⟨s₁, _, hkeeps, hw⟩
  exact ⟨s₁, hkeeps, of_on_conditionOfPayloads hw⟩

/-! ## Back from the topics -/

/-- The value is a frozen set of some topics, in any order. -/
def IsFrozen (s : Store) (v : Value) (ts : TopicSet) : Prop :=
  ∃ a us, v = .object a ∧ s.cell? a = some (.items .frozenSet (us.map .topic)) ∧ TopicSet.ofList us = ts

/-- What the value lists at a position are the topics of a condition, and going through it does not use it up. -/
structure Restates (s : Store) (v : Value) (c : Condition) : Prop where
  /-- It lists the topics. -/
  lists : ∃ ts, s.Lists v ts ∧ TopicSet.ofList ts = c.topics
  /-- It is no iterator. -/
  not_isIterator : ¬ s.IsIterator v

theorem restates_condition (s : Store) (c : Condition) : s.Restates (.condition c) c where
  lists := ⟨_, .condition c, TopicSet.ofList_toList _⟩
  not_isIterator := fun ⟨_, hc⟩ => nomatch hc

theorem IsFrozen.restates (h : s.IsFrozen v c.topics) : s.Restates v c := by
  obtain ⟨a, us, rfl, ha, hus⟩ := h
  refine ⟨⟨us, .items ha, hus⟩, ?_⟩
  rintro ⟨items, hc⟩
  cases ha.symm.trans (show s.cell? a = _ from hc)

theorem IsFrozen.not_isCondition {us : TopicSet} (h : s.IsFrozen v us) : ¬ s.IsCondition v := by
  obtain ⟨a, us, rfl, ha, -⟩ := h
  intro hv
  cases hv with
  | labelled hb => cases ha.symm.trans hb

/-- What restates a condition stands for it. -/
theorem Restates.on_conditionOf (h : s.Restates v c) : (Action.conditionOf v).on s = (.ok (.condition c), s) := by
  obtain ⟨⟨ts, hts, htopics⟩, hnot⟩ := h
  rw [hts.on_conditionOf, htopics, Condition.ofTopics_topics, drained_of_not_isIterator hnot]

/-- A condition equals itself. -/
theorem on_agrees_self (s : Store) (c : Condition) :
    (Action.agrees (.condition c) (.condition c)).on s = (.ok true, s) := by
  have hself : ∀ fuel, s.agreesWithin (fuel + 1) (.condition c) (.condition c) = .ok true := fun fuel =>
    (agreesBy_iff_parts (.proper c) (.proper c) rfl rfl).mpr ⟨.inl rfl, rfl⟩
  rw [Action.agrees, Action.on_inquire, Store.agrees, depth, Nat.succ_mul_succ, hself]

/-- **A condition made from the topics of a condition equals it.** -/
theorem IsFrozen.exists_on_conditionFrom {kept : Kept} (h : s.IsFrozen kept.value c.topics) :
    ∃ kept' s', (Action.conditionFrom kept).on s = (.ok kept', s') ∧
      (Action.agrees kept'.value (.condition c)).on s' = (.ok true, s') := by
  rw [on_conditionFrom_of_not_isCondition h.not_isCondition, Action.on_bind_ok h.restates.on_conditionOf,
    Action.on_fresh]
  exact ⟨_, _, rfl, on_agrees_self _ c⟩

/-- What restates the conditions of a matcher lists the topics that it is the matcher of. -/
theorem exists_lists_of_restates {cs : List Condition} (h : List.Forall₂ s.Restates vs cs) :
    ∃ tss, List.Forall₂ s.Lists vs tss ∧ (Matcher.ofLists tss).conditions = cs ∧
      vs.Pairwise fun v w => s.IsIterator v → v ≠ w := by
  induction h with
  | nil => exact ⟨[], .nil, rfl, .nil⟩
  | cons hv _ ih =>
    obtain ⟨⟨ts, hts, htopics⟩, hnot⟩ := hv
    obtain ⟨tss, htss, hconditions, hown⟩ := ih
    refine ⟨ts :: tss, .cons hts htss, ?_, .cons (fun _ _ hit => absurd hit hnot) hown⟩
    rw [Matcher.conditions_ofLists] at hconditions
    rw [Matcher.conditions_ofLists, List.map_cons, hconditions, htopics, Condition.ofTopics_topics]

/-- **A matcher is compiled anew from what restates its conditions**, and the new matcher equals it. -/
theorem Holds.exists_on_compile (hm : s.Holds m (M.conditions.map .condition)) (hp : s.Sequence p vs)
    (hvs : List.Forall₂ s.Restates vs M.conditions) :
    ∃ m' s', (Action.compile p).on s = (.ok m', s') ∧ (Action.agrees m' m).on s' = (.ok true, s') := by
  obtain ⟨tss, htss, hconditions, hown⟩ := exists_lists_of_restates hvs
  obtain ⟨m', s', hon, hstands⟩ := Store.exists_on_compile hp htss hown
  have hkeeps : s.Keeps s' := by simpa only [hon] using (steady_compile p s).1
  refine ⟨m', s', hon, ?_⟩
  rw [Action.agrees, Action.on_inquire, hstands.cells.agrees (hm.keep hkeeps), decide_eq_true (Matcher.ext hconditions)]

/-- **Nothing is lost in the topics of a condition.** Whatever a condition of a kind is made from, by the constructor,
as a wildcard, on topics one by one, from a value, or at a position of a filter that is compiled from topics or
payloads, it holds the topics it was made from, and is a wildcard if there are none. So a condition made from a
condition is the same one, and one made from its topics equals it; and a matcher over conditions of the two kinds equals
the one compiled from its conditions, and the one compiled from their topics. -/
theorem conditions_round_trip :
    (∀ c : Condition, c.IsOn c.topics.toList) ∧
    (∀ (s s' : Store) (kind : Value) (topics : Option Value) (v : Value),
      (Action.condition kind topics).on s = (.ok v, s') →
      ((∃ c, v = .condition c) ↔ ∃ k, kind = .kind k) ∧
        ∀ c, v = .condition c → kind = .kind c.kind ∧
          ∃ ts, c.IsOn ts ∧ topics.elim (ts = []) fun p => s.Gives p (ts.map .topic)) ∧
    Condition.any.IsOn [] ∧
    (∀ (s s' : Store) (vs : List Value) (c : Condition), (Action.exactCondition vs).on s = (.ok c, s') →
      ∃ ts, vs = ts.map .topic ∧ ts ≠ [] ∧ c.IsOn ts) ∧
    (∀ (s s' : Store) (kept kept' : Kept), (Action.conditionFrom kept).on s = (.ok kept', s') →
      s.Becomes kept.value kept'.value) ∧
    (∀ (s s' : Store) (p m : Value), (Action.compile p).on s = (.ok m, s') →
      ∃ vs cs, s.Gives p vs ∧ s'.Holds m cs ∧ List.Forall₂ (fun v w => ∃ s₁, s.Keeps s₁ ∧ s₁.Becomes v w) vs cs) ∧
    (∀ (s s' : Store) (p d m : Value), (Action.ofPayloads p d).on s = (.ok m, s') →
      ∃ vs cs, s.Gives p vs ∧ s'.Holds m cs ∧
        List.Forall₂ (fun v w => ∃ s₁, s.Keeps s₁ ∧ s₁.BecomesBy d v w) vs cs) ∧
    (∀ (s : Store) (kept : Kept) (c : Condition), kept.value = .condition c →
      (Action.conditionFrom kept).on s = (.ok kept, s)) ∧
    (∀ (s : Store) (kept : Kept) (c : Condition), s.IsFrozen kept.value c.topics →
      ∃ kept' s', (Action.conditionFrom kept).on s = (.ok kept', s') ∧
        (Action.agrees kept'.value (.condition c)).on s' = (.ok true, s')) ∧
    ∀ (s : Store) (m : Value) (M : Matcher), s.Holds m (M.conditions.map .condition) →
      (∃ p m' s', (Action.conditionsOf m "conditions").on s = (.ok p, s) ∧
        (Action.compile p).on s = (.ok m', s') ∧ (Action.agrees m' m).on s' = (.ok true, s')) ∧
      ∀ p vs, s.Sequence p vs → List.Forall₂ (fun v c => s.IsFrozen v c.topics) vs M.conditions →
        ∃ m' s', (Action.compile p).on s = (.ok m', s') ∧ (Action.agrees m' m).on s' = (.ok true, s') := by
  refine ⟨Condition.isOn_toList, fun s s' kind topics v => of_on_condition_kind, Condition.isOn_any,
    fun s s' vs c => of_on_exactCondition, fun s s' kept kept' => of_on_conditionFrom, fun s s' p m => of_on_compile,
    fun s s' p d m => of_on_ofPayloads, fun s kept c hkept => ?_, fun s kept c hkept => ?_,
    fun s m M hm => ⟨?_, fun p vs hp hvs => ?_⟩⟩
  · exact IsCondition.on_conditionFrom (hkept ▸ .proper c)
  · exact hkept.exists_on_conditionFrom
  · obtain ⟨p, hp, hseq⟩ := hm.on_conditionsOf "conditions"
    have hvs : List.Forall₂ s.Restates (M.conditions.map .condition) M.conditions := by
      rw [List.forall₂_map_left_iff, List.forall₂_same]
      exact fun c _ => restates_condition s c
    obtain ⟨m', s', hon, hagrees⟩ := hm.exists_on_compile hseq hvs
    exact ⟨p, m', s', hp, hon, hagrees⟩
  · exact hm.exists_on_compile hp (hvs.imp fun v c => IsFrozen.restates)

/-- A filter of an absent position and an iterator with a repetition, and a tuple of the frozen sets that its conditions
hold: one without items, and one in another order. -/
theorem conditions_round_trip_reordered :
    let t : Topic := ⟨0xa9, 0x05, 0x9c, 0xbb⟩
    let u : Topic := ⟨0xde, 0xad, 0xbe, 0xef⟩
    let s := holding [.items .iterator [.topic u, .topic t, .topic u], .items .list [.none, .object 2],
      .items .frozenSet [], .items .frozenSet [.topic t, .topic u], .items .tuple [.object 4, .object 5]]
    ∃ m s₁, (Action.compile (.object 3)).on s = (.ok m, s₁) ∧
      (∃ vs cs, s.Gives (.object 3) vs ∧ s₁.Holds m cs ∧
        List.Forall₂ (fun v w => ∃ s₂, s.Keeps s₂ ∧ s₂.Becomes v w) vs cs) ∧
      (∃ p m' s', (Action.conditionsOf m "conditions").on s₁ = (.ok p, s₁) ∧
        (Action.compile p).on s₁ = (.ok m', s') ∧ (Action.agrees m' m).on s' = (.ok true, s')) ∧
      ∃ m' s', (Action.compile (.object 6)).on s₁ = (.ok m', s') ∧ (Action.agrees m' m).on s' = (.ok true, s') := by
  intro t u s
  obtain ⟨-, -, -, -, -, hcompiled, -, -, -, hmatchers⟩ := conditions_round_trip
  have hseq : s.Sequence (.object 3) [.none, .object 2] := ⟨3, .list, rfl, .inl rfl, rfl⟩
  have hlists : List.Forall₂ s.Lists [.none, .object 2] [[], [u, t, u]] := .cons .absent (.cons (.items rfl) .nil)
  have hown : [Value.none, .object 2].Pairwise fun v w => s.IsIterator v → v ≠ w := by simp
  obtain ⟨m, s₁, hm, hstands⟩ := exists_on_compile hseq hlists hown
  have hkeeps : s.Keeps s₁ := by simpa only [hm] using (steady_compile (.object 3) s).1
  obtain ⟨hconditions, hsets⟩ := hmatchers s₁ m _ hstands.cells
  have hfrozen : List.Forall₂ (fun v c => s₁.IsFrozen v c.topics) [.object 4, .object 5]
      (Matcher.ofLists [[], [u, t, u]]).conditions := by
    rw [Matcher.conditions_ofLists]
    refine .cons ⟨4, [], rfl, hkeeps.cell rfl rfl, rfl⟩ (.cons ⟨5, [t, u], rfl, hkeeps.cell rfl rfl, ?_⟩ .nil)
    decide +kernel
  exact ⟨m, s₁, hm, hcompiled s s₁ _ m hm, hconditions,
    hsets _ _ ⟨6, .tuple, rfl, .inr rfl, hkeeps.cell rfl rfl⟩ hfrozen⟩

end Store

end TopicFilter
