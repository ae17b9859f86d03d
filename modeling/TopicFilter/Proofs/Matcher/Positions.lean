import Mathlib.Data.List.Forall2
import TopicFilter.Proofs.Matcher.Building
import TopicFilter.Proofs.Store.Members

/-!
# Proofs/Matcher/Positions — a filter means what stands at its positions

A filter is compiled from positions that are absent, conditions, or collections of topics in any shape;
`s.Lists v ts` says that `ts` are the topics that a position lists. `exists_on_compile` compiles any such filter, and
`exists_compile_matches_iff` reads the meaning off the positions: a message passes if it has a topic for each of them
and each lists its topic, where a position that lists nothing accepts everything.
-/

namespace TopicFilter

/-! ## Sets of topics at positions -/

theorem TopicSet.ofList_toList (ts : TopicSet) : TopicSet.ofList ts.toList = ts :=
  TopicSet.ext fun _ => TopicSet.mem_ofList

theorem TopicSet.ofList_eq_empty_iff {ts : List Topic} : TopicSet.ofList ts = ∅ ↔ ts = [] := by
  refine ⟨fun h => List.eq_nil_iff_forall_not_mem.mpr fun t ht => ?_, fun h => h ▸ rfl⟩
  exact TopicSet.not_mem_empty t (h ▸ TopicSet.mem_ofList.mpr ht)

theorem Condition.topics_ofTopics (s : TopicSet) : (Condition.ofTopics s).topics = s := by
  unfold Condition.ofTopics
  split
  · next h => exact h.symm
  · rfl

theorem Condition.isWildcard_ofTopics_iff {s : TopicSet} : (Condition.ofTopics s).isWildcard = true ↔ s = ∅ := by
  unfold Condition.ofTopics
  split
  · next h => exact iff_of_true rfl h
  · next h => exact iff_of_false (by simp [Condition.isWildcard]) h

/-- A condition is a wildcard if it has no topics. -/
theorem Condition.isWildcard_iff_topics {c : Condition} : c.isWildcard = true ↔ c.topics = ∅ := by
  have h := isWildcard_ofTopics_iff (s := c.topics)
  rwa [ofTopics_topics] at h

/-- The condition on listed topics accepts them, and all topics if there are none. -/
theorem Condition.accepts_ofList (ts : List Topic) (t : Topic) :
    (Condition.ofTopics (.ofList ts)).accepts t = true ↔ ts = [] ∨ t ∈ ts := by
  rw [Condition.accepts_ofTopics, TopicSet.ofList_eq_empty_iff, TopicSet.mem_ofList]

/-- The matcher of the topics that each position lists. -/
def Matcher.ofLists (tss : List (List Topic)) : Matcher := .ofTopicSets (tss.map .ofList)

@[simp] theorem Matcher.conditions_ofLists (tss : List (List Topic)) :
    (Matcher.ofLists tss).conditions = tss.map fun ts => .ofTopics (.ofList ts) := by
  rw [Matcher.ofLists, Matcher.ofTopicSets, List.map_map]
  rfl

/-- A position that lists nothing is a wildcard, and any other has the topics that it lists. -/
theorem Matcher.forall₂_conditions_ofLists (tss : List (List Topic)) :
    List.Forall₂ (fun ts c => (c.isWildcard = true ↔ ts = []) ∧ c.topics = .ofList ts) tss
      (Matcher.ofLists tss).conditions := by
  rw [Matcher.conditions_ofLists, List.forall₂_map_right_iff, List.forall₂_same]
  intro ts _
  rw [Condition.isWildcard_ofTopics_iff, TopicSet.ofList_eq_empty_iff, Condition.topics_ofTopics]
  exact ⟨Iff.rfl, rfl⟩

/-- **A message passes if it has a topic for each position, and each position lists its own or nothing.** -/
theorem Matcher.accepts_ofLists_iff {tss : List (List Topic)} {ts : List Topic} :
    (Matcher.ofLists tss).accepts ts = true ↔
      tss.length ≤ ts.length ∧
        ∀ i (hi : i < tss.length) (ht : i < ts.length), tss[i] = [] ∨ ts[i] ∈ tss[i] := by
  simp only [Matcher.accepts_iff, Matcher.conditions_ofLists, List.length_map, List.getElem_map,
    Condition.accepts_ofList]

namespace Store

variable {s s' : Store} {v w p q : Value} {vs : List Value} {ts : List Topic} {tss : List (List Topic)}

/-! ## What a position lists -/

/-- The topics that a position lists. -/
inductive Lists (s : Store) : Value → List Topic → Prop where
  /-- An absent position lists nothing. -/
  | absent : s.Lists .none []
  /-- A condition lists its topics. -/
  | condition (c : Condition) : s.Lists (.condition c) c.topics.toList
  /-- A collection of any shape lists its items, in any order and with repetitions. -/
  | items {a : Address} {shape : Shape} {ts : List Topic}
      (h : s.cell? a = some (.items shape (ts.map .topic))) : s.Lists (.object a) ts
  /-- A mapping lists its keys. -/
  | keys {a : Address} {entries : List (Value × Value)} {ts : List Topic}
      (h : s.cell? a = some (.dict entries)) (hkeys : entries.map (·.1) = ts.map .topic) :
      s.Lists (.object a) ts

theorem cell?_drained {a : Address} (h : s.IsIterator v → v ≠ .object a) :
    (s.drained v).cell? a = s.cell? a := by
  by_cases hv : s.IsIterator v
  · obtain ⟨items, hc⟩ := hv
    cases v with
    | object b =>
      have hba : a ≠ b := fun hab => h ⟨items, hc⟩ (hab ▸ rfl)
      simp only [drained, hc]
      exact cell?_setCell_ne hba
    | _ => cases hc
  · rw [drained_of_not_isIterator hv]

/-- What a position lists does not change while another one is gone through. -/
theorem Lists.drained (h : s.Lists w ts) (hne : s.IsIterator v → v ≠ w) : (s.drained v).Lists w ts := by
  cases h with
  | absent => exact .absent
  | condition c => exact .condition c
  | items h => exact .items ((cell?_drained hne).trans h)
  | keys h hkeys => exact .keys ((cell?_drained hne).trans h) hkeys

/-- …and neither does what several others list. -/
theorem forall₂_lists_drained (h : List.Forall₂ s.Lists vs tss) (hne : ∀ w ∈ vs, s.IsIterator v → v ≠ w) :
    List.Forall₂ (s.drained v).Lists vs tss := by
  induction h with
  | nil => exact .nil
  | cons hw _ ih =>
    obtain ⟨hwne, hne⟩ := List.forall_mem_cons.mp hne
    exact .cons (hw.drained hwne) (ih hne)

theorem isIterator_of_drained (h : (s.drained v).IsIterator w) (hne : s.IsIterator v → v ≠ w) :
    s.IsIterator w := by
  obtain ⟨items, hc⟩ := h
  cases w with
  | object a => exact ⟨items, (cell?_drained hne).symm.trans hc⟩
  | _ => cases hc

/-! ## Positions compiled -/

theorem on_hashed_topic (t : Topic) : (Action.hashed (.topic t)).on s = (.ok (.topic t), s) := by
  rw [Action.hashed, Action.on_bind_ok (a := ()) (by rw [Action.on_inquire]; rfl)]
  rfl

theorem on_hashedItems (h : s.items? v = some (ts.map .topic)) :
    (Action.hashedItems v).on s = (.ok (ts.map .topic), s.drained v) := by
  have hforEach := Action.on_forEach (f := Action.hashed) (g := id) h fun w hw s => by
    obtain ⟨t, _, rfl⟩ := List.mem_map.mp hw
    exact on_hashed_topic t
  rwa [List.map_id] at hforEach

theorem on_memberTopics (ts : List Topic) :
    (Action.memberTopics (ts.map .topic)).on s = (.ok (.ofList ts), s) := by
  obtain ⟨us, hus, hset⟩ := exists_members_topics s ts
  have heach : (Action.eachOf Action.memberTopic (us.map .topic)).on s = (.ok (us.map id), s) :=
    Action.on_eachOf_map .topic fun _ _ => rfl
  rw [List.map_id] at heach
  rw [Action.memberTopics, Action.on_bind_ok (Action.on_get s), hus, Action.on_bind_ok heach, hset]
  rfl

/-- Items that are topics make up the condition on them. -/
theorem on_conditionOf_object {a : Address} (hi : s.items? (.object a) = some (ts.map .topic))
    (hb : s.bytes? (.object a) = none) (hc : s.conditionParts? (.object a) = none) :
    (Action.conditionOf (.object a)).on s = (.ok (.condition (.ofTopics (.ofList ts))), s.drained (.object a)) := by
  have hcondition : ¬ s.IsCondition (.object a) := fun h => by
    simpa [hc] using h.isSome_conditionParts?
  have hon : (Action.conditionOn (.object a)).on s =
      (.ok (.ofTopics (.ofList ts)), s.drained (.object a)) := by
    rw [Action.conditionOn, Action.on_bind_ok (Action.on_bytes? _ _), hb]
    · simp only [Value.text?, Option.isSome_none, Bool.or_self, Bool.false_eq_true, if_false]
      rw [Action.on_bind_ok (on_hashedItems hi), Action.on_bind_ok (on_memberTopics ts)]
      rfl
    · intro h
      cases h
  rw [on_conditionOf_of_not_isCondition hcondition, Action.on_map, hon]
  rfl

/-- **A position stands for the condition on what it lists.** -/
theorem Lists.on_conditionOf (h : s.Lists v ts) :
    (Action.conditionOf v).on s = (.ok (.condition (.ofTopics (.ofList ts))), s.drained v) := by
  cases h with
  | absent => rfl
  | condition c =>
    rw [TopicSet.ofList_toList, Condition.ofTopics_topics]
    rfl
  | items h =>
    exact on_conditionOf_object (items?_object h) (by simp [bytes?, cellOf?, h])
      (by simp [conditionParts?, cellOf?, h])
  | keys h hkeys =>
    exact on_conditionOf_object (hkeys ▸ items?_object_dict h) (by simp [bytes?, cellOf?, h])
      (by simp [conditionParts?, cellOf?, h])

/-- Positions are compiled in order; each is gone through once, and so an iterator must not stand at two of them. -/
theorem on_eachOf_conditionOf (hvs : List.Forall₂ s.Lists vs tss)
    (hown : vs.Pairwise fun v w => s.IsIterator v → v ≠ w) :
    (Action.eachOf Action.conditionOf vs).on s =
      (.ok ((Matcher.ofLists tss).conditions.map .condition), vs.foldl drained s) := by
  induction vs generalizing s tss with
  | nil =>
    cases hvs
    rfl
  | cons v vs ih =>
    obtain ⟨hne, hown⟩ := List.pairwise_cons.mp hown
    cases hvs with
    | @cons _ ts _ tss hv hvs =>
      have hown' : vs.Pairwise fun v' w => (s.drained v).IsIterator v' → v' ≠ w := by
        refine hown.imp_of_mem fun {v' w} hv' _ h hit => ?_
        exact h (isIterator_of_drained hit (hne v' hv'))
      rw [Action.eachOf, Action.on_bind_ok hv.on_conditionOf,
        Action.on_bind_ok (ih (forall₂_lists_drained hvs hne) hown')]
      simp

/-! ## Filters compiled and matched -/

/-- **Positions can always be compiled**, to the matcher of what they list. -/
theorem exists_on_compile (hp : s.Sequence p vs) (hvs : List.Forall₂ s.Lists vs tss)
    (hown : vs.Pairwise fun v w => s.IsIterator v → v ≠ w) :
    ∃ m s', (Action.compile p).on s = (.ok m, s') ∧ s'.Stands m (.ofLists tss) := by
  have heach := (Action.on_forEach_sequence hp).trans (on_eachOf_conditionOf hvs hown)
  obtain ⟨m, s', hm, hstands, _⟩ := exists_on_bind_compiled heach
  exact ⟨m, s', hm, hstands⟩

theorem foldl_drained_of_forall (h : ∀ v ∈ vs, ¬ s.IsIterator v) : vs.foldl drained s = s := by
  induction vs with
  | nil => rfl
  | cons v vs ih =>
    obtain ⟨hv, hvs⟩ := List.forall_mem_cons.mp h
    rw [List.foldl_cons, drained_of_not_isIterator hv, ih hvs]

/-- Where no position is an iterator, compiling changes no cell. -/
theorem exists_on_compile_keepsBut (hp : s.Sequence p vs) (hvs : List.Forall₂ s.Lists vs tss)
    (hlasting : ∀ v ∈ vs, ¬ s.IsIterator v) :
    ∃ m s', (Action.compile p).on s = (.ok m, s') ∧ s'.Stands m (.ofLists tss) ∧
      s.KeepsBut (fun _ => False) s' := by
  have hown : vs.Pairwise fun v w => s.IsIterator v → v ≠ w :=
    List.pairwise_of_forall_mem_list fun v hv _ _ h => absurd h (hlasting v hv)
  have heach := (Action.on_forEach_sequence hp).trans (on_eachOf_conditionOf hvs hown)
  rw [foldl_drained_of_forall hlasting] at heach
  obtain ⟨m, s', hm, hstands, hkeeps, _⟩ := exists_on_bind_compiled heach
  exact ⟨m, s', hm, hstands, hkeeps _⟩

/-- **A filter means what stands at its positions.** Whatever list or tuple of absent positions, conditions and
collections of topics it is compiled from, and whatever list or tuple of topics comes later, it answers: whether
there is a topic for each position and each position lists its own or nothing. Every topic counts alike. -/
theorem exists_compile_matches_iff (hp : s.Sequence p vs) (hvs : List.Forall₂ s.Lists vs tss)
    (hown : vs.Pairwise fun v w => s.IsIterator v → v ≠ w) :
    ∃ m s', (Action.compile p).on s = (.ok m, s') ∧
      ∀ s'', s'.Keeps s'' → ∀ (q : Value) (ts : List Topic), s''.Sequence q (ts.map .topic) →
        ∃ b, (Action.matchesValue m q).on s'' = (.ok b, s'') ∧
          (b = true ↔
            tss.length ≤ ts.length ∧
              ∀ i (hi : i < tss.length) (ht : i < ts.length), tss[i] = [] ∨ ts[i] ∈ tss[i]) := by
  obtain ⟨m, s', hm, hstands⟩ := exists_on_compile hp hvs hown
  refine ⟨m, s', hm, fun s'' hs q ts hq => ?_⟩
  have hstands' : s''.Stands m (.ofLists tss) := hstands.keep hs
  exact ⟨_, hstands'.on_matchesValue hq, Matcher.accepts_ofLists_iff⟩

/-- A filter with a position of each sort: absent, a wildcard, a list with a repetition, an iterator over the
sentinel, a mapping, and a set without items. -/
theorem exists_compile_matches_iff_each_sort :
    let t : Topic := ⟨0xa9, 0x05, 0x9c, 0xbb⟩
    let u : Topic := ⟨0xde, 0xad, 0xbe, 0xef⟩
    let s := holding [.items .list [.topic u, .topic t, .topic u], .items .iterator [.topic .sentinel],
      .dict [(.topic t, .none)], .items .set [],
      .items .list [.none, .condition .any, .object 2, .object 3, .object 4, .object 5]]
    let tss := [[], [], [u, t, u], [.sentinel], [t], []]
    ∃ m s', (Action.compile (.object 6)).on s = (.ok m, s') ∧
      ∀ s'', s'.Keeps s'' → ∀ (q : Value) (ts : List Topic), s''.Sequence q (ts.map .topic) →
        ∃ b, (Action.matchesValue m q).on s'' = (.ok b, s'') ∧
          (b = true ↔
            tss.length ≤ ts.length ∧
              ∀ i (hi : i < tss.length) (ht : i < ts.length), tss[i] = [] ∨ ts[i] ∈ tss[i]) := by
  have hown : [Value.none, .condition .any, .object 2, .object 3, .object 4, .object 5].Nodup := by decide
  refine exists_compile_matches_iff ⟨6, .list, rfl, .inl rfl, rfl⟩ ?_ (hown.imp fun h => fun _ => h)
  exact .cons .absent <| .cons (.condition .any) <| .cons (.items rfl) <| .cons (.items rfl) <|
    .cons (.keys rfl rfl) <| .cons (.items rfl) .nil

end Store

end TopicFilter
