import Mathlib.Data.Set.List
import TopicFilter.Proofs.Store.Fitness

/-!
# Proofs/Store/Members — what a set of some values lists

A set keeps one of several values that are equal and lists what it keeps in an order of its own. Neither matters where
topics are concerned: no other value that is fit for a set equals one (`eq_topic_of_identified`), and so a set of some
values lists the topics among them, and lists another value if there is one among them (`topic_mem_members_iff`,
`forall_topic_of_members`).
-/

namespace TopicFilter

namespace Store

variable {s : Store} {v w : Value} {t : Topic} {vs found : List Value} {x : Stranger}

/-! ## Topics compared -/

theorem stranger?_eq_some_iff : s.stranger? v = some x ↔ s.cellOf? v = some (.stranger x) := by
  unfold stranger?
  split
  · next y hy => simp [hy]
  · next hno => exact iff_of_false nofun (hno x)

theorem fit_stranger (h : s.stranger? v = some x) : s.fit v = x.fit := by
  rw [fit, depth, fitWithin, stranger?_eq_some_iff.mp h]

/-- Values are compared to some depth at least. -/
theorem exists_depth_eq_succ (s : Store) : ∃ n, s.depth * s.depth = n + 1 :=
  Nat.exists_eq_succ_of_ne_zero (Nat.mul_ne_zero (Nat.succ_ne_zero _) (Nat.succ_ne_zero _))

/-- A value equals a topic if it is the topic, or says so itself; and the other way round. -/
theorem agrees_topic (s : Store) (t : Topic) (w : Value) :
    let answer := match s.stranger? w with
      | some x => x.equals (.topic t)
      | none => .ok (decide (w = .topic t))
    s.agrees (.topic t) w = answer ∧ s.agrees w (.topic t) = answer := by
  obtain ⟨n, hn⟩ := exists_depth_eq_succ s
  have htopic : s.stranger? (.topic t) = none ∧ s.bytes? (.topic t) = none ∧ s.conditionParts? (.topic t) = none :=
    ⟨rfl, rfl, rfl⟩
  obtain ⟨hstranger, hbytes, hparts⟩ := htopic
  simp only [agrees, hn, agreesWithin, agreesBy, hstranger, hbytes, hparts]
  cases s.stranger? w with
  | some x => exact ⟨rfl, rfl⟩
  | none => cases w <;> simp [eq_comm]

/-- Values are identified if they are the same, or equal when compared. -/
theorem identified_iff : s.identified v w = true ↔ v = w ∨ s.agrees v w = .ok true := by
  rw [identified, Bool.or_eq_true, decide_eq_true_iff]
  cases s.agrees v w <;> simp

/-- **Of the values that are fit for a set only a topic itself is taken for it.** -/
theorem eq_topic_of_identified (hw : s.fit w = .ok ())
    (h : s.identified (.topic t) w = true ∨ s.identified w (.topic t) = true) : w = .topic t := by
  obtain ⟨hleft, hright⟩ := agrees_topic s t w
  rw [identified_iff, identified_iff, hleft, ← hright] at h
  obtain h | hequal : w = .topic t ∨ s.agrees w (.topic t) = .ok true := by
    rcases h with (h | h) | h
    · exact .inl h.symm
    · exact .inr h
    · exact h
  · exact h
  · rw [hright] at hequal
    split at hequal
    · next x hx => exact absurd hequal (x.ne_topic (fit_stranger hx ▸ hw) t)
    · simpa using hequal

/-! ## What is kept and listed -/

theorem identified_self (s : Store) (v : Value) : s.identified v v = true := identified_iff.mpr (.inl rfl)

/-- A value more is kept, unless another one is kept that is taken for it. -/
def keepOne (s : Store) (found : List Value) (v : Value) : List Value :=
  if found.any (s.identified v) then found else v :: found

theorem distinct_eq (s : Store) (vs : List Value) : s.distinct vs = (vs.foldl s.keepOne []).reverse := rfl

theorem mem_of_mem_keepOne (h : w ∈ s.keepOne found v) : w ∈ found ∨ w = v := by
  unfold keepOne at h
  split at h
  · exact .inl h
  · exact (List.mem_cons.mp h).symm

theorem mem_keepOne (h : w ∈ found) : w ∈ s.keepOne found v := by
  unfold keepOne
  split
  · exact h
  · exact List.mem_cons_of_mem v h

theorem exists_mem_keepOne (s : Store) (found : List Value) (v : Value) :
    ∃ w ∈ s.keepOne found v, s.identified v w = true := by
  unfold keepOne
  split
  · next h => exact List.any_eq_true.mp h
  · exact ⟨v, List.mem_cons_self, identified_self s v⟩

theorem mem_of_mem_foldl_keepOne (h : w ∈ vs.foldl s.keepOne found) : w ∈ found ∨ w ∈ vs := by
  induction vs generalizing found with
  | nil => exact .inl h
  | cons v vs ih =>
    rcases ih h with h | h
    · rcases mem_of_mem_keepOne h with h | rfl
      · exact .inl h
      · exact .inr List.mem_cons_self
    · exact .inr (List.mem_cons_of_mem v h)

theorem mem_foldl_keepOne (h : w ∈ found) : w ∈ vs.foldl s.keepOne found := by
  induction vs generalizing found with
  | nil => exact h
  | cons v vs ih => exact ih (mem_keepOne h)

theorem exists_mem_foldl_keepOne (h : v ∈ vs) : ∃ w ∈ vs.foldl s.keepOne found, s.identified v w = true := by
  induction vs generalizing found with
  | nil => cases h
  | cons u vs ih =>
    rcases List.mem_cons.mp h with rfl | h
    · obtain ⟨w, hw, hvw⟩ := exists_mem_keepOne s found v
      have hkept : w ∈ vs.foldl s.keepOne (s.keepOne found v) := mem_foldl_keepOne hw
      exact ⟨w, hkept, hvw⟩
    · exact ih h

/-- What a set lists is among what was put into it. -/
theorem mem_of_mem_members (h : w ∈ s.members vs) : w ∈ vs := by
  have hdistinct : w ∈ s.distinct vs := (s.order.perm _).mem_iff.mp h
  rw [distinct_eq, List.mem_reverse] at hdistinct
  exact (mem_of_mem_foldl_keepOne hdistinct).resolve_left List.not_mem_nil

/-- What was put into a set is listed, or another value that is taken for it. -/
theorem exists_mem_members (h : v ∈ vs) : ∃ w ∈ s.members vs, s.identified v w = true := by
  obtain ⟨w, hw, hvw⟩ : ∃ w ∈ vs.foldl s.keepOne [], s.identified v w = true := exists_mem_foldl_keepOne h
  exact ⟨w, (s.order.perm _).mem_iff.mpr (List.mem_reverse.mpr hw), hvw⟩

/-- **A set lists the topics that were put into it.** -/
theorem topic_mem_members_iff (hfit : ∀ v ∈ vs, s.fit v = .ok ()) : .topic t ∈ s.members vs ↔ .topic t ∈ vs := by
  refine ⟨mem_of_mem_members, fun h => ?_⟩
  obtain ⟨w, hw, htw⟩ := exists_mem_members h
  obtain rfl := eq_topic_of_identified (hfit w (mem_of_mem_members hw)) (.inl htw)
  exact hw

/-- **A set lists nothing but topics only if nothing else was put into it.** -/
theorem forall_topic_of_members (hfit : ∀ v ∈ vs, s.fit v = .ok ()) (h : ∀ w ∈ s.members vs, ∃ t, w = .topic t) :
    ∀ v ∈ vs, ∃ t, v = .topic t := by
  intro v hv
  obtain ⟨w, hw, hvw⟩ := exists_mem_members hv
  obtain ⟨t, rfl⟩ := h w hw
  exact ⟨t, eq_topic_of_identified (hfit v hv) (.inr hvw)⟩

/-- Values that are all topics are what some topics are. -/
theorem exists_map_topic (h : ∀ v ∈ vs, ∃ t, v = .topic t) : ∃ ts : List Topic, vs = ts.map .topic := by
  have hrange : vs ∈ Set.range (List.map Value.topic) := by
    rw [Set.range_list_map]
    intro v hv
    obtain ⟨t, rfl⟩ := h v hv
    exact ⟨t, rfl⟩
  obtain ⟨ts, hts⟩ := hrange
  exact ⟨ts, hts.symm⟩

/-- A set of topics lists them, in some order. -/
theorem exists_members_topics (s : Store) (ts : List Topic) :
    ∃ us : List Topic, s.members (ts.map .topic) = us.map .topic ∧ TopicSet.ofList us = TopicSet.ofList ts := by
  have hfit : ∀ v ∈ ts.map Value.topic, s.fit v = .ok () := List.forall_mem_map.mpr fun _ _ => rfl
  have hlisted : ∀ w ∈ s.members (ts.map .topic), ∃ t, w = .topic t := fun w hw => by
    obtain ⟨t, _, rfl⟩ := List.mem_map.mp (mem_of_mem_members hw)
    exact ⟨t, rfl⟩
  obtain ⟨us, hus⟩ := exists_map_topic hlisted
  have hinj : Function.Injective Value.topic := fun _ _ => Value.topic.inj
  refine ⟨us, hus, TopicSet.ext fun t => ?_⟩
  rw [TopicSet.mem_ofList, TopicSet.mem_ofList, ← List.mem_map_of_injective hinj, ← hus, topic_mem_members_iff hfit,
    List.mem_map_of_injective hinj]

end Store

end TopicFilter
