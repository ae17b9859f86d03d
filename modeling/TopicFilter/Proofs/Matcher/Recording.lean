import TopicFilter.Proofs.Deriver.Recording
import TopicFilter.Proofs.Matcher.Positions

/-!
# Proofs/Matcher/Recording — how building a matcher drives the hasher

A matcher is built of payloads position by position, and in each position payload by payload. `s.Reads f ps bss` says that
all payloads are good, and `s.Stops f ps fault bs` what fails first; one of the two is the case (`reads_or_stops`), and
each says what the hasher was asked. `on_ofPayloads_recorder` is about the run: it asks for just these digests, and it
reports the matcher if there is one and nothing else.
-/

namespace TopicFilter

namespace Store

variable {s s' : Store} {a c : Address} {v p d : Value} {ps : List Value} {bs : List Bytes} {bss : List (List Bytes)}
  {f : Bytes → Bytes} {fault : Fault}

/-! ## Positions read -/

/-- The payloads at some positions are all good, and these are their bytes, position by position. A position counts when
it is reached: an iterator that was met before has nothing left. -/
inductive Reads (f : Bytes → Bytes) : Store → List Value → List (List Bytes) → Prop where
  /-- No position is left. -/
  | nil {s : Store} : Reads f s [] []
  /-- A position and those after it. -/
  | cons {s : Store} {v : Value} {vs ps : List Value} {bs : List Bytes} {bss : List (List Bytes)}
    (hv : s.payloadsAt v = .ok vs) (hvs : List.Forall₂ (s.Hashes f) vs bs) (h : Reads f (s.drained v) ps bss) :
    Reads f s (v :: ps) (bs :: bss)

/-- A position or a payload is the first that fails, and some byte strings have been hashed by then. -/
inductive Stops (f : Bytes → Bytes) : Store → List Value → Fault → List Bytes → Prop where
  /-- What stands at the first position cannot be gone through. -/
  | refused {s : Store} {v : Value} {ps : List Value} {fault : Fault} (hv : s.payloadsAt v = .error fault) :
    Stops f s (v :: ps) fault []
  /-- A payload at the first position fails. -/
  | payload {s : Store} {v w : Value} {front back ps : List Value} {bs bs' : List Bytes} {fault : Fault}
    (hv : s.payloadsAt v = .ok (front ++ w :: back)) (hfront : List.Forall₂ (s.Hashes f) front bs)
    (hw : s.Fails f w fault bs') : Stops f s (v :: ps) fault (bs ++ bs')
  /-- The payloads at the first position are all good. -/
  | later {s : Store} {v : Value} {vs ps : List Value} {bs bs' : List Bytes} {fault : Fault}
    (hv : s.payloadsAt v = .ok vs) (hvs : List.Forall₂ (s.Hashes f) vs bs) (h : Stops f (s.drained v) ps fault bs') :
    Stops f s (v :: ps) fault (bs ++ bs')

/-- **All payloads are good, or there is a first failure.** -/
theorem reads_or_stops (f : Bytes → Bytes) (s : Store) (ps : List Value) :
    (∃ bss, s.Reads f ps bss) ∨ ∃ fault bs, s.Stops f ps fault bs := by
  induction ps generalizing s with
  | nil => exact .inl ⟨[], .nil⟩
  | cons v ps ih =>
    cases hv : s.payloadsAt v with
    | error fault => exact .inr ⟨fault, [], .refused hv⟩
    | ok vs =>
      rcases forall₂_hashes_or_fails s f vs with ⟨bs, hbs⟩ | ⟨front, w, back, bs, fault, bs', rfl, hfront, hw⟩
      · rcases ih (s.drained v) with ⟨bss, h⟩ | ⟨fault, bs', h⟩
        · exact .inl ⟨bs :: bss, .cons hv hbs h⟩
        · exact .inr ⟨fault, bs ++ bs', .later hv hbs h⟩
      · exact .inr ⟨fault, bs ++ bs', .payload hv hfront hw⟩

theorem payloadsAt_noted (h : v ≠ .object c) : (s.noted c bs).payloadsAt v = s.payloadsAt v := by
  rw [payloadsAt, payloadsAt, itemsOf_noted h]

/-- What is noted does not show at the positions, unless the list of notes stands there. -/
theorem Reads.noted (h : s.Reads f ps bss) (hown : ∀ v ∈ ps, v ≠ .object c) (bs : List Bytes) :
    (s.noted c bs).Reads f ps bss := by
  induction h with
  | nil => exact .nil
  | @cons s v vs ps bs' bss hv hvs _ ih =>
    obtain ⟨hne, hown⟩ := List.forall_mem_cons.mp hown
    refine .cons ((payloadsAt_noted hne).trans hv) (hvs.imp fun _ _ hw => hw.noted) ?_
    rw [drained_noted]
    exact ih hown

theorem Stops.noted {bs' : List Bytes} (h : s.Stops f ps fault bs') (hown : ∀ v ∈ ps, v ≠ .object c)
    (bs : List Bytes) : (s.noted c bs).Stops f ps fault bs' := by
  induction h with
  | refused hv =>
    obtain ⟨hne, _⟩ := List.forall_mem_cons.mp hown
    exact .refused ((payloadsAt_noted hne).trans hv)
  | payload hv hfront hw =>
    obtain ⟨hne, _⟩ := List.forall_mem_cons.mp hown
    exact .payload ((payloadsAt_noted hne).trans hv) (hfront.imp fun _ _ hw => hw.noted) hw.noted
  | later hv hvs _ ih =>
    obtain ⟨hne, hown⟩ := List.forall_mem_cons.mp hown
    refine .later ((payloadsAt_noted hne).trans hv) (hvs.imp fun _ _ hw => hw.noted) ?_
    rw [drained_noted]
    exact ih hown

/-! ## Positions one after another -/

namespace Recording

/-- Going through a value asks for nothing by itself. -/
theorem asked_drained (h : s.Recording d f c) (v : Value) : s.Asked c [] (s.drained v) := by
  by_cases hv : s.IsIterator v
  · obtain ⟨items, hc⟩ := hv
    cases v with
    | object a =>
      have ha : s.cell? a = some (.items .iterator items) := hc
      rw [drained_of_iterator ha]
      exact .setCell ha (h.ne_of_iterator ha)
    | _ => cases hc
  · rw [drained_of_not_isIterator hv]
    exact .refl s c

/-- A position that is gone through asks for the digests of its payloads. -/
theorem asked_position (h : s.Recording d f c) (v : Value) (bs : List Bytes) :
    s.Asked c bs ((s.drained v).noted c bs) := (h.asked_drained v).trans (.noted _ c bs)

theorem exists_on_eachOf_reads (h : s.Recording d f c) (hps : s.Reads f ps bss) (hown : ∀ v ∈ ps, v ≠ .object c) :
    ∃ s', (Action.eachOf (Action.conditionOfPayloads d) ps).on s =
      (.ok ((Matcher.ofLists (bss.map (topicsBy f))).conditions.map .condition), s') ∧ s.Asked c bss.flatten s' := by
  induction ps generalizing s bss with
  | nil =>
    cases hps
    exact ⟨s, rfl, .refl s c⟩
  | cons v ps ih =>
    obtain ⟨_, hothers⟩ := List.forall_mem_cons.mp hown
    cases hps with
    | @cons _ _ vs _ bs bss hv hvs hps =>
      have hasked := h.asked_position v bs
      obtain ⟨s', hon, hasked'⟩ := ih (h.keep hasked.keeps) (hps.noted hothers bs) hothers
      refine ⟨s', ?_, hasked.trans hasked'⟩
      rw [Action.eachOf, Action.on_bind_ok (h.on_conditionOfPayloads hv hvs), Action.on_bind_ok hon]
      rfl

/-- …up to the first failure. -/
theorem exists_on_eachOf_stops (h : s.Recording d f c) (hps : s.Stops f ps fault bs) (hown : ∀ v ∈ ps, v ≠ .object c)
    (hsettings : ∀ v ∈ ps, ∀ x, v ≠ .settings x) :
    ∃ s', (Action.eachOf (Action.conditionOfPayloads d) ps).on s = (.error fault, s') ∧ s.Asked c bs s' := by
  induction ps generalizing s bs with
  | nil => cases hps
  | cons v ps ih =>
    obtain ⟨_, hothers⟩ := List.forall_mem_cons.mp hown
    obtain ⟨hne, hsettings⟩ := List.forall_mem_cons.mp hsettings
    cases hps with
    | refused hv =>
      exact ⟨s, by rw [Action.eachOf, Action.on_bind_error (h.on_conditionOfPayloads_refused hne hv)], .refl s c⟩
    | payload hv hfront hw =>
      obtain ⟨s', hon, hasked⟩ := h.exists_on_conditionOfPayloads_error hv hfront hw
      exact ⟨s', by rw [Action.eachOf, Action.on_bind_error hon], hasked⟩
    | @later _ _ vs _ bs bs' _ hv hvs hps =>
      have hasked := h.asked_position v bs
      obtain ⟨s', hon, hasked'⟩ := ih (h.keep hasked.keeps) (hps.noted hothers bs) hothers hsettings
      refine ⟨s', ?_, hasked.trans hasked'⟩
      rw [Action.eachOf, Action.on_bind_ok (h.on_conditionOfPayloads hv hvs), Action.on_bind_error hon]

end Recording

/-! ## The run -/

/-- A deriver over a hasher that notes its calls and claims enough bytes. -/
theorem exists_on_deriverOver_recorder {name : Text} {size : Int} {answer : Kept → Kept} {calls : List Value}
    (ha : s.cell? a = some (.recorder name size answer (.object c))) (hc : s.cell? c = some (.items .list calls))
    (hplace : s.assigned? (.object a) "digest" = none)
    (hanswer : ∀ b origin, (answer { value := .scalar (.bytes b), origin }).value = .scalar (.bytes (f b)))
    (hsize : 4 ≤ size) :
    ∃ d s', (Action.deriverOver (.object a)).on s = (.ok d, s') ∧ s'.Recording d f c := by
  have hclaimed : s.digestSize (.object a) = .ok (.scalar (.int size)) := by simp [digestSize, cellOf?, ha]
  have ha' := (cell?_addCell_of_lt (c := .deriver (.object a)) (lt_length_of_cell? ha)).trans ha
  have hc' := (cell?_addCell_of_lt (c := .deriver (.object a)) (lt_length_of_cell? hc)).trans hc
  have hplace' := (assigned?_addCell_of_lt (c := .deriver (.object a)) (lt_length_of_cell? ha)).trans hplace
  exact ⟨_, _, on_deriverOver hclaimed hsize,
    ⟨_, a, name, size, answer, rfl, cell?_addCell_self, ha', hplace', hanswer⟩, ⟨calls, hc'⟩,
    fun _ => assigned?_addCell_self⟩

namespace Recording

/-- A matcher is built of payloads that are all good, and reported. -/
theorem exists_on_ofPayloads_reads (h : s.Recording d f c) (hp : s.Sequence p ps) (hps : s.Reads f ps bss)
    (hown : ∀ v ∈ ps, v ≠ .object c) :
    let M := Matcher.ofLists (bss.map (topicsBy f))
    ∃ m s', (Action.ofPayloads p d).on s = (.ok m, s') ∧ s'.Stands m M ∧ s'.log = s.log ++ [M.report] ∧
      s'.cell? c = (s.cell? c).map (noting bss.flatten) := by
  intro M
  obtain ⟨s₁, hon, hasked⟩ := h.exists_on_eachOf_reads hps hown
  obtain ⟨calls, hc⟩ := h.notes
  obtain ⟨m, s', hm, hstands, hkeeps, hlog⟩ := exists_on_bind_compiled ((Action.on_forEach_sequence hp).trans hon)
  refine ⟨m, s', hm, hstands, by rw [hlog, hasked.log], ?_⟩
  rw [hc, Option.map_some]
  exact (hkeeps fun _ => False).cell (hasked.notes.trans (by rw [hc, Option.map_some])) id

/-- …and a failure leaves no report. -/
theorem exists_on_ofPayloads_stops (h : s.Recording d f c) (hp : s.Sequence p ps) (hps : s.Stops f ps fault bs)
    (hown : ∀ v ∈ ps, v ≠ .object c) (hsettings : ∀ v ∈ ps, ∀ x, v ≠ .settings x) :
    ∃ s', (Action.ofPayloads p d).on s = (.error fault, s') ∧ s.Asked c bs s' := by
  obtain ⟨s', hon, hasked⟩ := h.exists_on_eachOf_stops hps hown hsettings
  refine ⟨s', ?_, hasked⟩
  rw [Action.ofPayloads, Action.on_bind_error ((Action.on_forEach_sequence hp).trans hon)]

end Recording

/-- **How building a matcher drives a hasher that notes its calls.** A deriver can be made over the hasher, and as long as
what is fixed is kept, a matcher is built of the payloads at some positions as follows. The hasher is asked once for the
digest of each payload, in order, up to the first failure. If there is none, the matcher has a wildcard for each position
without payloads and the topics of the payloads for any other, and one report shows it. Else the failure is the outcome,
and nothing is reported; what failed has been asked for if its digest was too short. The list of notes itself is at no
position, and neither are settings, which are gone through field by field. -/
theorem on_ofPayloads_recorder {name : Text} {size : Int} {answer : Kept → Kept} {calls₀ : List Value}
    (ha : s.cell? a = some (.recorder name size answer (.object c))) (hc : s.cell? c = some (.items .list calls₀))
    (hplace : s.assigned? (.object a) "digest" = none)
    (hanswer : ∀ b origin, (answer { value := .scalar (.bytes b), origin }).value = .scalar (.bytes (f b)))
    (hsize : 4 ≤ size) :
    ∃ d s₁, (Action.deriverOver (.object a)).on s = (.ok d, s₁) ∧
      ∀ s p ps, s₁.Keeps s → s.Sequence p ps → (∀ v ∈ ps, v ≠ .object c) → (∀ v ∈ ps, ∀ x, v ≠ .settings x) →
        ∃ calls, s.cell? c = some (.items .list calls) ∧
          ((∃ bss, s.Reads f ps bss) ∨ ∃ fault bs, s.Stops f ps fault bs) ∧
          (∀ bss, s.Reads f ps bss → ∃ m M shown s', (Action.ofPayloads p d).on s = (.ok m, s') ∧ s'.Stands m M ∧
            List.Forall₂ (fun bs condition => (condition.isWildcard = true ↔ bs = []) ∧
              condition.topics = .ofList (topicsBy f bs)) bss M.conditions ∧
            s'.quoted m = .ok shown ∧
            s'.log = s.log ++
              [{ severity := .debug, channel := .matcher, message := TopicFilter.text "Compiled " ++ shown }] ∧
            s'.cell? c = some (.items .list (calls ++ bss.flatten.map fun b => .scalar (.bytes b)))) ∧
          ∀ fault bs, s.Stops f ps fault bs → ∃ s', (Action.ofPayloads p d).on s = (.error fault, s') ∧
            s'.log = s.log ∧ s'.cell? c = some (.items .list (calls ++ bs.map fun b => .scalar (.bytes b))) := by
  obtain ⟨d, s₁, hd, hrecording⟩ := exists_on_deriverOver_recorder ha hc hplace hanswer hsize
  refine ⟨d, s₁, hd, fun s p ps hkeep hp hown hsettings => ?_⟩
  have h : s.Recording d f c := hrecording.keep hkeep
  obtain ⟨calls, hcalls⟩ := h.notes
  refine ⟨calls, hcalls, reads_or_stops f s ps, fun bss hps => ?_, fun fault bs hps => ?_⟩
  · obtain ⟨m, s', hm, hstands, hlog, hnotes⟩ := h.exists_on_ofPayloads_reads hp hps hown
    rw [hcalls, Option.map_some] at hnotes
    have hconditions := Matcher.forall₂_conditions_ofLists (bss.map (topicsBy f))
    rw [List.forall₂_map_left_iff] at hconditions
    refine ⟨m, _, _, s', hm, hstands, hconditions.imp fun bs condition hcondition => ?_, hstands.cells.quoted, hlog, hnotes⟩
    rwa [topicsBy, List.map_eq_nil_iff] at hcondition
  · obtain ⟨s', hon, hasked⟩ := h.exists_on_ofPayloads_stops hp hps hown hsettings
    have hnotes := hasked.notes
    rw [hcalls, Option.map_some] at hnotes
    exact ⟨s', hon, hasked.log, hnotes⟩

/-- An iterator that stands at two positions, and a payload whose digest is too short. -/
theorem on_ofPayloads_recorder_iterator_twice :
    let answer : Kept → Kept := fun data =>
      match data.value with
      | .scalar (.bytes b) => { data with value := .scalar (.bytes (b ++ [0, 0, 0])) }
      | _ => data
    let call (b : Bytes) : Value := .scalar (.bytes b)
    let s₀ := holding [.items .list [], .recorder (TopicFilter.text "padded") 4 answer (.object 2),
      .items .iterator [call [1]], .items .tuple [.scalar (.text (TopicFilter.text "a")), .object 6], .buffer [2],
      .items .list [.object 4, .none, .object 5, .object 4], .items .list [call [7], call [], call [8]],
      .items .list [.none, .object 8, .scalar (.int 3)]]
    ∃ d s, (Action.deriverOver (.object 3)).on s₀ = (.ok d, s) ∧
      (∃ m M s', (Action.ofPayloads (.object 7) d).on s = (.ok m, s') ∧ s'.Stands m M ∧
        List.Forall₂ (fun bs condition => (condition.isWildcard = true ↔ bs = []) ∧
          condition.topics = .ofList (topicsBy (· ++ [0, 0, 0]) bs)) [[[1]], [], [[0x61], [2]], []] M.conditions ∧
        s'.cell? 2 = some (.items .list [call [1], call [0x61], call [2]])) ∧
      ∃ s', (Action.ofPayloads (.object 9) d).on s = (.error (.digestLength 3), s') ∧ s'.log = s.log ∧
        s'.cell? 2 = some (.items .list [call [7], call []]) := by
  intro answer call s₀
  let f : Bytes → Bytes := (· ++ [0, 0, 0])
  obtain ⟨d, s, hd, hrun⟩ := on_ofPayloads_recorder (s := s₀) (a := 3) (c := 2) (f := f) rfl rfl rfl (fun _ _ => rfl)
    (by decide)
  have hmade : (Action.deriverOver (.object 3)).on s₀ = (.ok (.object 10), s₀.addCell (.deriver (.object 3))) := rfl
  obtain ⟨_, rfl⟩ := Prod.mk.inj (hmade.symm.trans hd)
  have hgood : (s₀.addCell (.deriver (.object 3))).Reads f [.object 4, .none, .object 5, .object 4]
      [[[1]], [], [[0x61], [2]], []] :=
    .cons rfl (.cons ⟨rfl, by decide⟩ .nil) <| .cons rfl .nil <|
      .cons rfl (.cons ⟨rfl, by decide⟩ (.cons ⟨rfl, by decide⟩ .nil)) <| .cons rfl .nil .nil
  have hshort : (s₀.addCell (.deriver (.object 3))).Stops f [.none, .object 8, .scalar (.int 3)] (.digestLength 3)
      [[7], []] :=
    .later rfl .nil <| .payload rfl (.cons ⟨rfl, by decide⟩ .nil) (.short (b := []) rfl (by decide))
  have hnone : (s₀.addCell (.deriver (.object 3))).cell? 2 = some (.items .list []) := rfl
  refine ⟨d, _, hd, ?_, ?_⟩
  · obtain ⟨calls, hcalls, -, hreads, -⟩ := hrun _ (.object 7) _ (.refl _) ⟨7, .list, rfl, .inl rfl, rfl⟩
      (by decide) (by simp)
    cases hnone.symm.trans hcalls
    obtain ⟨m, M, -, s', hm, hstands, hconditions, -, -, hnotes⟩ := hreads _ hgood
    exact ⟨m, M, s', hm, hstands, hconditions, hnotes⟩
  · obtain ⟨calls, hcalls, -, -, hstops⟩ := hrun _ (.object 9) _ (.refl _) ⟨9, .list, rfl, .inl rfl, rfl⟩
      (by decide) (by simp)
    cases hnone.symm.trans hcalls
    exact hstops _ _ hshort

end Store

end TopicFilter
