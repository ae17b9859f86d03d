import TopicFilter.Proofs.Matcher.Abstraction

/-!
# Proofs/Matcher/Labels — conditions under what is no kind

What is given as the kind of a condition is not checked. Under anything else a condition is made too; it is no wildcard
and accepts its topics, so without any it accepts nothing. Conditions are compared by what stands for their kinds, and by
their topics. The plain name of a kind equals the kind, and so does a value of another class that says so (`PassesFor`).

Equal conditions behave alike but for one sort of pair (`Mistaken`): the wildcard equals a condition without topics under
what passes for its kind. Matchers that are equal answer alike unless they have such a pair at one position.
-/

namespace TopicFilter

theorem Condition.make_eq_ok {k : Kind} {ts : TopicSet} {c : Condition} (h : make k ts = .ok c) :
    c.kind = k ∧ c.topics = ts := by
  unfold make at h
  split at h
  · split at h
    · cases h
      exact ⟨rfl, rfl⟩
    · cases h
  · cases h

namespace Action

/-- The condition of a kind on some topics, or under what is no kind. -/
def conditionUnder : Value → TopicSet → Action Value
  | .kind k, ts => do return .condition (← ofExcept (Condition.make k ts))
  | label, ts => allocate (.labelled label ts)

/-- A condition is made of its topics once they are known. -/
theorem condition_eq (kind : Value) (topics : Option Value) :
    condition kind topics = (do
      let members ← topics.elim (pure []) hashedItems
      conditionUnder kind (← memberTopics members)) := by
  cases topics <;> cases kind <;> rfl

end Action

namespace Store

variable {s s' : Store} {v w m n kind label : Value} {topics : Option Value} {a b : Address} {ts us : TopicSet}
  {vs ws : List Value}

/-! ## Conditions as they are made -/

/-- The value is a condition as they are made: of a kind, or under a label that is none. -/
inductive Constructed (s : Store) : Value → Prop where
  /-- A condition of a kind. -/
  | proper (c : Condition) : s.Constructed (.condition c)
  /-- A condition under a label. -/
  | labelled {a : Address} {label : Value} {ts : TopicSet} (h : s.cell? a = some (.labelled label ts))
    (hlabel : ∀ k, label ≠ .kind k) : s.Constructed (.object a)

theorem Constructed.isCondition (h : s.Constructed v) : s.IsCondition v := by
  cases h with
  | proper c => exact .proper c
  | labelled h _ => exact .labelled h

theorem conditionParts?_labelled (h : s.cell? a = some (.labelled label ts)) :
    s.conditionParts? (.object a) = some (label, ts) := by
  simp [conditionParts?, cellOf?, h]

/-- **What comes out of making a condition** has the given kind, and is put into a cell if that is no kind. -/
theorem of_on_condition (h : (Action.condition kind topics).on s = (.ok v, s')) :
    ∃ ts, s'.conditionParts? v = some (kind, ts) ∧ s'.Constructed v := by
  rw [Action.condition_eq] at h
  obtain ⟨members, _, _, h⟩ := Action.of_on_bind_ok h
  obtain ⟨ts, s₁, _, h⟩ := Action.of_on_bind_ok h
  refine ⟨ts, ?_⟩
  cases kind with
  | kind k =>
    obtain ⟨c, s₃, hc, h⟩ := Action.of_on_bind_ok h
    obtain ⟨rfl, _⟩ : Value.condition c = v ∧ s₃ = s' := by simpa using h
    obtain ⟨hmake, _⟩ := Prod.mk.inj ((Action.on_ofExcept _ _).symm.trans hc)
    obtain ⟨rfl, rfl⟩ := Condition.make_eq_ok hmake
    exact ⟨rfl, .proper c⟩
  | _ =>
    obtain ⟨hv, rfl⟩ := Prod.mk.inj ((Action.on_allocate _ _).symm.trans h)
    obtain rfl := Except.ok.inj hv
    exact ⟨conditionParts?_labelled cell?_addCell_self, .labelled cell?_addCell_self nofun⟩

theorem acceptance_labelled (h : s.cell? a = some (.labelled label ts)) (t : Topic) :
    s.acceptance (.object a) t = .ok (decide (t ∈ ts)) := by
  rw [(IsCondition.labelled h).acceptance]
  simp [admits, cellOf?, h]

/-- **What a condition accepts**: any topic if it is a wildcard, and else its topics. -/
theorem Constructed.exists_acceptance_iff (h : s.Constructed v) (hparts : s.conditionParts? v = some (kind, ts)) :
    (∃ t, s.acceptance v t = .ok true) ↔ (∃ k, kind = .kind k) ∨ ts ≠ ∅ := by
  cases h with
  | proper c =>
    obtain ⟨rfl, rfl⟩ : Value.kind c.kind = kind ∧ c.topics = ts := by simpa [conditionParts?] using hparts
    simp only [(IsCondition.proper c).acceptance, Except.ok.injEq]
    exact ⟨fun _ => .inl ⟨c.kind, rfl⟩, fun _ => c.exists_accepts⟩
  | @labelled a label us h hlabel =>
    obtain ⟨rfl, rfl⟩ : label = kind ∧ us = ts := by simpa [conditionParts?_labelled h] using hparts
    simp only [acceptance_labelled h, Except.ok.injEq, decide_eq_true_iff, hlabel, exists_false, false_or]
    refine ⟨?_, TopicSet.exists_mem⟩
    rintro ⟨t, ht⟩ rfl
    exact TopicSet.not_mem_empty t ht

/-! ## Conditions compared -/

/-- Two conditions behave alike: both or neither are wildcards, and they accept the same topics. -/
def Alike (s : Store) (v w : Value) : Prop :=
  (∃ b, s.isWildcard v = .ok b ∧ s.isWildcard w = .ok b) ∧
    ∀ t, ∃ b, s.acceptance v t = .ok b ∧ s.acceptance w t = .ok b

/-- The value is no kind, but equals one: it is the plain name of the kind, or a value of another class that says so. -/
def PassesFor (s : Store) (label : Value) (k : Kind) : Prop :=
  label = .scalar (.text k.name) ∨ ∃ x, s.stranger? label = some x ∧ x.equals (.kind k) = .ok true

/-- The first is the wildcard, and the second a condition without topics under what passes for its kind. -/
def Mistaken (s : Store) (v w : Value) : Prop :=
  v = .condition .any ∧ ∃ label, s.PassesFor label .wildcard ∧ s.conditionParts? w = some (label, ∅)

theorem Alike.symm (h : s.Alike v w) : s.Alike w v := by
  obtain ⟨⟨b, hv, hw⟩, htopics⟩ := h
  refine ⟨⟨b, hw, hv⟩, fun t => ?_⟩
  obtain ⟨b, hv, hw⟩ := htopics t
  exact ⟨b, hw, hv⟩

theorem isWildcard_condition (c : Condition) : s.isWildcard (.condition c) = .ok c.isWildcard := rfl

theorem isWildcard_labelled (h : s.cell? a = some (.labelled label ts)) : s.isWildcard (.object a) = .ok false := by
  have hassigned : s.assigned? (.object a) "is_wildcard" = none :=
    assigned?_of_attributeOwner? (by simp [h, attributeOwner?])
  simp [isWildcard, depth, isWildcardWithin, hassigned, cellOf?, h]

theorem PassesFor.ne_kind {k : Kind} (h : s.PassesFor label k) (l : Kind) : label ≠ .kind l := by
  rintro rfl
  rcases h with h | ⟨x, hx, _⟩
  · cases h
  · cases hx

/-- **What equals a kind** is the kind itself, or passes for it. -/
theorem agreesBy_kind_iff {agree : Comparison} {k : Kind} :
    (s.agreesBy agree (.kind k) v = .ok true ↔ v = .kind k ∨ s.PassesFor v k) ∧
      (s.agreesBy agree v (.kind k) = .ok true ↔ v = .kind k ∨ s.PassesFor v k) := by
  have hkind : s.stranger? (.kind k) = none ∧ s.bytes? (.kind k) = none ∧ s.conditionParts? (.kind k) = none :=
    ⟨rfl, rfl, rfl⟩
  obtain ⟨hstranger, hbytes, hparts⟩ := hkind
  simp only [agreesBy, PassesFor, hstranger, hbytes, hparts]
  cases hx : s.stranger? v with
  | some x =>
    have hobject : v ≠ .kind k ∧ v ≠ .scalar (.text k.name) := by
      refine ⟨?_, ?_⟩ <;> rintro rfl <;> cases hx
    simp [hobject]
  | none => cases v with
    | scalar x => cases x <;> simp [eq_comm]
    | _ => simp [eq_comm]

/-- Conditions are no values of other classes, and have no bytes. -/
theorem Constructed.plain (h : s.Constructed v) : s.stranger? v = none ∧ s.bytes? v = none := by
  cases h with
  | proper c => exact ⟨rfl, rfl⟩
  | labelled h _ => simp [stranger?, bytes?, cellOf?, h]

/-- **Conditions are equal** if their topics are, and what stands for their kinds is the same or equal. -/
theorem agreesBy_iff_parts {agree : Comparison} {label' : Value} (hv : s.Constructed v) (hw : s.Constructed w)
    (hlabel : s.conditionParts? v = some (label, ts)) (hlabel' : s.conditionParts? w = some (label', us)) :
    s.agreesBy agree v w = .ok true ↔ (label = label' ∨ agree label label' = .ok true) ∧ ts = us := by
  simp only [agreesBy, hv.plain, hw.plain, hlabel, hlabel']
  by_cases hsame : label = label'
  · simp [hsame, bind, Except.bind, pure, Except.pure]
  · cases hagree : agree label label' with
    | error fault => simp [hsame, bind, Except.bind]
    | ok equal => cases equal <;> simp [hsame, bind, Except.bind, pure, Except.pure]

theorem topics_of_agreesWithin {fuel : Nat} {label' : Value} (hv : s.Constructed v) (hw : s.Constructed w)
    (h : s.agreesWithin fuel v w = .ok true) (hlabel : s.conditionParts? v = some (label, ts))
    (hlabel' : s.conditionParts? w = some (label', us)) : ts = us := by
  cases fuel with
  | zero => cases h
  | succ fuel => exact ((agreesBy_iff_parts hv hw hlabel hlabel').mp h).2

/-- What equals a condition of a kind has its topics, and stands under the kind or what passes for it. -/
theorem parts_of_agreesWithin_condition {fuel : Nat} {c : Condition} (hv : s.Constructed v)
    (h : s.agreesWithin fuel (.condition c) v = .ok true ∨ s.agreesWithin fuel v (.condition c) = .ok true)
    (hparts : s.conditionParts? v = some (label, ts)) :
    ts = c.topics ∧ (label = .kind c.kind ∨ s.PassesFor label c.kind) := by
  have hkind : ∀ {fuel}, s.agreesWithin fuel (.kind c.kind) label = .ok true ∨
      s.agreesWithin fuel label (.kind c.kind) = .ok true → label = .kind c.kind ∨ s.PassesFor label c.kind := by
    intro fuel h
    cases fuel with
    | zero => rcases h with h | h <;> cases h
    | succ fuel => exact h.elim agreesBy_kind_iff.1.mp agreesBy_kind_iff.2.mp
  cases fuel with
  | zero => rcases h with h | h <;> cases h
  | succ fuel =>
    rcases h with h | h
    · obtain ⟨hlabel, htopics⟩ := (agreesBy_iff_parts (.proper c) hv rfl hparts).mp h
      exact ⟨htopics.symm, hlabel.elim (fun hsame => .inl hsame.symm) fun hagree => hkind (.inl hagree)⟩
    · obtain ⟨hlabel, htopics⟩ := (agreesBy_iff_parts hv (.proper c) hparts rfl).mp h
      exact ⟨htopics, hlabel.elim .inl fun hagree => hkind (.inr hagree)⟩

/-- A condition and one with the same topics, under what passes for its kind, behave alike unless it is the wildcard. -/
theorem alike_labelled_iff {c : Condition} (h : s.cell? a = some (.labelled label c.topics))
    (hlabel : s.PassesFor label c.kind) :
    s.Alike (.condition c) (.object a) ↔ ¬ s.Mistaken (.condition c) (.object a) := by
  have hparts := conditionParts?_labelled h
  cases hw : c.isWildcard
  · have hne : c ≠ .any := by
      rintro rfl
      cases hw
    refine ⟨fun _ hm => hne (Value.condition.inj hm.1), fun _ => ⟨⟨false, ?_, isWildcard_labelled h⟩, fun t => ?_⟩⟩
    · rw [isWildcard_condition, hw]
    · refine ⟨decide (t ∈ c.topics), ?_, acceptance_labelled h t⟩
      rw [(IsCondition.proper c).acceptance]
      simp [admits, Condition.accepts, hw]
  · have hkind : c.kind = .wildcard := of_decide_eq_true hw
    have hany : c = .any := Condition.ext hkind (c.topics_of_wildcard hkind)
    subst hany
    refine ⟨?_, fun hm => absurd ⟨rfl, label, hlabel, hparts⟩ hm⟩
    rintro ⟨⟨b, hb, hb'⟩, _⟩
    rw [isWildcard_labelled h] at hb'
    cases hb'
    cases hb

/-- A condition behaves like itself. -/
theorem Constructed.alike_refl (h : s.Constructed v) : s.Alike v v := by
  have hwildcard : ∃ b, s.isWildcard v = .ok b := by
    cases h with
    | proper c => exact ⟨_, isWildcard_condition c⟩
    | labelled h _ => exact ⟨_, isWildcard_labelled h⟩
  obtain ⟨b, hb⟩ := hwildcard
  exact ⟨⟨b, hb, hb⟩, fun t => ⟨_, h.isCondition.acceptance t, h.isCondition.acceptance t⟩⟩

/-- **Conditions that are equal behave alike, unless the one is mistaken for the other.** -/
theorem alike_iff_of_agreesWithin {fuel : Nat} (hv : s.Constructed v) (hw : s.Constructed w)
    (h : s.agreesWithin fuel v w = .ok true) : s.Alike v w ↔ ¬ s.Mistaken v w ∧ ¬ s.Mistaken w v := by
  -- only a condition of a kind is mistaken, and only for one under a label
  have hobject : ∀ {a : Address} {w : Value}, ¬ s.Mistaken (.object a) w := fun hm => nomatch hm.1
  have hproper : ∀ {v : Value} {c : Condition}, ¬ s.Mistaken v (.condition c) := by
    rintro v c ⟨_, label, hlabel, hparts⟩
    exact hlabel.ne_kind c.kind (congrArg Prod.fst (Option.some.inj hparts)).symm
  cases hv with
  | proper c =>
    cases hw with
    | proper d =>
      obtain ⟨htopics, hkind⟩ := parts_of_agreesWithin_condition (.proper d) (.inl h) rfl
      have hsame : Value.kind d.kind = .kind c.kind :=
        hkind.resolve_right fun hpasses => hpasses.ne_kind d.kind rfl
      obtain rfl : d = c := Condition.ext (Value.kind.inj hsame) htopics
      exact ⟨fun _ => ⟨hproper, hproper⟩, fun _ => (Constructed.proper d).alike_refl⟩
    | labelled ha hlabel =>
      obtain ⟨rfl, hkind⟩ :=
        parts_of_agreesWithin_condition (.labelled ha hlabel) (.inl h) (conditionParts?_labelled ha)
      have hpasses := hkind.resolve_left (hlabel _)
      exact (alike_labelled_iff ha hpasses).trans (and_iff_left hobject).symm
  | labelled ha hlabel =>
    cases hw with
    | proper c =>
      obtain ⟨rfl, hkind⟩ :=
        parts_of_agreesWithin_condition (.labelled ha hlabel) (.inr h) (conditionParts?_labelled ha)
      have hiff := alike_labelled_iff ha (hkind.resolve_left (hlabel _))
      exact ⟨fun halike => ⟨hobject, hiff.mp halike.symm⟩, fun hm => (hiff.mpr hm.2).symm⟩
    | labelled hb hlabel' =>
      obtain rfl := topics_of_agreesWithin (.labelled ha hlabel) (.labelled hb hlabel') h
        (conditionParts?_labelled ha) (conditionParts?_labelled hb)
      exact ⟨fun _ => ⟨hobject, hobject⟩, fun _ => ⟨⟨false, isWildcard_labelled ha, isWildcard_labelled hb⟩,
        fun t => ⟨_, acceptance_labelled ha t, acceptance_labelled hb t⟩⟩⟩

/-- **The wildcard equals whatever it is mistaken for.** -/
theorem Mistaken.agrees (h : s.Mistaken v w) (hw : s.Constructed w) :
    s.agrees v w = .ok true ∧ s.agrees w v = .ok true := by
  obtain ⟨rfl, label, hlabel, hparts⟩ := h
  cases hw with
  | proper c => exact absurd (congrArg Prod.fst (Option.some.inj hparts)).symm (hlabel.ne_kind c.kind)
  | @labelled a label' us ha hother =>
    -- conditions are compared to some depth, and what stands for their kinds to one that is less
    obtain ⟨fuel, hfuel⟩ : ∃ fuel, s.depth * s.depth = fuel + 2 := by
      have hdepth : 2 ≤ s.depth := Nat.succ_le_succ (Nat.zero_lt_of_lt (lt_length_of_cell? ha))
      exact Nat.exists_eq_add_of_le' (hdepth.trans (Nat.le_mul_self _))
    have hw : s.Constructed (.object a) := .labelled ha hother
    rw [Store.agrees, hfuel]
    have hv : s.Constructed (.condition .any) := .proper _
    exact ⟨(agreesBy_iff_parts hv hw rfl hparts).mpr ⟨.inr (agreesBy_kind_iff.1.mpr (.inr hlabel)), rfl⟩,
      (agreesBy_iff_parts hw hv hparts rfl).mpr ⟨.inr (agreesBy_kind_iff.2.mpr (.inr hlabel)), rfl⟩⟩

/-! ## Matchers compared -/

theorem forall₂_of_agreeAll {agree : Comparison} (h : agreeAll agree vs ws = .ok true) :
    List.Forall₂ (fun v w => agree v w = .ok true) vs ws := by
  induction vs generalizing ws with
  | nil =>
    cases ws with
    | nil => exact .nil
    | cons w ws => cases h
  | cons v vs ih =>
    cases ws with
    | nil => cases h
    | cons w ws =>
      rw [agreeAll] at h
      simp only [bind, Except.bind, pure, Except.pure] at h
      split at h
      · cases h
      · next b hb =>
        cases b with
        | false => simp at h
        | true => exact .cons hb (ih (by simpa using h))

/-- **Matchers that are equal hold equal conditions**, position by position. -/
theorem Holds.forall₂_of_agrees (hm : s.Holds m vs) (hn : s.Holds n ws) (h : s.agrees m n = .ok true) :
    List.Forall₂ (fun v w => v = w ∨ ∃ fuel, s.agreesWithin fuel v w = .ok true) vs ws := by
  have hdepth := hm.two_lt_depth
  have hfuel : 2 ≤ s.depth * s.depth := Nat.le_trans hdepth.le (Nat.le_mul_self _)
  obtain ⟨a, t, rfl, ha, ht⟩ := hm
  obtain ⟨b, u, rfl, hb, hu⟩ := hn
  rw [Store.agrees, ← Nat.sub_add_cancel hfuel, agreesWithin_matchers ha hb, agreesWithin_tuples ht hu] at h
  split at h
  · next htu =>
    subst htu
    obtain rfl : vs = ws := by simpa using ht.symm.trans hu
    exact List.forall₂_same.mpr fun v _ => .inl rfl
  · refine (forall₂_of_agreeAll h).imp fun v w hvw => ?_
    split at hvw
    · next hsame => exact .inl hsame
    · exact .inr ⟨_, hvw⟩

theorem admitsAll_congr (h : List.Forall₂ (fun v w => ∀ t, s.admits v t = s.admits w t) vs ws) (ts : List Topic) :
    s.admitsAll vs ts = s.admitsAll ws ts := by
  induction h generalizing ts with
  | nil => rfl
  | cons hvw _ ih =>
    cases ts with
    | nil => rfl
    | cons t ts => rw [admitsAll, admitsAll, hvw t, ih ts]

/-- **Matchers that are equal answer alike**, unless at one position the condition of one is mistaken for that of the
other. -/
theorem answer_eq_of_agrees (hm : s.MatcherOver m vs) (hn : s.MatcherOver n ws)
    (hconstructed : ∀ v ∈ vs ++ ws, s.Constructed v) (h : s.agrees m n = .ok true)
    (hmistaken : ∀ p ∈ vs.zip ws, ¬ s.Mistaken p.1 p.2 ∧ ¬ s.Mistaken p.2 p.1) (ts : List Topic) :
    s.answer m ts = s.answer n ts := by
  obtain ⟨hlen, hequal⟩ := List.forall₂_iff_zip.mp (hm.cells.forall₂_of_agrees hn.cells h)
  have hadmits : List.Forall₂ (fun v w => ∀ t, s.admits v t = s.admits w t) vs ws := by
    refine List.forall₂_iff_zip.mpr ⟨hlen, fun {v w} hvw t => ?_⟩
    obtain ⟨hv, hw⟩ := List.of_mem_zip hvw
    have hv := hconstructed v (List.mem_append_left _ hv)
    have hw := hconstructed w (List.mem_append_right _ hw)
    have halike : s.Alike v w := by
      rcases hequal hvw with rfl | ⟨_, hagrees⟩
      · exact hv.alike_refl
      · exact (alike_iff_of_agreesWithin hv hw hagrees).mpr (hmistaken _ hvw)
    obtain ⟨b, hb, hb'⟩ := halike.2 t
    rw [hv.isCondition.acceptance, Except.ok.injEq] at hb
    rw [hw.isCondition.acceptance, Except.ok.injEq] at hb'
    rw [hb, hb']
  rw [hm.answer, hn.answer, hlen, admitsAll_congr hadmits]

/-- **What a condition accepts, and which conditions behave alike.** A condition that is made has the given kind. It
accepts something unless its kind is none and it has no topics. Of two conditions that are equal both are wildcards or
none is, and they accept the same topics, unless one of them is mistaken for the other; the wildcard does equal whatever
it is mistaken for. And so equal matchers over conditions answer alike if no condition is mistaken for the one at its
position in the other matcher. -/
theorem acceptance_and_equality (s : Store) :
    (∀ (kind : Value) (topics : Option Value) (v : Value) (s' : Store),
      (Action.condition kind topics).on s = (.ok v, s') →
      s'.Constructed v ∧ ∃ ts, s'.conditionParts? v = some (kind, ts) ∧
        ((∃ t, s'.acceptance v t = .ok true) ↔ (∃ k, kind = .kind k) ∨ ts ≠ ∅)) ∧
    (∀ v w : Value, s.Constructed v → s.Constructed w → s.agrees v w = .ok true →
      (s.Alike v w ↔ ¬ s.Mistaken v w ∧ ¬ s.Mistaken w v)) ∧
    (∀ v w : Value, s.Mistaken v w → s.Constructed w → s.agrees v w = .ok true ∧ s.agrees w v = .ok true) ∧
    ∀ (m n : Value) (vs ws : List Value), s.MatcherOver m vs → s.MatcherOver n ws →
      (∀ v ∈ vs ++ ws, s.Constructed v) → s.agrees m n = .ok true →
      (∀ p ∈ vs.zip ws, ¬ s.Mistaken p.1 p.2 ∧ ¬ s.Mistaken p.2 p.1) → ∀ ts, s.answer m ts = s.answer n ts := by
  refine ⟨fun kind topics v s' hv => ?_, fun v w hv hw h => alike_iff_of_agreesWithin hv hw h,
    fun v w h hw => h.agrees hw, fun m n vs ws hm hn hconstructed h hmistaken ts =>
      answer_eq_of_agrees hm hn hconstructed h hmistaken ts⟩
  obtain ⟨ts, hparts, hconstructed⟩ := of_on_condition hv
  exact ⟨hconstructed, ts, hparts, hconstructed.exists_acceptance_iff hparts⟩

/-- A value that equals everything and goes into no set. -/
def anything : Stranger where
  className := "_ANY"
  bytes := none
  items := none
  fit := .error (.unhashable "_ANY")
  equals _ := .ok true
  className_not_mem := by decide
  ne_topic := nofun

/-- An exact condition, one with the same topics under the plain name of its kind, and a matcher over each; and a
condition without topics under a value that equals everything. -/
def exactAndNamed : Store :=
  holding [.labelled (.scalar (.text Kind.exact.name)) (.ofList [.sentinel]),
    .items .tuple [.condition (.ofTopics (.ofList [.sentinel]))], .matcher (.object 3),
    .items .tuple [.object 2], .matcher (.object 5), .stranger anything, .labelled (.object 7) ∅]

/-- A condition under a number accepts nothing when it has no topics. An exact condition behaves like the one under the
plain name of its kind, and so do matchers over them. The wildcard equals the condition under what equals everything,
and does not behave like it. -/
theorem acceptance_and_equality_exact :
    let s := exactAndNamed
    let c : Value := .condition (.ofTopics (.ofList [.sentinel]))
    (∃ v s', (Action.condition (.scalar (.int 7)) none).on s = (.ok v, s') ∧ ¬ ∃ t, s'.acceptance v t = .ok true) ∧
      s.agrees c (.object 2) = .ok true ∧ s.Alike c (.object 2) ∧ s.agrees (.object 4) (.object 6) = .ok true ∧
      (∀ ts, s.answer (.object 4) ts = s.answer (.object 6) ts) ∧
      s.agrees (.condition .any) (.object 8) = .ok true ∧ ¬ s.Alike (.condition .any) (.object 8) := by
  intro s c
  obtain ⟨hmade, hequal, hmistaken, hmatchers⟩ := acceptance_and_equality s
  have hother : s.Constructed (.object 8) := .labelled rfl nofun
  have hpair : s.Mistaken (.condition .any) (.object 8) := ⟨rfl, .object 7, .inr ⟨anything, rfl, rfl⟩, rfl⟩
  obtain ⟨hagrees, _⟩ := hmistaken _ _ hpair hother
  have hnamed : s.Constructed (.object 2) := .labelled rfl nofun
  have hany : Condition.ofTopics (.ofList [.sentinel]) ≠ .any := by decide
  have hnot : ¬ s.Mistaken c (.object 2) ∧ ¬ s.Mistaken (.object 2) c :=
    ⟨fun h => hany (Value.condition.inj h.1), fun h => by cases h.1⟩
  refine ⟨⟨_, _, rfl, fun hsome => ?_⟩, rfl, (hequal _ _ (.proper _) hnamed rfl).mpr hnot, rfl, ?_, hagrees,
    fun halike => ((hequal _ _ (.proper _) hother hagrees).mp halike).1 hpair⟩
  · obtain ⟨_, ts, hparts, hiff⟩ := hmade (.scalar (.int 7)) none _ _ rfl
    obtain ⟨_, rfl⟩ : _ ∧ (∅ : TopicSet) = ts := Prod.mk.inj (Option.some.inj hparts)
    exact (hiff.mp hsome).elim nofun fun hne => hne rfl
  · have hm : s.MatcherOver (.object 4) [c] :=
      ⟨⟨4, 3, rfl, rfl, rfl⟩, fun _ => rfl, List.forall_mem_singleton.mpr (.proper _)⟩
    have hn : s.MatcherOver (.object 6) [.object 2] :=
      ⟨⟨6, 5, rfl, rfl, rfl⟩, fun _ => rfl, List.forall_mem_singleton.mpr hnamed.isCondition⟩
    have hconstructed : ∀ v ∈ [c] ++ [.object 2], s.Constructed v :=
      List.forall_mem_cons.mpr ⟨.proper _, List.forall_mem_singleton.mpr hnamed⟩
    exact hmatchers _ _ [c] [.object 2] hm hn hconstructed rfl (List.forall_mem_singleton.mpr hnot)

/-- **The wildcard is mistaken** for what is made under the plain name of its kind, which accepts nothing. -/
theorem exists_mistaken :
    ∃ v w s₁ s₂, (Action.condition (.kind .wildcard) none).on (holding []) = (.ok v, s₁) ∧
      (Action.condition (.scalar (.text (text "wildcard"))) none).on s₁ = (.ok w, s₂) ∧
      s₂.agrees v w = .ok true ∧ s₂.isWildcard v = .ok true ∧ s₂.isWildcard w = .ok false ∧
      ∀ t, s₂.acceptance v t = .ok true ∧ s₂.acceptance w t = .ok false := by
  refine ⟨.condition .any, .object 2, holding [], (holding []).addCell (.labelled (.scalar (.text (text "wildcard"))) ∅),
    rfl, rfl, rfl, rfl, isWildcard_labelled rfl, fun t => ⟨?_, ?_⟩⟩
  · rw [(IsCondition.proper _).acceptance]
    rfl
  · rw [acceptance_labelled rfl]
    rfl

end Store

end TopicFilter
