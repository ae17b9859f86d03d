import TopicFilter.Proofs.Deriver.Deriving
import TopicFilter.Proofs.Matcher.Standing

/-!
# Proofs/Matcher/Building — what is built stands

A matcher is built from positions (`Action.compile`) or from payloads (`Action.ofPayloads`). Conditions can always be
compiled (`exists_on_compiled`), and what comes out is a new matcher over them (`of_on_compiled`). `s.Built m` says
that a value was built either way, at some time before; `Built.exists_matcherOver` is what all statements about built
matchers start from.
-/

namespace TopicFilter

namespace Store

variable {s s' : Store} {m v : Value} {members : List Value}

/-! ## Compiling conditions -/

/-- The store with a new matcher over some members. -/
def withMatcher (s : Store) (members : List Value) : Store :=
  (s.addCell (.items .tuple members)).addCell (.matcher (.object s.cells.length))

/-- The address of the next matcher. -/
def nextMatcher (s : Store) : Value := .object (s.cells.length + 1)

theorem nextMatcher_eq (s : Store) (members : List Value) :
    s.nextMatcher = .object (s.addCell (.items .tuple members)).cells.length := by
  rw [length_cells_addCell, nextMatcher]

/-- The store with a report more. -/
def reporting (s : Store) (entry : LogEntry) : Store := { s with log := s.log ++ [entry] }

theorem keeps_withMatcher : s.Keeps (s.withMatcher members) := Keeps.addCell.trans Keeps.addCell

theorem keeps_reporting (entry : LogEntry) : s.Keeps (s.reporting entry) := KeepsBut.of_eq rfl rfl

theorem holds_withMatcher : (s.withMatcher members).Holds s.nextMatcher members := by
  rw [nextMatcher_eq]
  refine ⟨_, s.cells.length, rfl, cell?_addCell_self, ?_⟩
  exact (cell?_addCell_of_lt (by simp)).trans cell?_addCell_self

theorem matcherOver_withMatcher (h : ∀ v ∈ members, s.IsCondition v) :
    (s.withMatcher members).MatcherOver s.nextMatcher members := by
  refine ⟨holds_withMatcher, fun name => ?_, fun v hv => (h v hv).keep keeps_withMatcher⟩
  rw [nextMatcher_eq]
  exact assigned?_addCell_self

/-- A matcher that can be shown is reported as it is shown. -/
theorem on_compiled {shown : Text} (h : (s.withMatcher members).quoted s.nextMatcher = .ok shown) :
    (Action.compiled members).on s =
      (.ok s.nextMatcher, (s.withMatcher members).reporting (Matcher.reportAs shown)) := by
  have hquoted : (Action.quoted s.nextMatcher).on (s.withMatcher members) = (.ok shown, s.withMatcher members) := by
    rw [Action.quoted, Action.on_inquire, h]
  rw [Action.compiled, Action.on_bind_ok (Action.on_collect _ _ _), Action.on_bind_ok (Action.on_allocate _ _),
    ← nextMatcher_eq]
  exact (Action.on_bind_ok hquoted).trans rfl

/-- **Conditions are compiled to a matcher over them**, which is reported as it is shown from then on. -/
theorem exists_on_compiled (h : ∀ v ∈ members, s.IsCondition v) :
    ∃ m s' shown, (Action.compiled members).on s = (.ok m, s') ∧ s'.Holds m members ∧
      s'.log = s.log ++ [Matcher.reportAs shown] ∧ ∀ s'', s'.Keeps s'' → s''.quoted m = .ok shown := by
  have hover := matcherOver_withMatcher h
  obtain ⟨shown, hshown⟩ := hover.exists_quoted
  have hkeep : (s.withMatcher members).Keeps ((s.withMatcher members).reporting (Matcher.reportAs shown)) :=
    keeps_reporting _
  refine ⟨_, _, shown, on_compiled hshown, hover.cells.keep hkeep, rfl, fun s'' hs => ?_⟩
  rw [hover.quoted_keep (hkeep.trans hs), hshown]

/-- …and if each has one of the two kinds, the report shows the matcher over them. -/
theorem on_compiled_conditions (s : Store) (M : Matcher) :
    (Action.compiled (M.conditions.map .condition)).on s =
      (.ok s.nextMatcher, (s.withMatcher (M.conditions.map .condition)).reporting M.report) :=
  on_compiled holds_withMatcher.quoted

/-- **Conditions of the two kinds can always be compiled**, to the matcher over them, which is reported, and all that was
there is kept. -/
theorem exists_on_bind_compiled {conditions : Action (List Value)} {s₁ : Store} {M : Matcher}
    (h : conditions.on s = (.ok (M.conditions.map .condition), s₁)) :
    ∃ m s', (conditions >>= Action.compiled).on s = (.ok m, s') ∧ s'.Stands m M ∧
      (∀ may, s₁.KeepsBut may s') ∧ s'.log = s₁.log ++ [M.report] := by
  have hmembers : ∀ v ∈ M.conditions.map .condition, s₁.IsCondition v := fun v => isCondition_of_mem_map
  refine ⟨_, _, (Action.on_bind_ok h).trans (on_compiled_conditions s₁ M), ?_, fun may => ?_, rfl⟩
  · exact (matcherOver_withMatcher hmembers).keep (keeps_reporting _)
  · exact .trans .addCell (.trans .addCell (.of_eq rfl rfl))

/-- Whatever is compiled is a new matcher over its members. -/
theorem of_on_compiled (h : (Action.compiled members).on s = (.ok m, s')) :
    m = s.nextMatcher ∧ (s.withMatcher members).Keeps s' := by
  rw [Action.compiled, Action.on_bind_ok (Action.on_collect _ _ _), Action.on_bind_ok (Action.on_allocate _ _),
    ← nextMatcher_eq] at h
  obtain ⟨shown, s₁, hshown, h⟩ := Action.of_on_bind_ok h
  obtain ⟨_, rfl⟩ := Prod.mk.inj ((Action.on_inquire _ _).symm.trans hshown)
  obtain ⟨hm, rfl⟩ := Prod.mk.inj h
  exact ⟨(Except.ok.inj hm).symm, keeps_reporting _⟩

theorem steady_compiled (members : List Value) : (Action.compiled members).Steady := by
  refine .bind (.collect _ _) fun _ => .bind (.allocate _) fun _ => .bind (.inquire _) fun _ => ?_
  exact .bind (.report _) fun _ => .pure _

/-! ## Conditions on the way -/

theorem steady_hashed (v : Value) : (Action.hashed v).Steady := .bind (.inquire _) fun _ => .pure _

theorem steady_hashedItems (v : Value) : (Action.hashedItems v).Steady := .forEach steady_hashed v

theorem steady_memberTopics (vs : List Value) : (Action.memberTopics vs).Steady := by
  have hmember : ∀ v, (Action.memberTopic v).Steady := fun v => by
    unfold Action.memberTopic
    split
    · exact .pure _
    · exact .failAs _ _
  exact .bind .get fun _ => .bind (.eachOf hmember _) fun _ => .pure _

theorem steady_conditionOn (v : Value) : (Action.conditionOn v).Steady := by
  unfold Action.conditionOn
  split
  · exact .pure _
  · refine .bind (.bytes? _) fun _ => ?_
    split
    · exact .failAs _ _
    · exact .bind (steady_hashedItems v) fun members => .bind (steady_memberTopics members) fun _ => .pure _

theorem ensures_conditionOf (v : Value) (s : Store) :
    (Action.conditionOf v).Ensures s fun r s' => s'.IsCondition r := by
  have his : (Action.isCondition v).Ensures s fun b s' => b = (s'.conditionParts? v).isSome :=
    .of_on rfl fun _ h => (Except.ok.inj h).symm
  refine .bind his fun b s₁ _ hb => ?_
  split
  · next h => exact .pure (isCondition_of_isSome (hb ▸ h))
  · exact .bind (steady_conditionOn v s₁) fun c s₂ _ _ => .pure (.proper c)

theorem ensures_conditionOfPayloads (d v : Value) (s : Store) :
    (Action.conditionOfPayloads d v).Ensures s fun r s' => s'.IsCondition r := by
  unfold Action.conditionOfPayloads
  split
  · exact .pure (.proper _)
  · exact .bind (Action.steady_deriveMany d _ s) fun ts s' _ _ => .pure (.proper _)

/-- **Compiling keeps what is fixed**, also when it fails. -/
theorem steady_compile (p : Value) : (Action.compile p).Steady :=
  .bind (.forEach (fun v => .ensures (ensures_conditionOf v)) p) steady_compiled

/-! ## Matchers that were built -/

/-- The value came out of a computation that builds matchers, and what is fixed was kept since. -/
def Built (s : Store) (m : Value) : Prop :=
  ∃ s₀ s₁ build, ((∃ p, build = Action.compile p) ∨ ∃ p d, build = Action.ofPayloads p d) ∧
    build.on s₀ = (.ok m, s₁) ∧ s₁.Keeps s

theorem Built.keep (h : s.Built m) (hs : s.Keeps s') : s'.Built m := by
  obtain ⟨s₀, s₁, build, hbuild, hm, hkeep⟩ := h
  exact ⟨s₀, s₁, build, hbuild, hm, hkeep.trans hs⟩

/-- Whatever comes out of compiling conditions is a matcher over them. -/
theorem matcherOver_of_on_bind {conditions : Action (List Value)} {s₀ s₁ : Store}
    (hcond : conditions.Ensures s₀ fun rs s' => ∀ r ∈ rs, s'.IsCondition r)
    (h : (conditions >>= Action.compiled).on s₀ = (.ok m, s₁)) : ∃ members, s₁.MatcherOver m members := by
  obtain ⟨members, s', hmembers, hm⟩ := Action.of_on_bind_ok h
  obtain ⟨rfl, hkeep⟩ := of_on_compiled hm
  exact ⟨members, (matcherOver_withMatcher (hcond.2 members s' hmembers)).keep hkeep⟩

/-- **What was built is a matcher over conditions.** -/
theorem Built.exists_matcherOver (h : s.Built m) : ∃ members, s.MatcherOver m members := by
  obtain ⟨s₀, s₁, build, hbuild, hm, hkeep⟩ := h
  have hlast : ∀ (r : Value) (s s' : Store), s.IsCondition r → s.Keeps s' → s'.IsCondition r :=
    fun _ _ _ h hs => h.keep hs
  have hover : ∃ members, s₁.MatcherOver m members := by
    rcases hbuild with ⟨p, rfl⟩ | ⟨p, d, rfl⟩
    · exact matcherOver_of_on_bind (.forEach hlast ensures_conditionOf p) hm
    · exact matcherOver_of_on_bind (.forEach hlast (ensures_conditionOfPayloads d) p) hm
  obtain ⟨members, hmembers⟩ := hover
  exact ⟨members, hmembers.keep hkeep⟩

/-- What a matcher holds is one list of members. -/
theorem Holds.unique {members' : List Value} (h : s.Holds m members) (h' : s.Holds m members') :
    members = members' := by
  obtain ⟨a, t, rfl, ha, ht⟩ := h
  obtain ⟨a', t', ha', hm', ht'⟩ := h'
  obtain rfl : a = a' := Value.object.inj ha'
  obtain rfl : t = t' := by simpa using ha.symm.trans hm'
  simpa using ht.symm.trans ht'

/-- A matcher that was built stands for what it holds, if each condition is of one of the two kinds. -/
theorem Built.stands {M : Matcher} (h : s.Built m) (hm : s.Holds m (M.conditions.map .condition)) :
    s.Stands m M := by
  obtain ⟨members, hmembers⟩ := h.exists_matcherOver
  obtain rfl := hm.unique hmembers.cells
  exact hmembers

end Store

end TopicFilter
