import TopicFilter.Proofs.Session.Performing

/-!
# Proofs/Session/Assigning — what an assignment leaves, and what a run does

An assignment replaces one part of one thing, notes one attribute, or changes nothing (`on_assign_cases`). All else that
a step does keeps what is fixed (`step_cases`). So whatever lasts while what is fixed is kept, and over each assignment
that a run makes, lasts over the whole run (`run_induction`).
-/

namespace TopicFilter

namespace Action

variable {α β : Type} {c d : Cell} {name : Text} {x : Value}

/-! ## Computations that change nothing -/

/-- The computation leaves the store as it is. -/
def Idle (x : Action α) : Prop := ∀ s, (x.on s).2 = s

namespace Idle

theorem pure (a : α) : (Pure.pure a : Action α).Idle := fun _ => rfl

theorem throw (fault : Fault) : (MonadExcept.throw fault : Action α).Idle := fun _ => rfl

theorem failAs (fault : String → Fault) (v : Value) : (Action.failAs fault v : Action α).Idle := fun _ => rfl

theorem get : (MonadState.get : Action Store).Idle := fun _ => rfl

theorem cellOf? (v : Value) : (Action.cellOf? v).Idle := fun _ => rfl

theorem bind {x : Action α} {f : α → Action β} (hx : x.Idle) (hf : ∀ a, (f a).Idle) : (x >>= f).Idle := by
  intro s
  rw [on_bind]
  have hs := hx s
  rcases h : x.on s with ⟨_ | a, s'⟩ <;> rw [h] at hs
  · exact hs
  · exact (hf a s').trans hs

end Idle

/-- An assignment to a reserved name changes nothing. -/
theorem idle_assignReserved {otherwise : Action Unit} (owner : String) (name : Text) (x : Value)
    (h : otherwise.Idle) : (assignReserved owner name x otherwise).Idle := by
  unfold assignReserved
  split
  · exact .failAs _ _
  · split
    · refine .bind (.cellOf? x) fun _ => ?_
      split
      · exact .pure _
      · exact .failAs _ _
    · split
      · exact .throw _
      · exact h

theorem idle_refuseAttribute (target : Value) (name : Text) (x : Value) : (refuseAttribute target name x).Idle := by
  refine .bind .get fun _ => ?_
  dsimp only
  split
  · exact .throw _
  · split
    · exact .failAs _ _
    · split
      · exact .throw _
      · exact .throw _

theorem idle_assignToSettings (name : Text) (x : Value) : (assignToSettings name x).Idle := by
  unfold assignToSettings
  split
  · refine idle_assignReserved _ _ _ ?_
    split
    · exact .throw _
    · exact .pure _
  · exact .throw _

theorem idle_assignToKind (name : Text) (x : Value) : (assignToKind name x).Idle := by
  refine idle_assignReserved _ _ _ ?_
  split
  · exact .throw _
  · exact .pure _

theorem idle_assignToPath (p : Path) (name : Text) (x : Value) : (assignToPath p name x).Idle := by
  unfold assignToPath
  split
  · exact .pure _
  · split
    · exact .throw _
    · exact idle_refuseAttribute _ _ _

/-! ## What an assignment leaves -/

/-- With another value for a part a thing is still one of its class. -/
theorem cellClassName_of_replacePart? (h : replacePart? c name x = some d) :
    Store.cellClassName d = Store.cellClassName c := by
  unfold replacePart? at h
  split at h
  all_goals repeat' split at h
  all_goals first | cases h; rfl | cases h

/-- What can be assigned of a thing with attributes of its own is a part of it or an attribute to be noted. -/
theorem on_assignToCell_cases (a : Address) (c : Cell) (name : Text) (x : Value) (s : Store) :
    ((assignToCell a c name x).on s).2 = s ∨
      (∃ d, replacePart? c name x = some d ∧ ((assignToCell a c name x).on s).2 = s.setCell a d) ∨
      ((assignToCell a c name x).on s).2 = s.addAttribute a name x := by
  unfold assignToCell
  split
  · exact .inl rfl
  · split
    · next d hd => exact .inr (.inl ⟨d, hd, rfl⟩)
    · exact .inr (.inr rfl)

/-- **What an assignment leaves**: the store as it was, or one in which a part of the target is another, or one in which
an attribute of the target is noted. -/
theorem on_assign_cases (target : Value) (name : Text) (x : Value) (s : Store) :
    ((assign target name x).on s).2 = s ∨ ∃ a c, target = .object a ∧ s.cell? a = some c ∧
      ((∃ d, replacePart? c name x = some d ∧ ((assign target name x).on s).2 = s.setCell a d) ∨
        ((assign target name x).on s).2 = s.addAttribute a name x) := by
  rw [assign, on_bind_ok (on_cellOf? target s)]
  split
  · exact .inl rfl
  · exact .inl rfl
  · exact .inl rfl
  · exact .inl (idle_assignToSettings name x s)
  · exact .inl (idle_assignToKind name x s)
  · exact .inl (idle_assignToPath _ name x s)
  · next a c _ hc =>
    split
    · next owner _ =>
      -- a reserved name changes nothing, and every other one goes to the cell
      by_cases hreserved : name = className ∨ name = tableName ∨ name = referencesName
      · have hsame : (assignReserved owner name x (assignToCell a c name x)) =
            assignReserved owner name x (return ()) := by
          rcases hreserved with rfl | rfl | rfl <;> simp [assignReserved]
        rw [hsame]
        exact .inl (idle_assignReserved owner name x (.pure _) s)
      · have hcell : (assignReserved owner name x (assignToCell a c name x)) = assignToCell a c name x := by
          simp only [not_or] at hreserved
          rw [assignReserved, if_neg hreserved.1, if_neg hreserved.2.1, if_neg hreserved.2.2]
        rw [hcell]
        exact (on_assignToCell_cases a c name x s).imp_right fun h => ⟨a, c, rfl, hc, h⟩
    · exact .inl (idle_refuseAttribute _ name x s)
  · exact .inl (idle_refuseAttribute _ name x s)

end Action

namespace Store

variable {s : Store} {st : Step} {steps : List Step}

/-! ## Steps -/

/-- The step assigns an attribute of a value. -/
def Assigns (s : Store) (st : Step) (v : Value) (name : Text) : Prop :=
  ∃ target value, st.operation = .assign target name value ∧ ((Action.make target).on (s.surround st)).1 = .ok v

theorem keeps_surround : s.Keeps (s.surround st) := .of_eq rfl rfl

/-- What comes after a computation keeps what is fixed, if it is steady. -/
theorem keeps_on_bind {α β : Type} {x : Action α} {f : α → Action β} (hf : ∀ a, (f a).Steady) (s : Store) :
    (x.on s).2.Keeps ((x >>= f).on s).2 := by
  rw [Action.on_bind]
  rcases x.on s with ⟨_ | a, s'⟩
  · exact .refl s'
  · exact (hf a s').1

/-- A step ends with keeping what the operation comes to. -/
theorem keeps_step (s : Store) (st : Step) :
    ((Action.perform st.operation).on (s.surround st)).2.Keeps (s.step st).2 := by
  have hrest : ∀ outcome, (Action.keep st.keepAs outcome >>= fun _ => pure outcome : Action Outcome).Steady :=
    fun outcome => .bind (Action.steady_keep _ outcome) fun _ => .pure _
  exact keeps_on_bind hrest _

/-- **A step keeps what is fixed, but for one assignment.** -/
theorem step_cases (s : Store) (st : Step) :
    s.Keeps (s.step st).2 ∨ ∃ v name x s₁, s.Assigns st v name ∧ s.Keeps s₁ ∧
      ((Action.assign v name x).on s₁).2.Keeps (s.step st).2 := by
  by_cases hassign : st.operation.isAssignment = true
  · obtain ⟨target, name, value, hop⟩ : ∃ target name value, st.operation = .assign target name value := by
      cases hop : st.operation with
      | assign target name value => exact ⟨target, name, value, rfl⟩
      | _ => rw [hop] at hassign; cases hassign
    have hstep := keeps_step s st
    rw [hop, Action.perform, Action.on_bind] at hstep
    have htarget := (Action.steady_make target (s.surround st)).1
    rcases hv : (Action.make target).on (s.surround st) with ⟨_ | v, s₁⟩ <;> rw [hv] at hstep htarget
    · exact .inl (keeps_surround.trans (htarget.trans hstep))
    · have hvalue := (Action.steady_make value s₁).1
      dsimp only at hstep
      rw [Action.on_bind] at hstep
      rcases hx : (Action.make value).on s₁ with ⟨_ | x, s₂⟩ <;> rw [hx] at hstep hvalue
      · exact .inl (keeps_surround.trans (htarget.trans (hvalue.trans hstep)))
      · have hmakes : s.Assigns st v name := ⟨target, value, hop, by rw [hv]⟩
        have hanswer := keeps_on_bind (x := Action.assign v name x) (fun _ => Action.steady_answer .none) s₂
        exact .inr ⟨v, name, x, s₂, hmakes, keeps_surround.trans (htarget.trans hvalue), hanswer.trans hstep⟩
  · have hperform := (Action.steady_perform st.operation (Bool.eq_false_iff.mpr hassign) (s.surround st)).1
    exact .inl (keeps_surround.trans (hperform.trans (keeps_step s st)))

/-! ## Runs -/

theorem run_append (s : Store) (before after : List Step) :
    (s.run (before ++ after)).2 = ((s.run before).2.run after).2 := by
  induction before generalizing s with
  | nil => rfl
  | cons st sts ih => exact ih (s.step st).2

/-- None of some steps, taken in order, makes one of some assignments. -/
def Avoids (s : Store) (P : Value → Text → Prop) : List Step → Prop
  | [] => True
  | st :: sts => (∀ v name, s.Assigns st v name → ¬ P v name) ∧ (s.step st).2.Avoids P sts

/-- **What lasts over each step lasts over a run**: a property of stores that lasts while what is fixed is kept and over
every assignment outside of some, over a run that makes none of those. -/
theorem run_induction {P : Value → Text → Prop} {I : Store → Prop} (hkeep : ∀ s s' : Store, I s → s.Keeps s' → I s')
    (hassign : ∀ (s : Store) v name x, I s → ¬ P v name → I ((Action.assign v name x).on s).2) (h : I s)
    (havoid : s.Avoids P steps) : I (s.run steps).2 := by
  induction steps generalizing s with
  | nil => exact h
  | cons st sts ih =>
    obtain ⟨hst, hsts⟩ := havoid
    refine ih ?_ hsts
    rcases step_cases s st with hs | ⟨v, name, x, s₁, hmakes, hs₁, hs⟩
    · exact hkeep _ _ h hs
    · exact hkeep _ _ (hassign _ v name x (hkeep _ _ h hs₁) (hst v name hmakes)) hs

end Store

end TopicFilter
