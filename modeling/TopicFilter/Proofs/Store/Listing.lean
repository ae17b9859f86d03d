import Mathlib.Data.List.Forall2
import TopicFilter.Proofs.Store.Keeping

/-!
# Proofs/Store/Listing — what is seen of a value that is gone through

`s.Sequence v items` says that a value is a list or a tuple of some items. Going through any value with a computation
that only reads gives one result for each item (`on_forEach`), and leaves the store as it was but for an iterator,
which is empty afterwards (`Store.drained`). Going through a value with computations that keep what is fixed keeps it.
-/

namespace TopicFilter

namespace Store

variable {s s' : Store} {v w : Value} {a : Address} {shape : Shape} {items : List Value}

/-- The value is a list or a tuple of some items. -/
def Sequence (s : Store) (v : Value) (items : List Value) : Prop :=
  ∃ a shape, v = .object a ∧ (shape = .list ∨ shape = .tuple) ∧ s.cell? a = some (.items shape items)

/-- The value is an iterator. -/
def IsIterator (s : Store) (v : Value) : Prop := ∃ items, s.cellOf? v = some (.items .iterator items)

/-- The store once a value has been gone through: an iterator has nothing left. -/
def drained (s : Store) (v : Value) : Store :=
  match v, s.cellOf? v with
  | .object a, some (.items .iterator _) => s.setCell a (.items .iterator [])
  | _, _ => s

theorem items?_object (h : s.cell? a = some (.items shape items)) : s.items? (.object a) = some items := by
  simp [items?, Value.text?, bytes?, cellOf?, h]

theorem items?_object_dict {entries : List (Value × Value)} (h : s.cell? a = some (.dict entries)) :
    s.items? (.object a) = some (entries.map (·.1)) := by
  simp [items?, Value.text?, bytes?, cellOf?, h]

theorem drained_of_iterator (h : s.cell? a = some (.items .iterator items)) :
    s.drained (.object a) = s.setCell a (.items .iterator []) := by
  simp [drained, cellOf?, h]

/-- An iterator stands in a cell, with the items that it has left. -/
theorem IsIterator.exists_cell (h : s.IsIterator v) (hi : s.items? v = some items) :
    ∃ a, v = .object a ∧ s.cell? a = some (.items .iterator items) := by
  obtain ⟨items', hc⟩ := h
  cases v with
  | object a =>
    have ha : s.cell? a = some (.items .iterator items') := hc
    obtain rfl : items = items' := Option.some.inj (hi.symm.trans (items?_object ha))
    exact ⟨a, rfl, ha⟩
  | _ => cases hc

theorem drained_of_not_isIterator (h : ¬ s.IsIterator v) : s.drained v = s := by
  unfold drained
  split
  · next items hc => exact absurd ⟨items, hc⟩ h
  · rfl

namespace Sequence

theorem items? (h : s.Sequence v items) : s.items? v = some items := by
  obtain ⟨a, shape, rfl, _, hc⟩ := h
  exact items?_object hc

theorem itemsOf (h : s.Sequence v items) : s.itemsOf v = .ok items := by
  rw [Store.itemsOf, h.items?]

theorem not_isIterator (h : s.Sequence v items) : ¬ s.IsIterator v := by
  obtain ⟨a, shape, rfl, hs, hc⟩ := h
  rintro ⟨items', hi⟩
  obtain ⟨rfl, _⟩ : shape = .iterator ∧ items = items' := by
    simpa using hc.symm.trans (show s.cell? a = _ from hi)
  rcases hs with hs | hs <;> cases hs

/-- A list or a tuple is as long as it has items. -/
theorem lengthWithin (h : s.Sequence v items) (fuel : Nat) :
    s.lengthWithin (fuel + 1) v = .ok items.length := by
  obtain ⟨a, shape, rfl, hs, hc⟩ := h
  rcases hs with rfl | rfl <;> simp [Store.lengthWithin, cellOf?, hc, items?_object hc]

theorem on_length (h : s.Sequence v items) : (Action.length v).on s = (.ok items.length, s) := by
  rw [Action.length, Action.on_bind_ok (Action.on_get s), Action.on_inquire, depth, h.lengthWithin]

/-- A change to other cells does not show. -/
theorem keep {may : Address → Prop} (h : s.Sequence v items) (hs : s.KeepsBut may s')
    (hm : ∀ a, v = .object a → ¬ may a) : s'.Sequence v items := by
  obtain ⟨a, shape, rfl, hshape, hc⟩ := h
  exact ⟨a, shape, rfl, hshape, hs.cell hc (hm a rfl)⟩

end Sequence

end Store

namespace Action

variable {α : Type} {s s' : Store} {v : Value} {a : Address} {items : List Value}

/-! ## Going through a value -/

theorem on_source_of_not_isIterator (hi : s.items? v = some items) (hn : ¬ s.IsIterator v) :
    (source v).on s = (.ok (.lasting items), s) := by
  rw [source, on_bind_ok (on_cellOf? v s)]
  split
  · next a items' hc => exact absurd ⟨items', hc⟩ hn
  · next x _ _ => simp [Store.items?, Value.text?, Store.bytes?, Store.cellOf?] at hi
  · rw [on_bind_ok (a := items)]
    · rfl
    · rw [on_inquire, Store.itemsOf, hi]

theorem on_source_of_iterator (h : s.cell? a = some (.items .iterator items)) :
    (source (.object a)).on s = (.ok (.draining a items), s) := by
  rw [source, on_bind_ok (on_cellOf? _ s)]
  simp [Store.cellOf?, h]

/-- An iterator is gone through to its end. -/
theorem on_drain {f : Value → Action α} {g : Value → α}
    (hf : ∀ v ∈ items, ∀ s : Store, (f v).on s = (.ok (g v), s))
    (h : s.cell? a = some (.items .iterator items)) :
    (drain a f items).on s = (.ok (items.map g), s.setCell a (.items .iterator [])) := by
  induction items generalizing s with
  | nil =>
    rw [Store.setCell_self h]
    rfl
  | cons v items ih =>
    obtain ⟨hv, hitems⟩ := List.forall_mem_cons.mp hf
    rw [drain, on_bind_ok (on_setCell _ _ _), on_bind_ok (hv _),
      on_bind_ok (ih hitems (Store.cell?_setCell_self (Store.lt_length_of_cell? h))),
      Store.setCell_setCell]
    rfl

/-- **Going through a value with a computation that only reads** gives a result for each item, and empties an
iterator. -/
theorem on_forEach {f : Value → Action α} {g : Value → α} (hi : s.items? v = some items)
    (hf : ∀ v ∈ items, ∀ s : Store, (f v).on s = (.ok (g v), s)) :
    (forEach v f).on s = (.ok (items.map g), s.drained v) := by
  by_cases hv : s.IsIterator v
  · obtain ⟨a, rfl, ha⟩ := hv.exists_cell hi
    rw [forEach, on_bind_ok (on_source_of_iterator ha), Store.drained_of_iterator ha]
    exact on_drain hf ha
  · rw [forEach, on_bind_ok (on_source_of_not_isIterator hi hv), Store.drained_of_not_isIterator hv]
    exact on_eachOf fun w hw => hf w hw s

theorem on_forEach_sequence {f : Value → Action α} (h : s.Sequence v items) :
    (forEach v f).on s = (eachOf f items).on s := by
  rw [forEach, on_bind_ok (on_source_of_not_isIterator h.items? h.not_isIterator)]

/-- **What a computation comes to on each item** stays what it is while the others are done, as long as only cells
change that the items do not depend on. -/
theorem exists_on_eachOf {β : Type} {f : Value → Action α} {g : β → α} {R : Value → β → Prop}
    {may : Address → Prop} {vs : List Value} {bs : List β}
    (hf : ∀ s₁ v b, s.KeepsBut may s₁ → R v b → ∃ s₂, (f v).on s₁ = (.ok (g b), s₂) ∧ s₁.KeepsBut may s₂)
    (h : List.Forall₂ R vs bs) (hs : s.KeepsBut may s') :
    ∃ s'', (eachOf f vs).on s' = (.ok (bs.map g), s'') ∧ s'.KeepsBut may s'' := by
  induction h generalizing s' with
  | nil => exact ⟨s', rfl, .refl s'⟩
  | @cons v b vs bs hv _ ih =>
    obtain ⟨s₁, hon, hkeeps⟩ := hf s' v b hs hv
    obtain ⟨s₂, hons, hkeeps'⟩ := ih (hs.trans hkeeps)
    refine ⟨s₂, ?_, hkeeps.trans hkeeps'⟩
    rw [eachOf, on_bind_ok hon, on_bind_ok hons]
    rfl

/-! ## Keeping on the way

A property of a result has to last through the computations on the later items: `hQ`. -/

namespace Ensures

variable {f : Value → Action α} {Q : α → Store → Prop}

theorem eachOf (hQ : ∀ r s s', Q r s → s.Keeps s' → Q r s') (hf : ∀ v s, (f v).Ensures s Q)
    (vs : List Value) (s : Store) :
    (Action.eachOf f vs).Ensures s fun rs s' => ∀ r ∈ rs, Q r s' := by
  induction vs generalizing s with
  | nil => exact .pure (by simp)
  | cons v vs ih =>
    refine .bind (hf v s) fun r s₁ _ hr => .bind (ih s₁) fun rs s₂ hk hrs => ?_
    exact .pure (List.forall_mem_cons.mpr ⟨hQ r s₁ s₂ hr hk, hrs⟩)

/-- An iterator stays one while it is gone through, so that taking from it keeps what is fixed. -/
theorem drain (hQ : ∀ r s s', Q r s → s.Keeps s' → Q r s') (hf : ∀ v s, (f v).Ensures s Q) {c : Cell}
    (vs : List Value) (h : s.cell? a = some c)
    (hc : Store.cellClassName (.items .iterator []) = Store.cellClassName c) :
    (Action.drain a f vs).Ensures s fun rs s' => ∀ r ∈ rs, Q r s' := by
  induction vs generalizing s c with
  | nil => exact .pure (by simp)
  | cons v vs ih =>
    have hset : s.Keeps (s.setCell a (.items .iterator vs)) :=
      .setCell h (Store.isMutable_congr hc).symm hc
    have hcell := Store.cell?_setCell_self (c := .items .iterator vs) (Store.lt_length_of_cell? h)
    refine .bind (P := fun _ s₁ => s₁.cell? a = some (.items .iterator vs)) ⟨hset, ?_⟩ ?_
    · rintro _ _ ⟨⟩
      exact hcell
    · intro _ s₁ _ hs₁
      refine .bind (hf v s₁) fun r s₂ hk₂ hr => ?_
      obtain ⟨d, hd, hdc⟩ := hk₂.sameClass hs₁
      refine .bind (ih hd hdc.symm) fun rs s₃ hk₃ hrs => ?_
      exact .pure (List.forall_mem_cons.mpr ⟨hQ r s₂ s₃ hr hk₃, hrs⟩)

theorem source (v : Value) : (Action.source v).Ensures s fun src s' =>
    ∀ a items, src = .draining a items → s'.cell? a = some (.items .iterator items) := by
  refine .bind (.cellOf? v) fun c s' _ hc => ?_
  split
  · next a items =>
    refine .pure ?_
    rintro _ _ ⟨⟩
    exact hc
  · have hpairs : ∀ fields, (fieldPairs fields).Steady := fun fields => by
      refine .bind (.collect _ _) fun _ => .bind (.collect _ _) fun _ => ?_
      exact .bind (.collect _ _) fun _ => .pure _
    exact .bind (hpairs _ s') fun _ _ _ _ => .pure nofun
  · exact .bind (.inquire _) fun _ _ _ _ => .pure nofun

theorem forEach (hQ : ∀ r s s', Q r s → s.Keeps s' → Q r s') (hf : ∀ v s, (f v).Ensures s Q)
    (v : Value) : (Action.forEach v f).Ensures s fun rs s' => ∀ r ∈ rs, Q r s' := by
  refine .bind (.source v) fun src s' _ hsrc => ?_
  cases src with
  | lasting items => exact .eachOf hQ hf items s'
  | draining a items => exact .drain hQ hf items (hsrc a items rfl) rfl

end Ensures

namespace Steady

variable {f : Value → Action α}

theorem eachOf (hf : ∀ v, (f v).Steady) (vs : List Value) : (Action.eachOf f vs).Steady :=
  .ensures (.eachOf (fun _ _ _ _ _ => trivial) hf vs)

theorem forEach (hf : ∀ v, (f v).Steady) (v : Value) : (Action.forEach v f).Steady :=
  .ensures fun _ => .forEach (fun _ _ _ _ _ => trivial) hf v

theorem length (v : Value) : (Action.length v).Steady := .bind .get fun _ => .inquire _

end Steady

end Action

end TopicFilter
