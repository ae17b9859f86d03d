import TopicFilter.Proofs.Store.Listing

/-!
# Proofs/Store/Taking — items taken one after another, up to the first that fails

Before a computation runs on an item, an iterator has lost the item: `s.left it back` is the store in which an iterator
has only `back` left. `Passes f it back s front rs s'` says that the items `front` are taken in this way, with `back` to
come after them, and that the computation comes to `rs` on them. Either it passes on all items, or there is a first one
on which it fails, and so going through a value comes to one or the other: `on_forEach_eq_ok_iff` and
`on_forEach_eq_error_iff`.
-/

namespace TopicFilter

namespace Store

variable {s : Store} {v : Value} {a : Address} {items back : List Value} {it : Option Address}

/-- The address of an iterator. -/
def iterator? (s : Store) (v : Value) : Option Address :=
  match v, s.cellOf? v with
  | .object a, some (.items .iterator _) => some a
  | _, _ => none

/-- The store once an iterator has only some items left; without an iterator it is as it was. -/
def left (s : Store) : (it : Option Address) → (back : List Value) → Store
  | some a, back => s.setCell a (.items .iterator back)
  | none, _ => s

@[simp] theorem left_none (s : Store) (back : List Value) : s.left none back = s := rfl

@[simp] theorem left_some (s : Store) (a : Address) (back : List Value) :
    s.left (some a) back = s.setCell a (.items .iterator back) := rfl

@[simp] theorem left_left (s : Store) (it : Option Address) (back back' : List Value) :
    (s.left it back).left it back' = s.left it back' := by
  cases it with
  | none => rfl
  | some a => exact setCell_setCell

@[simp] theorem log_left (s : Store) (it : Option Address) (back : List Value) : (s.left it back).log = s.log := by
  cases it <;> rfl

theorem iterator?_eq_some_iff : s.iterator? v = some a ↔ v = .object a ∧ s.IsIterator v := by
  unfold iterator?
  split
  · next b items hc => simpa [Eq.comm] using fun _ => ⟨items, hc⟩
  · next hno =>
    refine iff_of_false nofun ?_
    rintro ⟨rfl, items, hc⟩
    exact hno a items rfl hc

theorem iterator?_of_not_isIterator (h : ¬ s.IsIterator v) : s.iterator? v = none :=
  Option.eq_none_iff_forall_ne_some.mpr fun _ ha => h (iterator?_eq_some_iff.mp ha).2

/-- An iterator has some items left. -/
def HasLeft (s : Store) (it : Option Address) (items : List Value) : Prop :=
  ∀ a, it = some a → s.cell? a = some (.items .iterator items)

theorem hasLeft_of_items? (h : s.items? v = some items) : s.HasLeft (s.iterator? v) items := fun a ha => by
  obtain ⟨rfl, hv⟩ := iterator?_eq_some_iff.mp ha
  obtain ⟨b, hb, hc⟩ := hv.exists_cell h
  cases hb
  exact hc

namespace HasLeft

/-- Nothing has to be taken for an iterator to have left what it has. -/
theorem left_eq (h : s.HasLeft it items) : s.left it items = s := by
  cases it with
  | none => rfl
  | some a => exact setCell_self (h a rfl)

theorem left (h : s.HasLeft it items) (back : List Value) : (s.left it back).HasLeft it back := by
  rintro a rfl
  exact cell?_setCell_self (lt_length_of_cell? (h a rfl))

/-- Taking items changes the iterator alone. -/
theorem keepsBut_left (h : s.HasLeft it items) (back : List Value) :
    s.KeepsBut (fun a => it = some a) (s.left it back) := by
  cases it with
  | none => exact .refl s
  | some a => exact .setCell rfl (h a rfl) rfl

end HasLeft

end Store

namespace Action

variable {α : Type} {f : Value → Action α} {it : Option Address} {s s' s₁ : Store} {v : Value} {r : α} {rs : List α}
  {front back items : List Value} {fault : Fault}

/-! ## One item after another -/

/-- A computation on each of some items, which an iterator loses first. -/
def takeEach (f : Value → Action α) (it : Option Address) : List Value → Action (List α)
  | [] => return []
  | v :: vs => do
    modify (·.left it vs)
    let r ← f v
    return r :: (← takeEach f it vs)

theorem on_takeEach_cons (f : Value → Action α) (it : Option Address) (v : Value) (vs : List Value) (s : Store) :
    (takeEach f it (v :: vs)).on s = (do let r ← f v; return r :: (← takeEach f it vs)).on (s.left it vs) :=
  on_bind_ok (a := ()) rfl

theorem drain_eq_takeEach (a : Address) (f : Value → Action α) (vs : List Value) :
    drain a f vs = takeEach f (some a) vs := by
  induction vs with
  | nil => rfl
  | cons v vs ih =>
    rw [drain, takeEach, ih]
    rfl

theorem on_eachOf_eq_takeEach (f : Value → Action α) (vs : List Value) (s : Store) :
    (eachOf f vs).on s = (takeEach f none vs).on s := by
  induction vs generalizing s with
  | nil => rfl
  | cons v vs ih =>
    rw [on_takeEach_cons, Store.left_none, eachOf, on_bind, on_bind]
    rcases (f v).on s with ⟨_ | r, s₁⟩
    · rfl
    · change (eachOf f vs >>= fun rs => pure (r :: rs)).on s₁ =
        (takeEach f none vs >>= fun rs => pure (r :: rs)).on s₁
      rw [on_bind, on_bind, ih]

/-- **Going through a value is taking its items one after another.** -/
theorem on_forEach_eq (f : Value → Action α) (hi : s.items? v = some items) :
    (forEach v f).on s = (takeEach f (s.iterator? v) items).on s := by
  by_cases hv : s.IsIterator v
  · obtain ⟨a, rfl, ha⟩ := hv.exists_cell hi
    rw [forEach, on_bind_ok (on_source_of_iterator ha), Store.iterator?_eq_some_iff.mpr ⟨rfl, hv⟩]
    exact congrArg (·.on s) (drain_eq_takeEach a f items)
  · rw [forEach, on_bind_ok (on_source_of_not_isIterator hi hv), Store.iterator?_of_not_isIterator hv]
    exact on_eachOf_eq_takeEach f items s

/-- Some items are taken in order, with others to come after them, and a computation comes to a result on each. -/
inductive Passes (f : Value → Action α) (it : Option Address) (back : List Value) :
    Store → List Value → List α → Store → Prop where
  /-- Nothing is taken. -/
  | nil (s : Store) : Passes f it back s [] [] s
  /-- An item is taken, and then the others. -/
  | cons {s s₁ s₂ : Store} {v : Value} {r : α} {front : List Value} {rs : List α}
      (hv : (f v).on (s.left it (front ++ back)) = (.ok r, s₁)) (hfront : Passes f it back s₁ front rs s₂) :
      Passes f it back s (v :: front) (r :: rs) s₂

/-- After the items that are taken it goes on with those after them. -/
theorem Passes.on_takeEach_append (h : Passes f it back s front rs s₁) :
    (takeEach f it (front ++ back)).on s =
      (((takeEach f it back).on s₁).1.map (rs ++ ·), ((takeEach f it back).on s₁).2) := by
  induction h with
  | nil s =>
    rw [List.nil_append]
    rcases (takeEach f it back).on s with ⟨_ | _, _⟩ <;> rfl
  | cons hv _ ih =>
    rw [List.cons_append, on_takeEach_cons, on_bind_ok hv, on_bind, ih]
    rcases (takeEach f it back).on _ with ⟨_ | _, _⟩ <;> rfl

theorem Passes.on_takeEach (h : Passes f it [] s items rs s₁) : (takeEach f it items).on s = (.ok rs, s₁) := by
  have happend := h.on_takeEach_append
  rw [List.append_nil] at happend
  rw [happend]
  simp [takeEach, Except.map]

/-- After some items are taken, the computation fails on the next one. -/
def Stops (f : Value → Action α) (it : Option Address) (s : Store) (front : List Value) (v : Value) (back : List Value)
    (fault : Fault) (s' : Store) : Prop :=
  ∃ rs s₁, Passes f it (v :: back) s front rs s₁ ∧ (f v).on (s₁.left it back) = (.error fault, s')

theorem Stops.on_takeEach (h : Stops f it s front v back fault s') :
    (takeEach f it (front ++ v :: back)).on s = (.error fault, s') := by
  obtain ⟨rs, s₁, hfront, hv⟩ := h
  rw [hfront.on_takeEach_append, on_takeEach_cons, on_bind_error hv]
  rfl

/-- **A computation passes on all items, or there is a first on which it fails.** -/
theorem passes_or_stops (f : Value → Action α) (it : Option Address) (items : List Value) (s : Store) :
    (∃ rs s₁, Passes f it [] s items rs s₁) ∨
      ∃ front v back fault s', items = front ++ v :: back ∧ Stops f it s front v back fault s' := by
  induction items generalizing s with
  | nil => exact .inl ⟨[], s, .nil s⟩
  | cons v items ih =>
    rcases hv : (f v).on (s.left it items) with ⟨fault | r, s₁⟩
    · exact .inr ⟨[], v, items, fault, s₁, rfl, [], s, .nil s, hv⟩
    · rcases ih s₁ with ⟨rs, s₂, hrest⟩ | ⟨front, w, back, fault, s', rfl, rs, s₂, hfront, hw⟩
      · exact .inl ⟨r :: rs, s₂, .cons (by rwa [List.append_nil]) hrest⟩
      · exact .inr ⟨v :: front, w, back, fault, s', rfl, r :: rs, s₂, .cons hv hfront, hw⟩

theorem on_takeEach_eq_ok_iff : (takeEach f it items).on s = (.ok rs, s') ↔ Passes f it [] s items rs s' := by
  refine ⟨fun h => ?_, Passes.on_takeEach⟩
  rcases passes_or_stops f it items s with ⟨rs', s₁, hpass⟩ | ⟨_, _, _, _, _, rfl, hstop⟩
  · obtain ⟨hrs, rfl⟩ := Prod.mk.inj (hpass.on_takeEach.symm.trans h)
    exact Except.ok.inj hrs ▸ hpass
  · cases hstop.on_takeEach.symm.trans h

/-- **Going through a value succeeds if the computation passes on each item in order**, and gives the results. -/
theorem on_forEach_eq_ok_iff (hi : s.items? v = some items) :
    (forEach v f).on s = (.ok rs, s') ↔ Passes f (s.iterator? v) [] s items rs s' := by
  rw [on_forEach_eq f hi, on_takeEach_eq_ok_iff]

/-- **It fails as the computation does on the first item on which it fails.** -/
theorem on_forEach_eq_error_iff (hi : s.items? v = some items) :
    (forEach v f).on s = (.error fault, s') ↔
      ∃ front w back, items = front ++ w :: back ∧ Stops f (s.iterator? v) s front w back fault s' := by
  rw [on_forEach_eq f hi]
  constructor
  · intro h
    rcases passes_or_stops f (s.iterator? v) items s with ⟨_, _, hpass⟩ | ⟨front, w, back, _, _, hitems, hstop⟩
    · cases hpass.on_takeEach.symm.trans h
    · subst hitems
      obtain ⟨hfault, rfl⟩ := Prod.mk.inj (hstop.on_takeEach.symm.trans h)
      exact ⟨front, w, back, rfl, Except.error.inj hfault ▸ hstop⟩
  · rintro ⟨front, w, back, rfl, hstop⟩
    exact hstop.on_takeEach

end Action

end TopicFilter
