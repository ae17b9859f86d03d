import TopicFilter.Store.Frames

/-!
# Proofs/Store/Running — what a computation comes to

`x.on s` is the outcome of a computation on a store, together with the store that it leaves. `on_bind` takes a
computation apart at its first step; each primitive has an equation of its own, so that longer computations are
evaluated by rewriting and none of the layers of `Action` is ever opened again.
-/

namespace TopicFilter

namespace Action

variable {α β : Type}

/-- The outcome of a computation on a store, and the store that it leaves. -/
def on (x : Action α) (s : Store) : Except Fault α × Store := x.run.run s

@[simp] theorem on_pure (a : α) (s : Store) : (pure a : Action α).on s = (.ok a, s) := rfl

@[simp] theorem on_throw (fault : Fault) (s : Store) :
    (throw fault : Action α).on s = (.error fault, s) := rfl

/-- **A computation goes on from the store that its first step leaves**, unless that step fails. -/
theorem on_bind (x : Action α) (f : α → Action β) (s : Store) :
    (x >>= f).on s =
      match x.on s with
      | (.ok a, s') => (f a).on s'
      | (.error fault, s') => (.error fault, s') := by
  simp only [on, ExceptT.run_bind, StateT.run_bind]
  rcases x.run.run s with ⟨_ | _, _⟩ <;> rfl

theorem on_bind_ok {x : Action α} {f : α → Action β} {s s' : Store} {a : α}
    (h : x.on s = (.ok a, s')) : (x >>= f).on s = (f a).on s' := by rw [on_bind, h]

theorem on_bind_error {x : Action α} {f : α → Action β} {s s' : Store} {fault : Fault}
    (h : x.on s = (.error fault, s')) : (x >>= f).on s = (.error fault, s') := by rw [on_bind, h]

/-- A computation that succeeds does so step by step. -/
theorem of_on_bind_ok {x : Action α} {f : α → Action β} {s s'' : Store} {b : β}
    (h : (x >>= f).on s = (.ok b, s'')) :
    ∃ a s', x.on s = (.ok a, s') ∧ (f a).on s' = (.ok b, s'') := by
  rw [on_bind] at h
  split at h
  · next a s' hx => exact ⟨a, s', hx, h⟩
  · cases h

@[simp] theorem on_map (f : α → β) (x : Action α) (s : Store) :
    (f <$> x).on s = ((x.on s).1.map f, (x.on s).2) := by
  rw [map_eq_pure_bind, on_bind]
  rcases x.on s with ⟨_ | _, _⟩ <;> rfl

@[simp] theorem on_discard (x : Action α) (s : Store) :
    (discard x : Action Unit).on s = ((x.on s).1.map fun _ => (), (x.on s).2) := on_map _ _ _

@[simp] theorem on_ite {p : Prop} [Decidable p] (x y : Action α) (s : Store) :
    (if p then x else y).on s = if p then x.on s else y.on s := by split <;> rfl

/-! ## Primitives -/

@[simp] theorem on_get (s : Store) : (get : Action Store).on s = (.ok s, s) := rfl

@[simp] theorem on_cellOf? (v : Value) (s : Store) : (cellOf? v).on s = (.ok (s.cellOf? v), s) := rfl

@[simp] theorem on_bytes? (v : Value) (s : Store) : (bytes? v).on s = (.ok (s.bytes? v), s) := rfl

@[simp] theorem on_ofExcept (e : Except Fault α) (s : Store) : (ofExcept e).on s = (e, s) := by
  cases e <;> rfl

@[simp] theorem on_inquire (f : Store → Except Fault α) (s : Store) : (inquire f).on s = (f s, s) := by
  rw [inquire, on_bind_ok (on_get s), on_ofExcept]

@[simp] theorem on_failAs (fault : String → Fault) (v : Value) (s : Store) :
    (failAs fault v : Action α).on s = (.error (fault (s.className v)), s) := rfl

@[simp] theorem on_setCell (a : Address) (c : Cell) (s : Store) :
    (setCell a c).on s = (.ok (), s.setCell a c) := rfl

@[simp] theorem on_allocate (c : Cell) (s : Store) :
    (allocate c).on s = (.ok (.object s.cells.length), s.addCell c) := rfl

@[simp] theorem on_collect (shape : Shape) (items : List Value) (s : Store) :
    (collect shape items).on s = (.ok (.object s.cells.length), s.addCell (.items shape items)) := rfl

@[simp] theorem on_report (entry : LogEntry) (s : Store) :
    (report entry).on s = (.ok (), { s with log := s.log ++ [entry] }) := rfl

@[simp] theorem on_fresh (v : Value) (s : Store) :
    (fresh v).on s = (.ok { value := v, origin := s.nextOrigin }, { s with nextOrigin := s.nextOrigin + 1 }) :=
  rfl

theorem on_inPlace {v : Value} {name : String} {s : Store} (h : s.assigned? v name = none) :
    (inPlace v name).on s = (.ok (), s) := by
  rw [inPlace, on_bind_ok (on_get s), h]
  rfl

/-! ## Items one after another -/

/-- Computations that only read the store are done on each item without regard to the others. -/
theorem on_eachOf_map {f : Value → Action α} {g : β → α} {s : Store} (v : β → Value) {bs : List β}
    (h : ∀ b ∈ bs, (f (v b)).on s = (.ok (g b), s)) :
    (eachOf f (bs.map v)).on s = (.ok (bs.map g), s) := by
  induction bs with
  | nil => rfl
  | cons b bs ih =>
    obtain ⟨hb, hbs⟩ := List.forall_mem_cons.mp h
    rw [List.map_cons, eachOf, on_bind_ok hb, on_bind_ok (ih hbs)]
    rfl

theorem on_eachOf {f : Value → Action α} {g : Value → α} {s : Store} {vs : List Value}
    (h : ∀ v ∈ vs, (f v).on s = (.ok (g v), s)) : (eachOf f vs).on s = (.ok (vs.map g), s) := by
  have hmap := on_eachOf_map id h
  rwa [List.map_id] at hmap

end Action

end TopicFilter
