import TopicFilter.Proofs.Store.Listing

/-!
# Proofs/Store/Noting — what is noted at the end of a list

`s.noted c bs` is the store once some byte strings were hashed by a hasher that notes its calls in the list at `c`. What
is noted does not show anywhere else, so it makes no difference whether it is noted before or after something is gone
through (`drained_noted`). `s.Asked c bs s'` says no more than that these were the calls from `s` to `s'`, and that
nothing was reported.
-/

namespace TopicFilter

namespace Store

variable {s s' s'' : Store} {a c : Address} {v : Value} {bs bs' : List Bytes} {cell : Cell}

/-! ## Notes in a list -/

/-- A list with some byte strings at its end; nothing else changes. -/
def noting (bs : List Bytes) : Cell → Cell
  | .items .list calls => .items .list (calls ++ bs.map fun b => .scalar (.bytes b))
  | cell => cell

theorem noting_cases (cell : Cell) : (∃ calls, cell = .items .list calls) ∨ ∀ bs, noting bs cell = cell := by
  rcases cell with ⟨_ | _ | _ | _ | _, calls⟩ | _ | _ | _ | _ | _ | _ | _ <;>
    first | exact .inl ⟨calls, rfl⟩ | exact .inr fun _ => rfl

@[simp] theorem noting_nil (cell : Cell) : noting [] cell = cell := by
  rcases noting_cases cell with ⟨calls, rfl⟩ | h
  · simp [noting]
  · exact h []

@[simp] theorem noting_noting (bs bs' : List Bytes) (cell : Cell) :
    noting bs' (noting bs cell) = noting (bs ++ bs') cell := by
  rcases noting_cases cell with ⟨calls, rfl⟩ | h
  · simp [noting]
  · rw [h, h, h]

@[simp] theorem cellClassName_noting (bs : List Bytes) (cell : Cell) :
    cellClassName (noting bs cell) = cellClassName cell := by
  rcases noting_cases cell with ⟨calls, rfl⟩ | h
  · rfl
  · rw [h]

/-- What is fixed is no list. -/
theorem noting_of_not_isMutable (h : isMutable cell = false) : noting bs cell = cell := by
  rcases noting_cases cell with ⟨calls, rfl⟩ | hcell
  · cases h
  · exact hcell bs

/-- An iterator is no list either. -/
theorem noting_eq_iterator_iff {items : List Value} :
    noting bs cell = .items .iterator items ↔ cell = .items .iterator items := by
  rcases noting_cases cell with ⟨calls, rfl⟩ | h
  · simp [noting]
  · rw [h]

/-! ## Notes in a store -/

/-- The store once some byte strings have been hashed, and noted in the list at an address. -/
def noted (s : Store) (c : Address) (bs : List Bytes) : Store :=
  { s with
    cells := s.cells.modify c (noting bs)
    nextOrigin := s.nextOrigin + bs.length
    attributes_lt := by simpa using s.attributes_lt }

theorem cell?_noted (s : Store) (c : Address) (bs : List Bytes) (a : Address) :
    (s.noted c bs).cell? a = (s.cell? a).map fun cell => if a = c then noting bs cell else cell := by
  simp only [cell?, noted, List.getElem?_modify, eq_comm (a := c)]
  rfl

theorem cell?_noted_ne (h : a ≠ c) : (s.noted c bs).cell? a = s.cell? a := by
  simp [cell?_noted, h]

theorem cell?_noted_self (s : Store) (c : Address) (bs : List Bytes) :
    (s.noted c bs).cell? c = (s.cell? c).map (noting bs) := by
  simp [cell?_noted]

@[simp] theorem noted_nil (s : Store) (c : Address) : s.noted c [] = s := by
  cases s
  simp [noted, show noting [] = id from funext noting_nil]

@[simp] theorem noted_noted (s : Store) (c : Address) (bs bs' : List Bytes) :
    (s.noted c bs).noted c bs' = s.noted c (bs ++ bs') := by
  simp [noted, List.modify_modify_eq, Function.comp_def, Nat.add_assoc]

theorem noted_of_list {calls : List Value} (h : s.cell? c = some (.items .list calls)) (bs : List Bytes) :
    s.noted c bs =
      { s.setCell c (.items .list (calls ++ bs.map fun b => .scalar (.bytes b))) with
        nextOrigin := s.nextOrigin + bs.length } := by
  have hcells : s.cells.modify c (noting bs) =
      s.cells.set c (.items .list (calls ++ bs.map fun b => .scalar (.bytes b))) := by
    refine List.ext_getElem? fun i => ?_
    rw [List.getElem?_modify, List.getElem?_set]
    by_cases hi : c = i
    · subst hi
      rw [show s.cells[c]? = _ from h]
      simp [lt_length_of_cell? h, noting]
    · simp [hi]
  simp only [noted, setCell, mk.injEq, and_true]
  exact hcells

/-- Noting keeps what is fixed. -/
theorem keeps_noted (s : Store) (c : Address) (bs : List Bytes) : s.Keeps (s.noted c bs) where
  cell {a cell} hcell hfixed := by
    rw [cell?_noted, hcell, Option.map_some]
    by_cases ha : a = c
    · have hmutable : isMutable cell = false := Bool.eq_false_iff.mpr fun h => hfixed ⟨cell, hcell, h⟩
      rw [noting_of_not_isMutable hmutable, ite_self]
    · rw [if_neg ha]
  sameClass {a cell} hcell := by
    refine ⟨_, by rw [cell?_noted, hcell, Option.map_some], ?_⟩
    split
    · exact cellClassName_noting _ _
    · rfl
  assigned {a cell} name hcell := by
    have howner : attributeOwner? (if a = c then noting bs cell else cell) = attributeOwner? cell := by
      split
      · exact attributeOwner?_congr (cellClassName_noting _ _)
      · rfl
    simp only [assigned?, cell?_noted, hcell, Option.map_some, Option.bind_some, howner]
    rfl

/-! ## What notes do not change -/

theorem cellOf?_noted (s : Store) (c : Address) (bs : List Bytes) (v : Value) :
    (s.noted c bs).cellOf? v = (s.cellOf? v).map fun cell => if v = .object c then noting bs cell else cell := by
  cases v with
  | object a => simp [cellOf?, cell?_noted]
  | _ => rfl

@[simp] theorem className_noted (s : Store) (c : Address) (bs : List Bytes) (v : Value) :
    (s.noted c bs).className v = s.className v := by
  cases v with
  | object a =>
    simp only [className, cell?_noted]
    cases s.cell? a with
    | none => rfl
    | some cell => by_cases ha : a = c <;> simp [ha]
  | _ => rfl

@[simp] theorem bytes?_noted (s : Store) (c : Address) (bs : List Bytes) (v : Value) :
    (s.noted c bs).bytes? v = s.bytes? v := by
  cases v with
  | object a =>
    simp only [bytes?, cellOf?_noted]
    cases s.cellOf? (.object a) with
    | none => rfl
    | some cell =>
      rcases noting_cases cell with ⟨calls, rfl⟩ | h
      · by_cases ha : Value.object a = .object c <;> simp [ha, noting]
      · rw [Option.map_some, h, ite_self]
  | scalar x => cases x <;> rfl
  | _ => rfl

/-- The items of a value are the same, unless it is the list of notes itself. -/
theorem itemsOf_noted (h : v ≠ .object c) : (s.noted c bs).itemsOf v = s.itemsOf v := by
  have hcell : (s.noted c bs).cellOf? v = s.cellOf? v := by simp [cellOf?_noted, h]
  simp only [itemsOf, items?, bytes?_noted, className_noted, hcell]

theorem isIterator_noted : (s.noted c bs).IsIterator v ↔ s.IsIterator v := by
  simp only [IsIterator, cellOf?_noted, Option.map_eq_some_iff]
  constructor
  · rintro ⟨items, cell, hcell, heq⟩
    split at heq
    · exact ⟨items, noting_eq_iterator_iff.mp heq ▸ hcell⟩
    · exact ⟨items, heq ▸ hcell⟩
  · rintro ⟨items, hitems⟩
    refine ⟨items, _, hitems, ?_⟩
    split
    · exact noting_eq_iterator_iff.mpr rfl
    · rfl

/-- An iterator that loses items does not mind notes. -/
theorem setCell_noted {items : List Value} (s : Store) (a c : Address) (bs : List Bytes) :
    (s.noted c bs).setCell a (.items .iterator items) = (s.setCell a (.items .iterator items)).noted c bs := by
  have hcells : (s.cells.modify c (noting bs)).set a (.items .iterator items) =
      (s.cells.set a (.items .iterator items)).modify c (noting bs) := by
    refine List.ext_getElem? fun i => ?_
    simp only [List.getElem?_set, List.getElem?_modify, List.length_modify]
    by_cases ha : a = i
    · subst ha
      by_cases hlt : a < s.cells.length <;> by_cases hc : c = a <;> simp [hlt, hc, noting]
    · simp [ha]
  simp only [setCell, noted, mk.injEq, and_true]
  exact hcells

/-- **Going through a value and noting calls do not mind each other.** -/
theorem drained_noted (s : Store) (c : Address) (bs : List Bytes) (v : Value) :
    (s.noted c bs).drained v = (s.drained v).noted c bs := by
  by_cases hv : s.IsIterator v
  · have hv' : (s.noted c bs).IsIterator v := isIterator_noted.mpr hv
    obtain ⟨items', hc'⟩ := hv'
    obtain ⟨items, hc⟩ := hv
    cases v with
    | object a =>
      simp only [drained, hc, hc']
      exact setCell_noted s a c bs
    | _ => cases hc
  · rw [drained_of_not_isIterator hv, drained_of_not_isIterator (mt isIterator_noted.mp hv)]

/-! ## Calls on the way -/

/-- From one store to another a hasher was asked for the digests of some byte strings, in this order. What is fixed is
kept, and nothing is reported. -/
structure Asked (s : Store) (c : Address) (bs : List Bytes) (s' : Store) : Prop where
  /-- What is fixed is kept. -/
  keeps : s.Keeps s'
  /-- The calls are noted. -/
  notes : s'.cell? c = (s.cell? c).map (noting bs)
  /-- Nothing is reported. -/
  log : s'.log = s.log

namespace Asked

theorem refl (s : Store) (c : Address) : s.Asked c [] s := ⟨.refl s, by cases s.cell? c <;> simp, rfl⟩

theorem trans (h : s.Asked c bs s') (h' : s'.Asked c bs' s'') : s.Asked c (bs ++ bs') s'' := by
  refine ⟨h.keeps.trans h'.keeps, ?_, h'.log.trans h.log⟩
  rw [h'.notes, h.notes, Option.map_map]
  exact congrArg (Option.map · _) (funext fun cell => noting_noting bs bs' cell)

theorem noted (s : Store) (c : Address) (bs : List Bytes) : s.Asked c bs (s.noted c bs) :=
  ⟨keeps_noted s c bs, cell?_noted_self s c bs, rfl⟩

/-- An iterator loses items without a call. -/
theorem setCell {items items' : List Value} (ha : s.cell? a = some (.items .iterator items)) (hac : a ≠ c) :
    s.Asked c [] (s.setCell a (.items .iterator items')) := by
  refine ⟨.setCell ha rfl rfl, ?_, rfl⟩
  rw [cell?_setCell_ne hac.symm]
  exact (refl s c).notes

end Asked

end Store

end TopicFilter
