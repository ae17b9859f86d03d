import TopicFilter.Proofs.Store.Running

/-!
# Proofs/Store/Keeping — what a store keeps while others work on it

A cell is read after a change by `cell?_setCell_ne` and its neighbours. `s.KeepsBut may s'` says that from `s` to `s'`
only cells that `may` change did, and that nothing was assigned to what was there; `s.Keeps s'` lets change whatever
is made to be changed, and so is what every holder of a fixed value can count on. Computations that keep something are
put together step by step: `Ensures` and `Steady` for what is fixed, `Yields` for outcomes that depend on nothing else.
-/

namespace TopicFilter

/-- What is of a class that is made here is no stranger. -/
theorem Stranger.className_ne (x : Stranger) {name : String} (hname : name ∈ cellClassNames) : x.className ≠ name :=
  fun h => x.className_not_mem (h ▸ hname)

namespace Store

variable {s s' s'' : Store} {a b : Address} {c d : Cell}

/-- A store in which some cells come after those of a new one, and nothing else has been done. -/
def holding (cells : List Cell) : Store :=
  cells.foldl addCell (initial
    { home := none, userProfile := none, account := none, users := [], hasAccounts := false }
    { workingDir := [], entries := [] })

/-! ## Cells after a change -/

theorem lt_length_of_cell? (h : s.cell? a = some c) : a < s.cells.length :=
  (List.getElem?_eq_some_iff.mp h).1

theorem cell?_setCell_self (h : a < s.cells.length) : (s.setCell a c).cell? a = some c := by
  simp [cell?, setCell, h]

theorem cell?_setCell_ne (h : b ≠ a) : (s.setCell a c).cell? b = s.cell? b := by
  simp [cell?, setCell, List.getElem?_set_ne h.symm]

theorem cell?_addCell_self : (s.addCell c).cell? s.cells.length = some c := by
  simp [cell?, addCell]

theorem cell?_addCell_of_lt (h : a < s.cells.length) : (s.addCell c).cell? a = s.cell? a := by
  simp [cell?, addCell, List.getElem?_append_left h]

@[simp] theorem length_cells_addCell : (s.addCell c).cells.length = s.cells.length + 1 := by
  simp [addCell]

theorem cells_foldl_addCell (cells : List Cell) : (cells.foldl addCell s).cells = s.cells ++ cells := by
  induction cells generalizing s with
  | nil => exact (List.append_nil _).symm
  | cons c cells ih => rw [List.foldl_cons, ih, addCell, List.append_assoc, List.singleton_append]

theorem cell?_holding (cells : List Cell) (i : Nat) : (holding cells).cell? (i + 2) = cells[i]? := by
  rw [cell?, holding, cells_foldl_addCell]
  exact List.getElem?_append_right (Nat.le_add_left 2 i)

/-- A cell that is given what it holds already is left as it is. -/
theorem setCell_self (h : s.cell? a = some c) : s.setCell a c = s := by
  obtain ⟨ha, hc⟩ := List.getElem?_eq_some_iff.mp h
  have hset : s.cells.set a c = s.cells := by rw [← hc, List.set_getElem_self]
  cases s
  simp only [setCell, mk.injEq, and_true]
  exact hset

/-- Of two changes to one cell the later counts. -/
theorem setCell_setCell : (s.setCell a c).setCell a d = s.setCell a d := by
  simp [setCell, List.set_set]

/-! ## Attributes after a change -/

theorem assigned?_of_attributeOwner? {name : String} (h : (s.cell? a).bind attributeOwner? = none) :
    s.assigned? (.object a) name = none := by
  simp [assigned?, h]

/-- Nothing is assigned yet to what a new cell holds. -/
theorem assigned?_addCell_self {name : String} :
    (s.addCell c).assigned? (.object s.cells.length) name = none := by
  have hfind : (s.addCell c).attributes.find?
      (fun entry => entry.1 = s.cells.length && entry.2.1 = text name) = none := by
    refine List.find?_eq_none.mpr fun entry h => ?_
    simp only [Bool.and_eq_true, decide_eq_true_eq, not_and]
    intro he
    exact absurd he (Nat.ne_of_lt (s.attributes_lt entry h))
  simp only [assigned?, hfind, Option.map_none, ite_self]

theorem assigned?_addCell_of_lt {name : String} (h : a < s.cells.length) :
    (s.addCell c).assigned? (.object a) name = s.assigned? (.object a) name := by
  simp only [assigned?, cell?_addCell_of_lt h]
  rfl

/-- The class that gives attributes to what is of a class. -/
def ownerOfClass? (className : String) : Option String :=
  [("TopicMatcher", "TopicMatcher"), ("HashlibHasher", "HasherPort"), ("FixedHasher", "HasherPort"),
    ("TopicDeriver", "TopicDeriver")].lookup className

theorem attributeOwner?_eq (c : Cell) : attributeOwner? c = ownerOfClass? (cellClassName c) := by
  cases c with
  | stranger x =>
    have hother : ∀ name ∈ cellClassNames, (x.className == name) = false := fun name hname =>
      beq_eq_false_iff_ne.mpr (x.className_ne hname)
    have hmatcher := hother "TopicMatcher" (by decide)
    have hhasher := hother "HashlibHasher" (by decide)
    have hrecorder := hother "FixedHasher" (by decide)
    have hderiver := hother "TopicDeriver" (by decide)
    simp only [attributeOwner?, cellClassName, ownerOfClass?, List.lookup_cons, List.lookup_nil, hmatcher, hhasher,
      hrecorder, hderiver]
  | items shape items => cases shape <;> rfl
  | _ => rfl

/-- Things of one class take their attributes from one class. -/
theorem attributeOwner?_congr (h : cellClassName c = cellClassName d) :
    attributeOwner? c = attributeOwner? d := by
  rw [attributeOwner?_eq, attributeOwner?_eq, h]

/-- What has the class of lists is a list. -/
theorem eq_list_of_cellClassName {items : List Value} (h : cellClassName c = cellClassName (.items .list items)) :
    ∃ items', c = .items .list items' := by
  cases c with
  | items shape items' =>
    cases shape with
    | list => exact ⟨items', rfl⟩
    | _ => simp [cellClassName] at h
  | stranger x =>
    have hlist : "list" ∈ cellClassNames := by decide
    exact absurd h (x.className_ne hlist)
  | _ => simp [cellClassName] at h

/-- A cell that is replaced by one of the same class has the attributes it had. -/
theorem assigned?_setCell {name : String} (hc : s.cell? a = some c)
    (hd : cellClassName d = cellClassName c) :
    (s.setCell a d).assigned? (.object b) name = s.assigned? (.object b) name := by
  by_cases hb : b = a
  · subst hb
    simp only [assigned?, cell?_setCell_self (lt_length_of_cell? hc), hc, Option.bind_some,
      attributeOwner?_congr hd]
    rfl
  · simp only [assigned?, cell?_setCell_ne hb]
    rfl

/-! ## Keeping all but some cells -/

/-- From one store to another only cells that `may` change did, and nothing was assigned to what was there. -/
structure KeepsBut (may : Address → Prop) (s s' : Store) : Prop where
  /-- The other cells hold what they held. -/
  cell : ∀ {a c}, s.cell? a = some c → ¬ may a → s'.cell? a = some c
  /-- A cell that changed holds something of the same class. -/
  sameClass : ∀ {a c}, s.cell? a = some c → ∃ d, s'.cell? a = some d ∧ cellClassName d = cellClassName c
  /-- What was there has the attributes it had. -/
  assigned : ∀ {a c} name, s.cell? a = some c → s'.assigned? (.object a) name = s.assigned? (.object a) name

namespace KeepsBut

variable {may : Address → Prop}

theorem refl (s : Store) : s.KeepsBut may s := ⟨fun h _ => h, fun h => ⟨_, h, rfl⟩, fun _ _ => rfl⟩

theorem mono {may' : Address → Prop} (h : s.KeepsBut may s') (hmay : ∀ a, may a → may' a) : s.KeepsBut may' s' :=
  ⟨fun hc hm => h.cell hc fun ha => hm (hmay _ ha), h.sameClass, h.assigned⟩

theorem trans (h : s.KeepsBut may s') (h' : s'.KeepsBut may s'') : s.KeepsBut may s'' where
  cell hc hm := h'.cell (h.cell hc hm) hm
  sameClass hc := by
    obtain ⟨d, hd, hdc⟩ := h.sameClass hc
    obtain ⟨e, he, hed⟩ := h'.sameClass hd
    exact ⟨e, he, hed.trans hdc⟩
  assigned name hc := by
    obtain ⟨d, hd, _⟩ := h.sameClass hc
    exact (h'.assigned name hd).trans (h.assigned name hc)

/-- A store with the same cells and attributes keeps everything. -/
theorem of_eq (hc : s'.cells = s.cells) (ha : s'.attributes = s.attributes) : s.KeepsBut may s' := by
  have hcell : ∀ a, s'.cell? a = s.cell? a := fun a => by rw [cell?, cell?, hc]
  refine ⟨fun h _ => (hcell _).trans h, fun h => ⟨_, (hcell _).trans h, rfl⟩, fun name _ => ?_⟩
  simp only [assigned?, hcell, ha]

theorem addCell : s.KeepsBut may (s.addCell c) where
  cell h _ := (cell?_addCell_of_lt (lt_length_of_cell? h)).trans h
  sameClass h := ⟨_, (cell?_addCell_of_lt (lt_length_of_cell? h)).trans h, rfl⟩
  assigned _ h := assigned?_addCell_of_lt (lt_length_of_cell? h)

theorem setCell (hm : may a) (hc : s.cell? a = some c) (hd : cellClassName d = cellClassName c) :
    s.KeepsBut may (s.setCell a d) where
  cell hb hnb := by
    refine (cell?_setCell_ne ?_).trans hb
    rintro rfl
    exact hnb hm
  sameClass {b e} hb := by
    by_cases h : b = a
    · subst h
      obtain rfl : c = e := Option.some.inj (hc.symm.trans hb)
      exact ⟨d, cell?_setCell_self (lt_length_of_cell? hc), hd⟩
    · exact ⟨e, (cell?_setCell_ne h).trans hb, rfl⟩
  assigned _ _ := assigned?_setCell hc hd

end KeepsBut

/-! ## Keeping what is fixed -/

/-- What the cell holds is made to be changed. -/
def isMutable : Cell → Bool
  | .items .list _ | .items .set _ | .items .iterator _ | .dict _ | .buffer _ => true
  | _ => false

/-- The classes of what is made to be changed. -/
def mutableClassNames : List String := ["list", "set", "list_iterator", "dict", "bytearray"]

theorem isMutable_eq (c : Cell) : isMutable c = mutableClassNames.contains (cellClassName c) := by
  have hmade : mutableClassNames ⊆ cellClassNames := by decide
  cases c with
  | stranger x =>
    have hother : x.className ∉ mutableClassNames := fun h => x.className_not_mem (hmade h)
    exact (by simpa [cellClassName] using hother : mutableClassNames.contains x.className = false).symm
  | items shape items => cases shape <;> rfl
  | _ => rfl

/-- Things of one class are made to be changed all or none. -/
theorem isMutable_congr (h : cellClassName c = cellClassName d) : isMutable c = isMutable d := by
  rw [isMutable_eq, isMutable_eq, h]

/-- The cell at an address is made to be changed. -/
def MayChange (s : Store) (a : Address) : Prop := ∃ c, s.cell? a = some c ∧ isMutable c = true

/-- From one store to another whatever is fixed stays as it is. -/
def Keeps (s s' : Store) : Prop := s.KeepsBut s.MayChange s'

namespace Keeps

theorem refl (s : Store) : s.Keeps s := KeepsBut.refl s

theorem cell (h : s.Keeps s') (hc : s.cell? a = some c) (hf : isMutable c = false) :
    s'.cell? a = some c := by
  refine KeepsBut.cell h hc ?_
  rintro ⟨d, hd, hm⟩
  obtain rfl : c = d := Option.some.inj (hc.symm.trans hd)
  rw [hf] at hm
  cases hm

theorem trans (h : s.Keeps s') (h' : s'.Keeps s'') : s.Keeps s'' where
  cell {a c} hc hm := by
    have hf : isMutable c = false := Bool.eq_false_iff.mpr fun hne => hm ⟨c, hc, hne⟩
    exact h'.cell (h.cell hc hf) hf
  sameClass hc := by
    obtain ⟨d, hd, hdc⟩ := h.sameClass hc
    obtain ⟨e, he, hed⟩ := h'.sameClass hd
    exact ⟨e, he, hed.trans hdc⟩
  assigned name hc := by
    obtain ⟨d, hd, _⟩ := h.sameClass hc
    exact (h'.assigned name hd).trans (h.assigned name hc)

theorem addCell : s.Keeps (s.addCell c) := KeepsBut.addCell

/-- A store with the same cells and attributes keeps everything. -/
theorem of_eq (hc : s'.cells = s.cells) (ha : s'.attributes = s.attributes) : s.Keeps s' := KeepsBut.of_eq hc ha

/-- What is made to be changed may become anything of its class. -/
theorem setCell (hc : s.cell? a = some c) (hm : isMutable c = true)
    (hd : cellClassName d = cellClassName c) : s.Keeps (s.setCell a d) :=
  KeepsBut.setCell ⟨c, hc, hm⟩ hc hd

end Keeps

end Store

/-! ## Computations that keep what is fixed -/

namespace Action

variable {α β : Type} {s : Store} {x : Action α}

/-- From a store the computation keeps what is fixed, even when it fails, and what it comes to has a property. -/
def Ensures (x : Action α) (s : Store) (Q : α → Store → Prop) : Prop :=
  s.Keeps (x.on s).2 ∧ ∀ a s', x.on s = (.ok a, s') → Q a s'

namespace Ensures

/-- A computation that only reads the store keeps all of it. -/
theorem of_on {outcome : Except Fault α} {Q : α → Store → Prop} (h : x.on s = (outcome, s))
    (hQ : ∀ a, outcome = .ok a → Q a s) : x.Ensures s Q := by
  refine ⟨by rw [h]; exact .refl s, fun a s' hx => ?_⟩
  obtain ⟨ha, rfl⟩ := Prod.mk.inj (h.symm.trans hx)
  exact hQ a ha

theorem pure {a : α} {Q : α → Store → Prop} (h : Q a s) : (Pure.pure a : Action α).Ensures s Q :=
  .of_on rfl fun _ hb => Except.ok.inj hb ▸ h

theorem throw {fault : Fault} {Q : α → Store → Prop} :
    (MonadExcept.throw fault : Action α).Ensures s Q := .of_on rfl nofun

theorem failAs {fault : String → Fault} {v : Value} {Q : α → Store → Prop} :
    (Action.failAs fault v : Action α).Ensures s Q := .of_on rfl nofun

theorem inquire (f : Store → Except Fault α) : (Action.inquire f).Ensures s fun a _ => f s = .ok a :=
  .of_on (on_inquire f s) fun _ h => h

theorem ofExcept (e : Except Fault α) : (Action.ofExcept e).Ensures s fun a _ => e = .ok a :=
  .of_on (on_ofExcept e s) fun _ h => h

theorem cellOf? (v : Value) : (Action.cellOf? v).Ensures s fun c s' => s'.cellOf? v = c :=
  .of_on (on_cellOf? v s) fun _ h => Except.ok.inj h

/-- What is made to be changed may become anything of its class. -/
theorem setCell {a : Address} {c d : Cell} (hc : s.cell? a = some c) (hm : Store.isMutable c = true)
    (hd : Store.cellClassName d = Store.cellClassName c) : (Action.setCell a d).Ensures s fun _ _ => True :=
  ⟨.setCell hc hm hd, fun _ _ _ => trivial⟩

theorem mono {P Q : α → Store → Prop} (h : x.Ensures s P) (hPQ : ∀ a s', P a s' → Q a s') : x.Ensures s Q :=
  ⟨h.1, fun a s' hx => hPQ a s' (h.2 a s' hx)⟩

/-- **Steps that keep what is fixed make up a computation that does.** -/
theorem bind {f : α → Action β} {P : α → Store → Prop} {Q : β → Store → Prop} (hx : x.Ensures s P)
    (hf : ∀ a s', s.Keeps s' → P a s' → (f a).Ensures s' Q) : (x >>= f).Ensures s Q := by
  obtain ⟨hkeep, hP⟩ := hx
  rw [Ensures, on_bind]
  rcases h : x.on s with ⟨_ | a, s'⟩ <;> rw [h] at hkeep
  · exact ⟨hkeep, nofun⟩
  · have hfa := hf a s' hkeep (hP a s' h)
    exact ⟨hkeep.trans hfa.1, hfa.2⟩

end Ensures

/-- From whatever store, the computation keeps what is fixed. -/
def Steady (x : Action α) : Prop := ∀ s, x.Ensures s fun _ _ => True

namespace Steady

theorem ensures {Q : α → Store → Prop} (h : ∀ s, x.Ensures s Q) : x.Steady :=
  fun s => (h s).mono fun _ _ _ => trivial

/-- A computation that only reads the store is steady. -/
theorem of_on {f : Store → Except Fault α} (h : ∀ s, x.on s = (f s, s)) : x.Steady :=
  fun s => .of_on (h s) fun _ _ => trivial

theorem pure (a : α) : (Pure.pure a : Action α).Steady := of_on fun _ => rfl

theorem throw (fault : Fault) : (MonadExcept.throw fault : Action α).Steady := of_on fun _ => rfl

theorem failAs (fault : String → Fault) (v : Value) : (Action.failAs fault v : Action α).Steady :=
  of_on fun _ => rfl

theorem get : (MonadState.get : Action Store).Steady := of_on fun _ => rfl

theorem cellOf? (v : Value) : (Action.cellOf? v).Steady := of_on fun _ => rfl

theorem bytes? (v : Value) : (Action.bytes? v).Steady := of_on fun _ => rfl

theorem inquire (f : Store → Except Fault α) : (Action.inquire f).Steady := of_on (on_inquire f)

theorem ofExcept (e : Except Fault α) : (Action.ofExcept e).Steady := of_on (on_ofExcept e)

theorem allocate (c : Cell) : (Action.allocate c).Steady := fun _ => ⟨.addCell, fun _ _ _ => trivial⟩

theorem collect (shape : Shape) (items : List Value) : (Action.collect shape items).Steady := allocate _

theorem fresh (v : Value) : (Action.fresh v).Steady := fun _ => ⟨.of_eq rfl rfl, fun _ _ _ => trivial⟩

theorem report (entry : LogEntry) : (Action.report entry).Steady := fun _ => ⟨.of_eq rfl rfl, fun _ _ _ => trivial⟩

theorem bind {f : α → Action β} (hx : x.Steady) (hf : ∀ a, (f a).Steady) : (x >>= f).Steady :=
  fun s => .bind (hx s) fun a s' _ _ => hf a s'

theorem inPlace (v : Value) (name : String) : (Action.inPlace v name).Steady := by
  refine .bind .get fun s => ?_
  split
  · exact .failAs _ _
  · exact .pure _

end Steady

/-! ## Computations whose outcome is known -/

/-- From a store the computation comes to an outcome, and only cells that `may` change did. -/
def Yields (may : Address → Prop) (x : Action α) (s : Store) (outcome : Except Fault α) : Prop :=
  ∃ s', x.on s = (outcome, s') ∧ s.KeepsBut may s'

namespace Yields

variable {may : Address → Prop} {outcome : Except Fault α}

theorem of_on (h : x.on s = (outcome, s)) : x.Yields may s outcome := ⟨s, h, .refl s⟩

theorem mono {may' : Address → Prop} (hx : x.Yields may s outcome) (hmay : ∀ a, may a → may' a) :
    x.Yields may' s outcome := by
  obtain ⟨s', hon, hkeeps⟩ := hx
  exact ⟨s', hon, hkeeps.mono hmay⟩

theorem map (hx : x.Yields may s outcome) (g : α → β) : (g <$> x).Yields may s (g <$> outcome) := by
  obtain ⟨s', hon, hkeeps⟩ := hx
  refine ⟨s', ?_, hkeeps⟩
  rw [on_map, hon]
  rfl

/-- **The outcomes of steps make up that of a computation.** -/
theorem bind {f : α → Action β} {g : α → Except Fault β} (hx : x.Yields may s outcome)
    (hf : ∀ a s', s.KeepsBut may s' → (f a).Yields may s' (g a)) : (x >>= f).Yields may s (outcome >>= g) := by
  obtain ⟨s', hon, hkeeps⟩ := hx
  cases outcome with
  | error fault => exact ⟨s', on_bind_error hon, hkeeps⟩
  | ok a =>
    obtain ⟨s'', hon', hkeeps'⟩ := hf a s' hkeeps
    exact ⟨s'', (on_bind_ok hon).trans hon', hkeeps.trans hkeeps'⟩

end Yields

end Action

end TopicFilter
