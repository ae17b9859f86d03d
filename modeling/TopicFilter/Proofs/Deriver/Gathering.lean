import TopicFilter.Proofs.Deriver.Deriving

/-!
# Proofs/Deriver/Gathering — topics of payloads in collections of any shape

Payloads may stand in any collection that can be gone through, iterators among them, which lose what was taken.
`s.Spends own s'` says that from `s` to `s'` no more was done than hashing and taking from iterators, and such a change
leaves a collection of payloads one (`Gathers.spend`). So topics can be derived from one collection after another, if
the deriver goes on deriving meanwhile (`exists_on_eachOf_gathers`).
-/

namespace TopicFilter

namespace Action

variable {α : Type} {s s' : Store} {f : Value → Action α} {vs ws : List Value} {rs : List α}

/-- Computations that come to something on some items go on to the items after them. -/
theorem on_eachOf_append (h : (eachOf f vs).on s = (.ok rs, s')) (ws : List Value) :
    (eachOf f (vs ++ ws)).on s = (((eachOf f ws).on s').1.map (rs ++ ·), ((eachOf f ws).on s').2) := by
  induction vs generalizing s rs with
  | nil =>
    obtain ⟨rfl, rfl⟩ : [] = rs ∧ s = s' := by simpa [eachOf] using h
    rw [List.nil_append]
    rcases (eachOf f ws).on s with ⟨_ | _, _⟩ <;> rfl
  | cons v vs ih =>
    rw [eachOf] at h
    obtain ⟨r, s₁, hr, h⟩ := of_on_bind_ok h
    obtain ⟨rs', s₂, hrs', h⟩ := of_on_bind_ok h
    obtain ⟨rfl, rfl⟩ : r :: rs' = rs ∧ s₂ = s' := by simpa using h
    rw [List.cons_append, eachOf, on_bind_ok hr, on_bind, ih hrs']
    rcases (eachOf f ws).on s₂ with ⟨_ | _, _⟩ <;> rfl

/-- The first item on which a computation fails ends it. -/
theorem on_eachOf_error {fault : Fault} {v : Value} {s'' : Store} (h : (eachOf f vs).on s = (.ok rs, s'))
    (hv : (f v).on s' = (.error fault, s'')) (ws : List Value) :
    (eachOf f (vs ++ v :: ws)).on s = (.error fault, s'') := by
  rw [on_eachOf_append h, eachOf, on_bind_error hv]
  rfl

end Action

namespace Store

variable {s s' s'' : Store} {v d : Value} {b : Bytes} {f : Bytes → Bytes} {own : Address → Prop} {a : Address}
  {items vs : List Value}

/-! ## Spending -/

/-- From one store to another only cells of a hasher's own changed, and iterators lost items. -/
structure Spends (own : Address → Prop) (s s' : Store) : Prop where
  /-- What is fixed is kept. -/
  fixed : s.Keeps s'
  /-- All else but iterators is kept. -/
  cell : ∀ {a c}, s.cell? a = some c → ¬ own a → ¬ s.IsIterator (.object a) → s'.cell? a = some c
  /-- Iterators have left what they had, or some of it. -/
  left : ∀ {a items}, s.cell? a = some (.items .iterator items) → ¬ own a →
    ∃ items', s'.cell? a = some (.items .iterator items') ∧ ∀ v ∈ items', v ∈ items

namespace Spends

theorem refl (s : Store) : s.Spends own s := ⟨.refl s, fun h _ _ => h, fun h _ => ⟨_, h, fun _ hv => hv⟩⟩

theorem trans (h : s.Spends own s') (h' : s'.Spends own s'') : s.Spends own s'' where
  fixed := h.fixed.trans h'.fixed
  cell {a c} hc hown hiter := by
    have hc' := h.cell hc hown hiter
    refine h'.cell hc' hown ?_
    rintro ⟨items, hitems⟩
    obtain rfl : c = .items .iterator items := Option.some.inj (hc'.symm.trans hitems)
    exact hiter ⟨items, hc⟩
  left hc hown := by
    obtain ⟨items', hc', hsub⟩ := h.left hc hown
    obtain ⟨items'', hc'', hsub'⟩ := h'.left hc' hown
    exact ⟨items'', hc'', fun v hv => hsub v (hsub' v hv)⟩

/-- Hashing is spending. -/
theorem of_keepsBut (hs : s.KeepsBut own s') (hfixed : s.Keeps s') : s.Spends own s' :=
  ⟨hfixed, fun hc hown _ => hs.cell hc hown, fun hc hown => ⟨_, hs.cell hc hown, fun _ hv => hv⟩⟩

/-- Taking an item is spending. -/
theorem take (h : s.cell? a = some (.items .iterator (v :: items))) :
    s.Spends own (s.setCell a (.items .iterator items)) where
  fixed := .setCell h rfl rfl
  cell hc _ hiter := by
    refine (cell?_setCell_ne ?_).trans hc
    rintro rfl
    exact hiter ⟨_, h⟩
  left {b items'} hc _ := by
    by_cases hba : b = a
    · subst hba
      obtain rfl : v :: items = items' := by simpa using h.symm.trans hc
      exact ⟨items, cell?_setCell_self (lt_length_of_cell? h), fun w hw => List.mem_cons_of_mem v hw⟩
    · exact ⟨items', (cell?_setCell_ne hba).trans hc, fun w hw => hw⟩

end Spends

theorem IsPayload.spend (h : s.IsPayload own v b) (hs : s.Spends own s') : s'.IsPayload own v b := by
  cases h with
  | bytes => exact .bytes b
  | view => exact .view b
  | text h => exact .text h
  | buffer h ha =>
    refine .buffer (hs.cell h ha ?_) ha
    rintro ⟨items, hitems⟩
    cases h.symm.trans (show s.cell? _ = _ from hitems)

/-! ## Collections of payloads -/

/-- All of some values are payloads. -/
def ArePayloads (s : Store) (own : Address → Prop) (vs : List Value) : Prop := ∀ v ∈ vs, ∃ b, s.IsPayload own v b

theorem ArePayloads.spend (h : s.ArePayloads own vs) (hs : s.Spends own s') : s'.ArePayloads own vs := fun v hv => by
  obtain ⟨b, hb⟩ := h v hv
  exact ⟨b, hb.spend hs⟩

/-- The payloads have bytes, each its own. -/
theorem ArePayloads.exists_forall₂ (h : s.ArePayloads own vs) : ∃ bs, List.Forall₂ (s.IsPayload own) vs bs := by
  induction vs with
  | nil => exact ⟨[], .nil⟩
  | cons v vs ih =>
    obtain ⟨⟨b, hb⟩, hvs⟩ := List.forall_mem_cons.mp h
    obtain ⟨bs, hbs⟩ := ih hvs
    exact ⟨b :: bs, .cons hb hbs⟩

/-- A position is absent or a collection of payloads, in any shape. -/
inductive Gathers (s : Store) (own : Address → Prop) : Value → Prop where
  /-- An absent position. -/
  | absent : s.Gathers own .none
  /-- A collection of payloads. -/
  | items {a : Address} {shape : Shape} {items : List Value} (h : s.cell? a = some (.items shape items))
    (ha : ¬ own a) (hitems : s.ArePayloads own items) : s.Gathers own (.object a)
  /-- A mapping with payloads as its keys. -/
  | keys {a : Address} {entries : List (Value × Value)} (h : s.cell? a = some (.dict entries)) (ha : ¬ own a)
    (hkeys : s.ArePayloads own (entries.map (·.1))) : s.Gathers own (.object a)

/-- **A collection of payloads stays one while others are gone through.** -/
theorem Gathers.spend (h : s.Gathers own v) (hs : s.Spends own s') : s'.Gathers own v := by
  cases h with
  | absent => exact .absent
  | @items a shape items h ha hitems =>
    by_cases hiter : shape = .iterator
    · subst hiter
      obtain ⟨items', h', hsub⟩ := hs.left h ha
      exact .items h' ha fun v hv => hitems.spend hs v (hsub v hv)
    · refine .items (hs.cell h ha ?_) ha (hitems.spend hs)
      rintro ⟨items', h'⟩
      cases h.symm.trans (show s.cell? a = _ from h')
      exact hiter rfl
  | @keys a entries h ha hkeys =>
    refine .keys (hs.cell h ha ?_) ha (hkeys.spend hs)
    rintro ⟨items', h'⟩
    cases h.symm.trans (show s.cell? a = _ from h')

/-! ## Derivers that go on deriving -/

/-- The deriver derives by a function as long as what is fixed is kept, and what its hasher has of its own is made to be
changed. -/
structure DerivesSteadily (s : Store) (d : Value) (f : Bytes → Bytes) (own : Address → Prop) : Prop where
  /-- Cells of its own may change. -/
  mayChange : ∀ a, own a → s.MayChange a
  /-- It goes on deriving. -/
  derives : ∀ s' : Store, s.Keeps s' → s'.DerivesBy d f own

namespace DerivesSteadily

theorem keep (h : s.DerivesSteadily d f own) (hs : s.Keeps s') : s'.DerivesSteadily d f own where
  mayChange a ha := by
    obtain ⟨c, hc, hm⟩ := h.mayChange a ha
    obtain ⟨c', hc', hclass⟩ := hs.sameClass hc
    exact ⟨c', hc', (isMutable_congr hclass).trans hm⟩
  derives s'' hs' := h.derives s'' (hs.trans hs')

theorem derivesBy (h : s.DerivesSteadily d f own) : s.DerivesBy d f own := h.derives s (.refl s)

/-- What keeps all but cells of the hasher's own keeps what is fixed. -/
theorem spends (h : s.DerivesSteadily d f own) (hs : s.KeepsBut own s') : s.Spends own s' :=
  .of_keepsBut hs ⟨fun hc hm => hs.cell hc fun ha => hm (h.mayChange _ ha), hs.sameClass, hs.assigned⟩

/-- The deriver that is used when none is given goes on deriving. -/
theorem standard {environment : Environment} {files : FileTree} (hs : (initial environment files).Keeps s) :
    s.DerivesSteadily Action.standardDeriver Algorithm.sha3x256.digest fun _ => False :=
  ⟨fun _ ha => ha.elim, fun _ hs' => derivesBy_standard (hs.trans hs')⟩

end DerivesSteadily

/-! ## Topics derived -/

theorem exists_on_eachOf_derive (hd : s.DerivesSteadily d f own) (hwide : ∀ b, 4 ≤ (f b).length) {bs : List Bytes}
    (hvs : List.Forall₂ (s.IsPayload own) vs bs) :
    ∃ s', (Action.eachOf (Action.derive d) vs).on s = (.ok (topicsBy f bs), s') ∧ s.Spends own s' := by
  obtain ⟨s', hon, hkeeps⟩ := Action.exists_on_eachOf (fun s₁ w b hs₁ hw =>
    exists_on_derive (hd.derivesBy.keep hs₁) (hw.keep hs₁) (hwide b)) hvs (.refl s)
  exact ⟨s', hon, hd.spends hkeeps⟩

/-- An iterator of payloads is gone through to its end. -/
theorem exists_on_drain_derive (hd : s.DerivesSteadily d f own) (hwide : ∀ b, 4 ≤ (f b).length)
    (h : s.cell? a = some (.items .iterator items)) (ha : ¬ own a) (hitems : s.ArePayloads own items) :
    ∃ ts s', (Action.drain a (Action.derive d) items).on s = (.ok ts, s') ∧ s.Spends own s' := by
  induction items generalizing s with
  | nil => exact ⟨[], s, rfl, .refl s⟩
  | cons v items ih =>
    have htake : s.Spends own (s.setCell a (.items .iterator items)) := .take h
    obtain ⟨⟨b, hb⟩, hitems⟩ := List.forall_mem_cons.mp hitems
    have hd₁ := hd.keep htake.fixed
    obtain ⟨s₂, hon, hkeeps⟩ := exists_on_derive hd₁.derivesBy (hb.spend htake) (hwide b)
    have hspend := hd₁.spends hkeeps
    have hcell := hkeeps.cell (cell?_setCell_self (c := .items .iterator items) (lt_length_of_cell? h)) ha
    obtain ⟨ts, s₃, hons, hspend'⟩ := ih (hd₁.keep hspend.fixed) hcell ((ArePayloads.spend hitems htake).spend hspend)
    refine ⟨.front (f b) :: ts, s₃, ?_, htake.trans (hspend.trans hspend')⟩
    rw [Action.drain, Action.on_bind_ok (Action.on_setCell _ _ _), Action.on_bind_ok hon, Action.on_bind_ok hons]
    rfl

/-- A value that is not absent stands for the condition on the topics of its items. -/
theorem DerivesBy.on_conditionOfPayloads {ts : List Topic} (hd : s.DerivesBy d f own) (hne : v ≠ .none)
    (h : (Action.forEach v (Action.derive d)).on s = (.ok ts, s')) :
    (Action.conditionOfPayloads d v).on s = (.ok (.condition (.ofTopics (.ofList ts))), s') := by
  rw [Action.conditionOfPayloads, Action.on_bind_ok ((hd.on_deriveMany v).trans h)]
  · rfl
  · exact hne

/-- **Topics can be derived from any collection of payloads**, and no more is spent than that. -/
theorem exists_on_conditionOfPayloads_gathers (hd : s.DerivesSteadily d f own) (hwide : ∀ b, 4 ≤ (f b).length)
    (hv : s.Gathers own v) :
    ∃ c s', (Action.conditionOfPayloads d v).on s = (.ok (.condition c), s') ∧ s.Spends own s' := by
  have hobject : ∀ a, (∃ ts s', (Action.forEach (.object a) (Action.derive d)).on s = (.ok ts, s') ∧ s.Spends own s') →
      ∃ c s', (Action.conditionOfPayloads d (.object a)).on s = (.ok (.condition c), s') ∧ s.Spends own s' := by
    rintro a ⟨ts, s', hon, hspend⟩
    exact ⟨_, s', hd.derivesBy.on_conditionOfPayloads nofun hon, hspend⟩
  have hlasting : ∀ {items}, s.items? v = some items → ¬ s.IsIterator v → s.ArePayloads own items →
      ∃ ts s', (Action.forEach v (Action.derive d)).on s = (.ok ts, s') ∧ s.Spends own s' := by
    intro items hi hiter hitems
    obtain ⟨bs, hbs⟩ := hitems.exists_forall₂
    obtain ⟨s', hon, hspend⟩ := exists_on_eachOf_derive hd hwide hbs
    refine ⟨topicsBy f bs, s', ?_, hspend⟩
    rw [Action.forEach, Action.on_bind_ok (Action.on_source_of_not_isIterator hi hiter)]
    exact hon
  cases hv with
  | absent => exact ⟨.any, s, rfl, .refl s⟩
  | @items a shape items h ha hitems =>
    refine hobject a ?_
    by_cases hiter : shape = .iterator
    · subst hiter
      obtain ⟨ts, s', hon, hspend⟩ := exists_on_drain_derive hd hwide h ha hitems
      refine ⟨ts, s', ?_, hspend⟩
      rw [Action.forEach, Action.on_bind_ok (Action.on_source_of_iterator h)]
      exact hon
    · refine hlasting (items?_object h) ?_ hitems
      rintro ⟨items', h'⟩
      cases h.symm.trans (show s.cell? a = _ from h')
      exact hiter rfl
  | @keys a entries h ha hkeys =>
    refine hobject a (hlasting (items?_object_dict h) ?_ hkeys)
    rintro ⟨items', h'⟩
    cases h.symm.trans (show s.cell? a = _ from h')

/-- …and so it goes with one position after another. -/
theorem exists_on_eachOf_gathers (hd : s.DerivesSteadily d f own) (hwide : ∀ b, 4 ≤ (f b).length)
    (hvs : ∀ v ∈ vs, s.Gathers own v) :
    ∃ (cs : List Condition) (s' : Store), (Action.eachOf (Action.conditionOfPayloads d) vs).on s =
      (.ok (cs.map .condition), s') ∧ cs.length = vs.length ∧ s.Spends own s' := by
  induction vs generalizing s with
  | nil => exact ⟨[], s, rfl, rfl, .refl s⟩
  | cons v vs ih =>
    obtain ⟨hv, hvs⟩ := List.forall_mem_cons.mp hvs
    obtain ⟨c, s₁, hon, hspend⟩ := exists_on_conditionOfPayloads_gathers hd hwide hv
    obtain ⟨cs, s₂, hons, hlen, hspend'⟩ := ih (hd.keep hspend.fixed) fun w hw => (hvs w hw).spend hspend
    refine ⟨c :: cs, s₂, ?_, congrArg (· + 1) hlen, hspend.trans hspend'⟩
    rw [Action.eachOf, Action.on_bind_ok hon, Action.on_bind_ok hons]
    rfl

end Store

end TopicFilter
