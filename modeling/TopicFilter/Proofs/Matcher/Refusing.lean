import TopicFilter.Proofs.Matcher.RawPayloads
import TopicFilter.Proofs.Matcher.Positions
import TopicFilter.Proofs.Store.Fitness
import TopicFilter.Proofs.Store.Taking

/-!
# Proofs/Matcher/Refusing — what any value at a position stands for

Whatever value stands at a position, it stands for a condition or is refused, and `s.StandsFor v outcome` says which.
The questions come in a fixed order: whether it is a condition itself, absent, or a payload; whether it can be gone
through; whether each of its items is fit for a set; and whether each of them is a topic. `exists_on_conditionOf` says
that there is no other outcome, and that nothing is reported and no cell changes but that of the value.
-/

namespace TopicFilter

namespace Store

variable {s s' s₁ : Store} {v w : Value} {a : Address} {items front back vs : List Value} {it : Option Address}
  {fault : Fault}

/-! ## Values hashed one after another -/

/-- Whether a value is fit for a set does not depend on what an iterator has left. -/
theorem fit_left (h : s.HasLeft it items) (back : List Value) (w : Value) : (s.left it back).fit w = s.fit w := by
  cases it with
  | none => rfl
  | some a =>
    have ha := h a rfl
    have hcell : ∀ b, (s.setCell a (.items .iterator back)).cell? b =
        if b = a then some (.items .iterator back) else s.cell? b := fun b => by
      by_cases hb : b = a
      · rw [if_pos hb, hb, cell?_setCell_self (lt_length_of_cell? ha)]
      · rw [if_neg hb, cell?_setCell_ne hb]
    have hrefusal : ∀ w, (s.setCell a (.items .iterator back)).refusal? w = s.refusal? w := fun w => by
      cases w with
      | object b => by_cases hb : b = a <;> simp [refusal?, cellOf?, hcell, hb, ha]
      | _ => rfl
    have hparts : ∀ w, (s.setCell a (.items .iterator back)).parts w = s.parts w := fun w => by
      cases w with
      | object b => by_cases hb : b = a <;> simp [parts, cellOf?, hcell, hb, ha]
      | _ => rfl
    have hdepth : (s.setCell a (.items .iterator back)).depth = s.depth := by simp [depth, setCell]
    rw [left_some, fit, fit, hdepth, fitWithin_congr hrefusal hparts]

theorem on_hashed (s : Store) (v : Value) : (Action.hashed v).on s = ((s.fit v).map fun _ => v, s) := by
  rw [Action.hashed, Action.on_bind, Action.on_inquire]
  cases s.fit v <;> rfl

theorem of_on_hashed (h : (Action.hashed v).on s = (.ok w, s')) : v = w ∧ s.fit v = .ok () ∧ s = s' := by
  rw [on_hashed] at h
  obtain ⟨hw, rfl⟩ := Prod.mk.inj h
  cases hfit : s.fit v with
  | error fault => simp [hfit, Except.map] at hw
  | ok => exact ⟨by simpa [hfit, Except.map] using hw, rfl, rfl⟩

/-- Hashing passes on values that are fit for a set, and only takes them. -/
theorem of_passes_hashed {rs : List Value} (hleft : s.HasLeft it (front ++ back))
    (h : Action.Passes Action.hashed it back s front rs s₁) :
    rs = front ∧ (∀ w ∈ front, s.fit w = .ok ()) ∧ s₁ = s.left it back := by
  induction h with
  | nil s => exact ⟨rfl, nofun, hleft.left_eq.symm⟩
  | @cons s s₁ s₂ v r front rs hv _ ih =>
    obtain ⟨rfl, hfit, rfl⟩ := of_on_hashed hv
    rw [fit_left hleft] at hfit
    obtain ⟨rfl, hfits, rfl⟩ := ih (hleft.left _)
    refine ⟨rfl, List.forall_mem_cons.mpr ⟨hfit, fun w hw => ?_⟩, left_left ..⟩
    rw [← hfits w hw, fit_left hleft]

/-- **All items are fit for a set, or the first that is not ends it.** -/
theorem on_hashedItems_cases (hi : s.items? v = some items) :
    (∀ w ∈ items, s.fit w = .ok ()) ∧ (Action.hashedItems v).on s = (.ok items, s.left (s.iterator? v) []) ∨
      ∃ front w back fault, items = front ++ w :: back ∧ (∀ u ∈ front, s.fit u = .ok ()) ∧ s.fit w = .error fault ∧
        (Action.hashedItems v).on s = (.error fault, s.left (s.iterator? v) back) := by
  have hleft := hasLeft_of_items? hi
  rw [Action.hashedItems, Action.on_forEach_eq _ hi]
  rcases Action.passes_or_stops Action.hashed (s.iterator? v) items s with
    ⟨rs, s₁, hpass⟩ | ⟨front, w, back, fault, s', rfl, hstop⟩
  · obtain ⟨rfl, hfits, rfl⟩ := of_passes_hashed (by rwa [List.append_nil]) hpass
    exact .inl ⟨hfits, hpass.on_takeEach⟩
  · rw [hstop.on_takeEach]
    obtain ⟨rs, s₁, hpass, hw⟩ := hstop
    obtain ⟨-, hfits, rfl⟩ := of_passes_hashed hleft hpass
    rw [left_left, on_hashed, fit_left hleft] at hw
    obtain ⟨hfault, rfl⟩ := Prod.mk.inj hw
    refine .inr ⟨front, w, back, fault, rfl, hfits, ?_, rfl⟩
    cases hfit : s.fit w with
    | error fault' =>
      rw [hfit] at hfault
      exact congrArg Except.error (Except.error.inj hfault)
    | ok =>
      rw [hfit] at hfault
      cases hfault

theorem on_eachOf_memberTopic_cases (s : Store) (vs : List Value) :
    (∃ ts : List Topic, vs = ts.map .topic ∧ (Action.eachOf Action.memberTopic vs).on s = (.ok ts, s)) ∨
      ∃ (ts : List Topic) (w : Value) (back : List Value), vs = ts.map .topic ++ w :: back ∧ (∀ t, w ≠ .topic t) ∧
        (Action.eachOf Action.memberTopic vs).on s = (.error (.conditionMember (s.className w)), s) := by
  induction vs with
  | nil => exact .inl ⟨[], rfl, rfl⟩
  | cons v vs ih =>
    by_cases hv : ∃ t, v = .topic t
    · obtain ⟨t, rfl⟩ := hv
      have ht : (Action.memberTopic (.topic t)).on s = (.ok t, s) := rfl
      rcases ih with ⟨ts, rfl, hon⟩ | ⟨ts, w, back, rfl, hw, hon⟩
      · refine .inl ⟨t :: ts, rfl, ?_⟩
        rw [Action.eachOf, Action.on_bind_ok ht, Action.on_bind_ok hon]
        rfl
      · refine .inr ⟨t :: ts, w, back, rfl, hw, ?_⟩
        rw [Action.eachOf, Action.on_bind_ok ht, Action.on_bind_error hon]
    · have hmember : (Action.memberTopic v).on s = (.error (.conditionMember (s.className v)), s) := by
        unfold Action.memberTopic
        split
        · next t => exact absurd ⟨t, rfl⟩ hv
        · rfl
      exact .inr ⟨[], v, vs, rfl, not_exists.mp hv, Action.on_bind_error hmember⟩

/-- **All values are topics, or the first of their set that is none ends it.** -/
theorem on_memberTopics_cases (hfit : ∀ v ∈ vs, s.fit v = .ok ()) :
    (∃ ts : List Topic, vs = ts.map .topic ∧ (Action.memberTopics vs).on s = (.ok (.ofList ts), s)) ∨
      ∃ (ts : List Topic) (w : Value) (back : List Value), s.members vs = ts.map .topic ++ w :: back ∧
        (∀ t, w ≠ .topic t) ∧ (Action.memberTopics vs).on s = (.error (.conditionMember (s.className w)), s) := by
  rcases on_eachOf_memberTopic_cases s (s.members vs) with ⟨us, hus, _⟩ | ⟨ts, w, back, hmembers, hw, hon⟩
  · have hlisted : ∀ w ∈ s.members vs, ∃ t, w = .topic t := fun w hw => by
      rw [hus] at hw
      obtain ⟨t, _, rfl⟩ := List.mem_map.mp hw
      exact ⟨t, rfl⟩
    obtain ⟨ts, rfl⟩ := exists_map_topic (forall_topic_of_members hfit hlisted)
    exact .inl ⟨ts, rfl, on_memberTopics ts⟩
  · refine .inr ⟨ts, w, back, hmembers, hw, ?_⟩
    rw [Action.memberTopics, Action.on_bind_ok (Action.on_get s), Action.on_bind_error hon]

/-! ## Positions -/

/-- The value is a text, or has bytes. -/
def IsBare (s : Store) (v : Value) : Prop := v.text?.isSome = true ∨ (s.bytes? v).isSome = true

/-- What a value at a position stands for. -/
inductive StandsFor (s : Store) : Value → Except Fault Value → Prop where
  /-- A condition stands for itself. -/
  | condition {v : Value} (h : s.IsCondition v) : s.StandsFor v (.ok v)
  /-- An absent position is a wildcard. -/
  | absent : s.StandsFor .none (.ok (.condition .any))
  /-- A payload by itself is refused. -/
  | bare {v : Value} (h : s.IsBare v) : s.StandsFor v (.error (.rawPayload (s.className v)))
  /-- Settings are gone through as pairs, which are no topics. -/
  | settings (x : Settings) : s.StandsFor (.settings x) (.error (.conditionMember "tuple"))
  /-- What cannot be gone through is refused. -/
  | notIterable {v : Value} (hne : v ≠ .none) (hcondition : ¬ s.IsCondition v) (hsettings : ∀ x, v ≠ .settings x)
      (h : s.items? v = none) : s.StandsFor v (.error (.notIterable (s.className v)))
  /-- The first item that is not fit for a set is refused, even after items that are no topics. -/
  | unfit {v w : Value} {front back : List Value} {fault : Fault} (hbare : ¬ s.IsBare v)
      (h : s.items? v = some (front ++ w :: back)) (hfront : ∀ u ∈ front, s.fit u = .ok ())
      (hw : s.fit w = .error fault) : s.StandsFor v (.error fault)
  /-- If all are fit for a set, the first that is no topic is refused, in the order in which the set lists them. -/
  | notTopic {v w : Value} {items : List Value} {ts : List Topic} {back : List Value} (hbare : ¬ s.IsBare v)
      (h : s.items? v = some items) (hfit : ∀ u ∈ items, s.fit u = .ok ())
      (hmembers : (s.left (s.iterator? v) []).members items = ts.map .topic ++ w :: back) (hw : ∀ t, w ≠ .topic t) :
      s.StandsFor v (.error (.conditionMember (s.className w)))
  /-- Topics stand for the condition on them. -/
  | topics {v : Value} {ts : List Topic} (hbare : ¬ s.IsBare v) (h : s.items? v = some (ts.map .topic)) :
      s.StandsFor v (.ok (.condition (.ofTopics (.ofList ts))))

/-- Nothing was reported, and no cell changed but that of a value. -/
structure Spares (s : Store) (v : Value) (s' : Store) : Prop where
  /-- The reports are the same. -/
  log : s'.log = s.log
  /-- The other cells are kept. -/
  keeps : s.KeepsBut (fun a => v = .object a) s'

namespace Spares

theorem refl (s : Store) (v : Value) : s.Spares v s := ⟨rfl, .refl s⟩

/-- An iterator may lose items. -/
theorem left (h : s.items? v = some items) (back : List Value) : s.Spares v (s.left (s.iterator? v) back) where
  log := log_left ..
  keeps := ((hasLeft_of_items? h).keepsBut_left back).mono fun _ ha => (iterator?_eq_some_iff.mp ha).1

end Spares

/-- A value that is no condition itself, not absent and no payload stands for the condition on its items. -/
theorem on_conditionOf_of_not_isBare (hcondition : ¬ s.IsCondition v) (hne : v ≠ .none) (hbare : ¬ s.IsBare v) :
    (Action.conditionOf v).on s =
      ((fun ts => .condition (.ofTopics ts)) <$> (Action.hashedItems v >>= Action.memberTopics)).on s := by
  have hpayload : ¬ (v.text?.isSome || (s.bytes? v).isSome) = true := fun h => hbare (Bool.or_eq_true_iff.mp h)
  have hon : (Action.conditionOn v).on s =
      (Condition.ofTopics <$> (Action.hashedItems v >>= Action.memberTopics)).on s := by
    rw [map_eq_pure_bind, bind_assoc, Action.conditionOn, Action.on_bind_ok (Action.on_bytes? v s), if_neg hpayload]
    exact hne
  rw [on_conditionOf_of_not_isCondition hcondition, Action.on_map, hon, Action.on_map, Action.on_map]
  rcases (Action.hashedItems v >>= Action.memberTopics).on s with ⟨_ | _, _⟩ <;> rfl

/-- What an iterator has left does not change the class of anything. -/
theorem className_left (h : s.HasLeft it items) (back : List Value) (w : Value) :
    (s.left it back).className w = s.className w := by
  cases it with
  | none => rfl
  | some a =>
    have ha := h a rfl
    cases w with
    | object b =>
      by_cases hb : b = a
      · simp [className, hb, ha, cell?_setCell_self (lt_length_of_cell? ha), cellClassName]
      · simp [className, cell?_setCell_ne hb]
    | _ => rfl

/-- A tuple of values that stand in no cell is fit for a set. -/
theorem fit_tuple (ha : s.cell? a = some (.items .tuple items)) (h : ∀ w ∈ items, s.cellOf? w = none) :
    s.fit (.object a) = .ok () := by
  obtain ⟨less, hless⟩ := Nat.exists_eq_add_of_lt (lt_length_of_cell? ha)
  have hitem : ∀ w ∈ items, s.fitWithin (a + less + 1) w = .ok () := fun w hw => by
    rw [fitWithin_succ]
    simp [refusal?, parts, h w hw]
    rfl
  rw [fit, depth, hless, fitWithin_succ]
  simp only [refusal?, parts, cellOf?, ha]
  clear ha h
  induction items with
  | nil => rfl
  | cons w items ih =>
    obtain ⟨hw, hitems⟩ := List.forall_mem_cons.mp hitem
    simp only [List.forM_eq_forM, List.forM_cons, hw]
    exact ih hitems

/-- Settings are gone through as pairs, which are fit for a set. -/
theorem exists_on_hashedItems_settings (s : Store) (x : Settings) :
    ∃ pairs s', (Action.hashedItems (.settings x)).on s = (.ok pairs, s') ∧ pairs ≠ [] ∧
      (∀ w ∈ pairs, s'.fit w = .ok () ∧ s'.className w = "tuple") ∧ s.Spares (.settings x) s' := by
  obtain ⟨i₁, i₂, i₃, hplain, hsource⟩ : ∃ i₁ i₂ i₃ : List Value,
      (∀ s : Store, ∀ w ∈ i₁ ++ i₂ ++ i₃, s.cellOf? w = none) ∧ (Action.source (.settings x)).on s =
        (.ok (.lasting [.object s.cells.length, .object (s.addCell (.items .tuple i₁)).cells.length,
          .object ((s.addCell (.items .tuple i₁)).addCell (.items .tuple i₂)).cells.length]),
          ((s.addCell (.items .tuple i₁)).addCell (.items .tuple i₂)).addCell (.items .tuple i₃)) := by
    refine ⟨_, _, _, fun s => ?_, rfl⟩
    simp [cellOf?]
  generalize hs₁ : s.addCell (.items .tuple i₁) = s₁ at hsource
  generalize hs₂ : s₁.addCell (.items .tuple i₂) = s₂ at hsource
  generalize hs₃ : s₂.addCell (.items .tuple i₃) = s₃ at hsource
  have hkeeps : s₂.KeepsBut (fun _ => False) s₃ := hs₃ ▸ .addCell
  have hkeeps' : s₁.KeepsBut (fun _ => False) s₃ := .trans (hs₂ ▸ .addCell) hkeeps
  have h₁ : s₃.cell? s.cells.length = some (.items .tuple i₁) := hkeeps'.cell (hs₁ ▸ cell?_addCell_self) id
  have h₂ : s₃.cell? s₁.cells.length = some (.items .tuple i₂) := hkeeps.cell (hs₂ ▸ cell?_addCell_self) id
  have h₃ : s₃.cell? s₂.cells.length = some (.items .tuple i₃) := hs₃ ▸ cell?_addCell_self
  have hpair : ∀ {a items}, s₃.cell? a = some (.items .tuple items) → (∀ w ∈ items, s₃.cellOf? w = none) →
      s₃.fit (.object a) = .ok () ∧ s₃.className (.object a) = "tuple" := fun ha h =>
    ⟨fit_tuple ha h, by simp [className, ha, cellClassName]⟩
  have hpairs : ∀ w ∈ [Value.object s.cells.length, .object s₁.cells.length, .object s₂.cells.length],
      s₃.fit w = .ok () ∧ s₃.className w = "tuple" := by
    have hplain₃ := hplain s₃
    simp only [List.mem_append, or_imp, forall_and] at hplain₃
    simp only [List.forall_mem_cons]
    exact ⟨hpair h₁ hplain₃.1.1, hpair h₂ hplain₃.1.2, hpair h₃ hplain₃.2, fun _ hw => absurd hw List.not_mem_nil⟩
  have hitems : (Action.hashedItems (.settings x)).on s =
      (.ok [.object s.cells.length, .object s₁.cells.length, .object s₂.cells.length], s₃) := by
    rw [Action.hashedItems, Action.forEach, Action.on_bind_ok hsource]
    refine (Action.on_eachOf (g := id) fun w hw => ?_).trans (by rw [List.map_id])
    rw [on_hashed, (hpairs w hw).1]
    rfl
  refine ⟨_, s₃, hitems, List.cons_ne_nil _ _, hpairs, ?_, ?_⟩
  · rw [← hs₃, ← hs₂, ← hs₁]
    rfl
  · rw [← hs₃, ← hs₂, ← hs₁]
    exact .trans .addCell (.trans .addCell .addCell)

/-- Settings are no topics, and neither are the pairs, whichever comes first in a set of them. -/
theorem exists_on_conditionOf_settings (s : Store) (x : Settings) :
    ∃ s', (Action.conditionOf (.settings x)).on s = (.error (.conditionMember "tuple"), s') ∧
      s.Spares (.settings x) s' := by
  obtain ⟨pairs, s', hitems, hne, hpairs, hspares⟩ := exists_on_hashedItems_settings s x
  have hmember : (Action.memberTopics pairs).on s' = (.error (.conditionMember "tuple"), s') := by
    rcases on_memberTopics_cases fun w hw => (hpairs w hw).1 with ⟨ts, rfl, _⟩ | ⟨ts, w, back, hmembers, _, hon⟩
    · obtain ⟨u, hu⟩ := List.exists_mem_of_ne_nil _ hne
      obtain ⟨t, _, rfl⟩ := List.mem_map.mp hu
      exact absurd (hpairs (.topic t) hu).2 (by decide : "Topic" ≠ "tuple")
    · have hw : w ∈ s'.members pairs := hmembers ▸ List.mem_append_right _ List.mem_cons_self
      rw [hon, (hpairs w (mem_of_mem_members hw)).2]
  have hcondition : ¬ s.IsCondition (.settings x) := fun h => by cases h
  have hbare : ¬ s.IsBare (.settings x) := by simp [IsBare, Value.text?, bytes?, cellOf?]
  refine ⟨s', ?_, hspares⟩
  rw [on_conditionOf_of_not_isBare hcondition (by simp) hbare, Action.on_map, Action.on_bind_ok hitems, hmember]
  rfl

/-- What cannot be gone through is refused for its class. -/
theorem on_hashedItems_of_items?_none (hsettings : ∀ x, v ≠ .settings x) (h : s.items? v = none) :
    (Action.hashedItems v).on s = (.error (.notIterable (s.className v)), s) := by
  refine Action.on_bind_error ?_
  rw [Action.source, Action.on_bind_ok (Action.on_cellOf? v s)]
  split
  · next a items hc => cases h.symm.trans (items?_object hc)
  · exact absurd rfl (hsettings _)
  · refine Action.on_bind_error ?_
    rw [Action.on_inquire, itemsOf, h]

/-- **Whatever stands at a position stands for a condition, or is refused.** -/
theorem exists_on_conditionOf (s : Store) (v : Value) :
    ∃ outcome s', (Action.conditionOf v).on s = (outcome, s') ∧ s.StandsFor v outcome ∧ s.Spares v s' := by
  by_cases hcondition : s.IsCondition v
  · exact ⟨_, _, hcondition.on_conditionOf, .condition hcondition, .refl s v⟩
  by_cases hne : v = .none
  · subst hne
    exact ⟨_, _, rfl, .absent, .refl s _⟩
  by_cases hbare : s.IsBare v
  · exact ⟨_, _, on_conditionOf_raw ⟨hbare, fun _ _ => id⟩, .bare hbare, .refl s v⟩
  by_cases hsettings : ∃ x, v = .settings x
  · obtain ⟨x, rfl⟩ := hsettings
    obtain ⟨s', hon, hspares⟩ := exists_on_conditionOf_settings s x
    exact ⟨_, s', hon, .settings x, hspares⟩
  have hon := on_conditionOf_of_not_isBare hcondition hne hbare
  cases hi : s.items? v with
  | none =>
    have hother := not_exists.mp hsettings
    rw [Action.on_map, Action.on_bind_error (on_hashedItems_of_items?_none hother hi)] at hon
    exact ⟨_, _, hon, .notIterable hne hcondition hother hi, .refl s v⟩
  | some items =>
    rcases on_hashedItems_cases hi with ⟨hfit, hitems⟩ | ⟨front, w, back, fault, rfl, hfront, hw, hitems⟩
    · rw [Action.on_map, Action.on_bind_ok hitems] at hon
      have hfit' : ∀ w ∈ items, (s.left (s.iterator? v) []).fit w = .ok () := fun w hw =>
        (fit_left (hasLeft_of_items? hi) [] w).trans (hfit w hw)
      rcases on_memberTopics_cases hfit' with ⟨ts, rfl, htopics⟩ | ⟨ts, w, back, hmembers, hw, htopics⟩
      · rw [htopics] at hon
        exact ⟨_, _, hon, .topics hbare hi, .left hi []⟩
      · rw [htopics, className_left (hasLeft_of_items? hi)] at hon
        exact ⟨_, _, hon, .notTopic hbare hi hfit hmembers hw, .left hi []⟩
    · rw [Action.on_map, Action.on_bind_error hitems] at hon
      exact ⟨_, _, hon, .unfit hbare hi hfront hw, .left hi back⟩

end Store

end TopicFilter
