import Mathlib.Data.Fintype.Pigeonhole
import Mathlib.Logic.Relation
import TopicFilter.Proofs.Store.Listing

/-!
# Proofs/Store/Fitness — which values are fit for a set

A value is fit for a set if nothing that it is made of can change or refuses in a way of its own. What is looked at for
it are its parts, `s.parts v`, and the parts of these. Either one of them refuses (`s.IsUnfit v`), or they come back to
themselves (`s.IsEndless v`), or the value is fit: `fit_cases`. The depth to which parts are followed is no limit, since
a way that is longer than there are cells meets one of them twice.
-/

namespace TopicFilter

namespace Store

open Relation

variable {s : Store} {v w : Value} {a : Address} {fuel : Nat} {fault : Fault}

/-- How a value refuses to go into a set, whatever its parts, if it does: it can change, or has its own reason. -/
def refusal? (s : Store) (v : Value) : Option Fault :=
  match s.cellOf? v with
  | some (.items .list _) => some (.unhashable "list")
  | some (.items .set _) => some (.unhashable "set")
  | some (.dict _) => some (.unhashable "dict")
  | some (.buffer _) => some (.unhashable "bytearray")
  | some (.stranger x) =>
    match x.fit with
    | .error fault => some fault
    | .ok _ => none
  | _ => none

/-- What has to be fit for a set if a value is to be. -/
def parts (s : Store) (v : Value) : List Value :=
  match s.cellOf? v with
  | some (.items .tuple items) => items
  | some (.labelled label _) => [label]
  | some (.matcher conditions) => [conditions]
  | _ => []

/-- A value has a part. -/
def Involves (s : Store) (v w : Value) : Prop := w ∈ s.parts v

/-- Something that the value is made of refuses to go into a set. -/
def IsUnfit (s : Store) (v : Value) : Prop :=
  ∃ w, ReflTransGen s.Involves v w ∧ (s.refusal? w).isSome = true

/-- A value of another class is among what the value is made of, and refuses in some way to go into a set. -/
def RefusesWith (s : Store) (v : Value) (fault : Fault) : Prop :=
  ∃ w x, ReflTransGen s.Involves v w ∧ s.stranger? w = some x ∧ x.fit = .error fault

/-- Something that the value is made of is a part of itself. -/
def IsEndless (s : Store) (v : Value) : Prop :=
  ∃ w, ReflTransGen s.Involves v w ∧ TransGen s.Involves w w

/-- The value is a set that can change. -/
def IsSet (s : Store) (v : Value) : Prop := ∃ items, s.cellOf? v = some (.items .set items)

/-! ## One step -/

/-- A value is looked at first, and then its parts in order. -/
theorem fitWithin_succ (s : Store) (fuel : Nat) (v : Value) :
    s.fitWithin (fuel + 1) v =
      match s.refusal? v with
      | some fault => .error fault
      | none => (s.parts v).forM (s.fitWithin fuel) := by
  have hone : ∀ w, [w].forM (s.fitWithin fuel) = s.fitWithin fuel w := fun w => by
    simp only [List.forM_eq_forM, List.forM_cons, List.forM_nil, bind, Except.bind, pure, Except.pure]
    cases s.fitWithin fuel w <;> rfl
  rw [fitWithin]
  unfold refusal? parts
  cases s.cellOf? v with
  | none => rfl
  | some c =>
    cases c with
    | items shape items => cases shape <;> rfl
    | labelled label topics => exact (hone label).symm
    | matcher conditions => exact (hone conditions).symm
    | stranger x =>
      dsimp only
      cases x.fit <;> rfl
    | _ => rfl

theorem forM_eq_ok {f : Value → Except Fault Unit} {vs : List Value} (h : vs.forM f = .ok ()) (hw : w ∈ vs) :
    f w = .ok () := by
  induction vs with
  | nil => cases hw
  | cons v vs ih =>
    simp only [List.forM_eq_forM, List.forM_cons, bind, Except.bind] at h ih
    split at h
    · cases h
    · next hv =>
      rcases List.mem_cons.mp hw with rfl | hw
      · exact hv
      · exact ih h hw

theorem exists_of_forM_eq_error {f : Value → Except Fault Unit} {vs : List Value} (h : vs.forM f = .error fault) :
    ∃ w ∈ vs, f w = .error fault := by
  induction vs with
  | nil => cases h
  | cons v vs ih =>
    simp only [List.forM_eq_forM, List.forM_cons, bind, Except.bind] at h ih
    split at h
    · next hv => exact ⟨v, List.mem_cons_self, hv.trans h⟩
    · obtain ⟨w, hw, hfault⟩ := ih h
      exact ⟨w, List.mem_cons_of_mem v hw, hfault⟩

/-- The parts of what is fit are fit. -/
theorem fitWithin_of_involves (h : s.fitWithin fuel v = .ok ()) (hw : s.Involves v w) :
    ∃ less, fuel = less + 1 ∧ s.fitWithin less w = .ok () := by
  cases fuel with
  | zero => cases h
  | succ less =>
    rw [fitWithin_succ] at h
    split at h
    · cases h
    · exact ⟨less, rfl, forM_eq_ok h hw⟩

/-- Whether a value is fit for a set depends on refusals and parts alone. -/
theorem fitWithin_congr {s' : Store} (hrefusal : ∀ v, s'.refusal? v = s.refusal? v)
    (hparts : ∀ v, s'.parts v = s.parts v) (fuel : Nat) : s'.fitWithin fuel = s.fitWithin fuel := by
  induction fuel with
  | zero => rfl
  | succ fuel ih =>
    funext v
    rw [fitWithin_succ, fitWithin_succ, hrefusal, hparts, ih]

/-- What can change is refused for its class, and a value of another class in its own way. -/
theorem refusal?_cases (h : s.refusal? v = some fault) :
    fault.sort = .type ∨ ∃ x, s.stranger? v = some x ∧ x.fit = .error fault := by
  unfold refusal? at h
  split at h
  · cases h
    exact .inl rfl
  · cases h
    exact .inl rfl
  · cases h
    exact .inl rfl
  · cases h
    exact .inl rfl
  · next x hx =>
    split at h
    · next hfit =>
      cases h
      exact .inr ⟨x, by rw [stranger?, hx], hfit⟩
    · cases h
  · cases h

/-! ## All the way -/

theorem not_isUnfit_of_fitWithin (h : s.fitWithin fuel v = .ok ()) : ¬ s.IsUnfit v := by
  rintro ⟨w, hvw, hw⟩
  induction hvw using ReflTransGen.head_induction_on generalizing fuel with
  | refl =>
    cases fuel with
    | zero => cases h
    | succ less =>
      rw [fitWithin_succ] at h
      split at h
      · cases h
      · next hnone => simp [hnone] at hw
  | head hstep _ ih =>
    obtain ⟨less, _, hless⟩ := fitWithin_of_involves h hstep
    exact ih hless

/-- What is a part of itself is never found fit: it would have to be found so with less and less depth. -/
theorem fitWithin_ne_ok_of_transGen (h : TransGen s.Involves v v) : s.fitWithin fuel v ≠ .ok () := by
  induction fuel generalizing v with
  | zero => nofun
  | succ less ih =>
    intro hok
    obtain ⟨w, hvw, hwv⟩ := TransGen.head'_iff.mp h
    obtain ⟨less', heq, hw⟩ := fitWithin_of_involves hok hvw
    obtain rfl : less = less' := Nat.succ.inj heq
    exact ih (TransGen.tail' hwv hvw) hw

theorem not_isEndless_of_fitWithin (h : s.fitWithin fuel v = .ok ()) : ¬ s.IsEndless v := by
  rintro ⟨w, hvw, hw⟩
  induction hvw using ReflTransGen.head_induction_on generalizing fuel with
  | refl => exact fitWithin_ne_ok_of_transGen hw h
  | head hstep _ ih =>
    obtain ⟨less, _, hless⟩ := fitWithin_of_involves h hstep
    exact ih hless

/-- What is not found fit has a part that is not, or a way from part to part that is as long as the depth. -/
theorem fitWithin_eq_error (h : s.fitWithin fuel v = .error fault) :
    (∃ w, ReflTransGen s.Involves v w ∧ s.refusal? w = some fault) ∨
      fault = .endless ∧ ∃ way : Nat → Value, way 0 = v ∧ ∀ i < fuel, s.Involves (way i) (way (i + 1)) := by
  induction fuel generalizing v with
  | zero =>
    cases h
    exact .inr ⟨rfl, fun _ => v, rfl, fun i hi => absurd hi (Nat.not_lt_zero i)⟩
  | succ less ih =>
    rw [fitWithin_succ] at h
    split at h
    · next hrefusal =>
      cases h
      exact .inl ⟨v, .refl, hrefusal⟩
    · obtain ⟨w, hw, hfault⟩ := exists_of_forM_eq_error h
      rcases ih hfault with ⟨u, hwu, hu⟩ | ⟨hend, way, rfl, hway⟩
      · exact .inl ⟨u, .head hw hwu, hu⟩
      · refine .inr ⟨hend, fun i => i.casesOn v way, rfl, fun i hi => ?_⟩
        cases i with
        | zero => exact hw
        | succ i => exact hway i (Nat.lt_of_succ_lt_succ hi)

/-- Only what stands in a cell has parts. -/
theorem Involves.exists_lt (h : s.Involves v w) : ∃ a, v = .object a ∧ a < s.cells.length := by
  cases v with
  | object a =>
    cases hc : s.cell? a with
    | none => simp [Involves, parts, cellOf?, hc] at h
    | some c => exact ⟨a, rfl, lt_length_of_cell? hc⟩
  | _ => cases h

/-- From one place of a way to a later one it goes from part to part. -/
theorem transGen_of_way {way : Nat → Value} {n i j : Nat} (h : ∀ i < n, s.Involves (way i) (way (i + 1)))
    (hij : i < j) (hj : j ≤ n) : TransGen s.Involves (way i) (way j) := by
  induction j, hij using Nat.le_induction with
  | base => exact .single (h i hj)
  | succ j _ ih => exact (ih (Nat.le_of_succ_le hj)).tail (h j hj)

/-- **A way that is longer than there are cells comes back to where it was.** -/
theorem isEndless_of_way {way : Nat → Value} (h : ∀ i < s.depth, s.Involves (way i) (way (i + 1))) :
    s.IsEndless (way 0) := by
  have hback : ∀ {i j}, i < j → j < s.depth → way i = way j → s.IsEndless (way 0) := by
    intro i j hij hj heq
    refine ⟨way i, ?_, by simpa [← heq] using transGen_of_way h hij hj.le⟩
    rcases Nat.eq_zero_or_pos i with rfl | hi
    · exact .refl
    · exact (transGen_of_way h hi (hij.trans hj).le).to_reflTransGen
  choose! address hway hlt using fun i (hi : i < s.depth) => (h i hi).exists_lt
  have hcard : Fintype.card (Fin s.cells.length) < Fintype.card (Fin s.depth) := by
    rw [Fintype.card_fin, Fintype.card_fin]
    exact Nat.lt_succ_self _
  obtain ⟨i, j, hne, heq⟩ := Fintype.exists_ne_map_eq_of_card_lt
    (fun i : Fin s.depth => (⟨address i, hlt i i.2⟩ : Fin s.cells.length)) hcard
  have hsame : way i = way j := by rw [hway i i.2, hway j j.2, Fin.mk.inj heq]
  rcases Nat.lt_or_gt_of_ne (Fin.val_ne_of_ne hne) with hij | hji
  · exact hback hij j.2 hsame
  · exact hback hji i.2 hsame.symm

/-- **A value is fit for a set, or something that it is made of refuses, or is a part of itself.** What can change is
refused for its class, and a value of another class in its own way. -/
theorem fit_cases (s : Store) (v : Value) :
    (s.fit v = .ok () ∧ ¬ s.IsUnfit v ∧ ¬ s.IsEndless v) ∨
      (∃ fault, s.fit v = .error fault ∧ s.IsUnfit v ∧ (fault.sort = .type ∨ s.RefusesWith v fault)) ∨
      s.fit v = .error .endless ∧ s.IsEndless v := by
  cases h : s.fit v with
  | ok _ => exact .inl ⟨rfl, not_isUnfit_of_fitWithin h, not_isEndless_of_fitWithin h⟩
  | error fault =>
    rcases fitWithin_eq_error h with ⟨w, hvw, hw⟩ | ⟨rfl, way, rfl, hway⟩
    · refine .inr (.inl ⟨fault, rfl, ⟨w, hvw, by rw [hw]; rfl⟩, ?_⟩)
      refine (refusal?_cases hw).imp_right ?_
      rintro ⟨x, hx, hfit⟩
      exact ⟨w, x, hvw, hx, hfit⟩
    · exact .inr (.inr ⟨rfl, isEndless_of_way hway⟩)

/-- A set can be asked for; anything else can if it is fit for one. -/
theorem askable_of_isSet (h : s.IsSet v) : s.askable v = .ok () := by
  obtain ⟨items, hc⟩ := h
  simp [askable, hc]

theorem askable_of_not_isSet (h : ¬ s.IsSet v) : s.askable v = s.fit v := by
  unfold askable
  split
  · next items hc => exact absurd ⟨items, hc⟩ h
  · rfl

end Store

end TopicFilter
