import TopicFilter.Topic.Hex

/-!
# TopicSet — finite sets of topics in increasing order

A set is the strictly increasing list of its members, so two sets with the same members are equal
(`TopicSet.ext`) and every listing of a set is the same. Membership is all there is to see of the operations:
`mem_insert`, `mem_ofList`.
-/

namespace TopicFilter

/-- Topics in strictly increasing order. -/
structure TopicSet where
  /-- The members, smallest first. -/
  toList : List Topic
  /-- Each member is below all later ones. -/
  sorted : toList.Pairwise (· < ·)
deriving DecidableEq

namespace TopicSet

instance : Membership Topic TopicSet := ⟨fun s t => t ∈ s.toList⟩

instance (t : Topic) (s : TopicSet) : Decidable (t ∈ s) := inferInstanceAs (Decidable (t ∈ s.toList))

/-- No topics. -/
def empty : TopicSet := ⟨[], .nil⟩

instance : EmptyCollection TopicSet := ⟨empty⟩

instance : Inhabited TopicSet := ⟨empty⟩

/-- The set has no member. -/
def isEmpty (s : TopicSet) : Bool := s.toList.isEmpty

/-- A topic put into its place among increasing ones. -/
def insertInto (t : Topic) : List Topic → List Topic
  | [] => [t]
  | x :: rest =>
    if t < x then t :: x :: rest else if t = x then x :: rest else x :: insertInto t rest

theorem mem_insertInto {t u : Topic} {l : List Topic} : u ∈ insertInto t l ↔ u = t ∨ u ∈ l := by
  induction l with
  | nil => simp [insertInto]
  | cons x rest ih =>
    simp only [insertInto]
    split
    · simp
    · split
      · next h => subst h; simp
      · simp only [List.mem_cons, ih]
        constructor
        · rintro (h | h | h) <;> simp [h]
        · rintro (h | h | h) <;> simp [h]

theorem pairwise_insertInto {t : Topic} {l : List Topic} (h : l.Pairwise (· < ·)) :
    (insertInto t l).Pairwise (· < ·) := by
  induction l with
  | nil => simp [insertInto]
  | cons x rest ih =>
    obtain ⟨hx, hrest⟩ := List.pairwise_cons.mp h
    simp only [insertInto]
    split
    · next htx =>
      refine List.pairwise_cons.mpr ⟨?_, h⟩
      intro y hy
      rcases List.mem_cons.mp hy with rfl | hy
      · exact htx
      · exact Nat.lt_trans htx (hx y hy)
    · split
      · exact h
      · next hle hne =>
        refine List.pairwise_cons.mpr ⟨?_, ih hrest⟩
        intro y hy
        rcases mem_insertInto.mp hy with rfl | hy
        · have hne' : y.toNat ≠ x.toNat := fun e => hne (Topic.toNat_injective e)
          have hle' : ¬ y.toNat < x.toNat := hle
          exact Topic.lt_def.mpr (by omega)
        · exact hx y hy

/-- The set with one more member. -/
def insert (t : Topic) (s : TopicSet) : TopicSet := ⟨insertInto t s.toList, pairwise_insertInto s.sorted⟩

/-- The topics of a list, in any order and with repetitions. -/
def ofList (ts : List Topic) : TopicSet := ts.foldr insert ∅

@[simp] theorem not_mem_empty (t : Topic) : t ∉ (∅ : TopicSet) := List.not_mem_nil

@[simp] theorem mem_insert {t u : Topic} {s : TopicSet} : u ∈ s.insert t ↔ u = t ∨ u ∈ s :=
  mem_insertInto

@[simp] theorem mem_ofList {t : Topic} {ts : List Topic} : t ∈ ofList ts ↔ t ∈ ts := by
  induction ts with
  | nil => simp [ofList]
  | cons x rest ih =>
    have : ofList (x :: rest) = (ofList rest).insert x := rfl
    rw [this, mem_insert, ih, List.mem_cons]

theorem isEmpty_iff {s : TopicSet} : s.isEmpty = true ↔ s = ∅ := by
  constructor
  · intro h
    cases s with
    | mk l hl =>
      have : l = [] := by simpa [isEmpty] using h
      subst this
      rfl
  · rintro rfl
    rfl

/-- Increasing lists with the same members are the same list. -/
theorem eq_of_pairwise_of_mem_iff {l m : List Topic} (hl : l.Pairwise (· < ·))
    (hm : m.Pairwise (· < ·)) (h : ∀ t, t ∈ l ↔ t ∈ m) : l = m := by
  induction l generalizing m with
  | nil =>
    cases m with
    | nil => rfl
    | cons y m => exact absurd ((h y).mpr List.mem_cons_self) List.not_mem_nil
  | cons x l ih =>
    cases m with
    | nil => exact absurd ((h x).mp List.mem_cons_self) List.not_mem_nil
    | cons y m =>
      obtain ⟨hxl, hl'⟩ := List.pairwise_cons.mp hl
      obtain ⟨hym, hm'⟩ := List.pairwise_cons.mp hm
      have hxy : x = y := by
        rcases List.mem_cons.mp ((h x).mp List.mem_cons_self) with e | hx
        · exact e
        · rcases List.mem_cons.mp ((h y).mpr List.mem_cons_self) with e | hy
          · exact e.symm
          · have h1 : y.toNat < x.toNat := hym x hx
            have h2 : x.toNat < y.toNat := hxl y hy
            omega
      subst hxy
      congr 1
      refine ih hl' hm' fun t => ?_
      constructor
      · intro ht
        rcases List.mem_cons.mp ((h t).mp (List.mem_cons_of_mem _ ht)) with rfl | ht'
        · exact absurd (hxl t ht) (Nat.lt_irrefl _)
        · exact ht'
      · intro ht
        rcases List.mem_cons.mp ((h t).mpr (List.mem_cons_of_mem _ ht)) with rfl | ht'
        · exact absurd (hym t ht) (Nat.lt_irrefl _)
        · exact ht'

/-- **A set is its members.** -/
@[ext] theorem ext {s s' : TopicSet} (h : ∀ t, t ∈ s ↔ t ∈ s') : s = s' := by
  cases s with
  | mk l hl =>
    cases s' with
    | mk m hm =>
      have : l = m := eq_of_pairwise_of_mem_iff hl hm h
      subst this
      rfl

/-- The members by name, smallest first. -/
def hexList (s : TopicSet) : List Text := s.toList.map Topic.hex

/-- The members by name between braces. -/
def brief (s : TopicSet) : Text := text "\x7b" ++ Text.join (text ", ") s.hexList ++ text "\x7d"

end TopicSet

end TopicFilter
