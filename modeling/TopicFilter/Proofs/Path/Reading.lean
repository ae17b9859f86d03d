import Mathlib.Data.List.DropRight
import TopicFilter.Environment

/-!
# Proofs/Path/Reading — the path that a text names, piece by piece

A text is read at its slashes, so a text below another one names the path below the other's (`ofText_append`), and
slashes at the end of a text do not count, unless there is nothing else (`ofText_dropTrailingSlashes`). The text of a path
names the path itself (`ofText_toText`).
-/

namespace TopicFilter

variable {a b t : Text}

/-- A separator parts what stands before it from what stands after it. -/
theorem Text.splitOn_append (sep : CodePoint) (a b : Text) :
    splitOn sep (a ++ sep :: b) = splitOn sep a ++ splitOn sep b := by
  induction a with
  | nil =>
    obtain ⟨piece, pieces, hb⟩ := List.exists_cons_of_ne_nil (splitOn_ne_nil sep b)
    simp [splitOn, hb]
  | cons c a ih =>
    obtain ⟨piece, pieces, ha⟩ := List.exists_cons_of_ne_nil (splitOn_ne_nil sep a)
    by_cases hc : c = sep
    · simp [splitOn, ih, ha, hc]
    · simp [splitOn, ih, ha, hc]

/-- Without separators there is one piece. -/
theorem Text.splitOn_of_notMem {sep : CodePoint} (h : sep ∉ t) : splitOn sep t = [t] := by
  induction t with
  | nil => rfl
  | cons c t ih =>
    rw [splitOn, ih (List.not_mem_of_not_mem_cons h)]
    exact if_neg (List.ne_of_not_mem_cons h).symm

namespace Path

/-! ## Texts of one path -/

theorem parts_ofText_append (a b : Text) :
    (ofText (a ++ slash :: b)).parts = (ofText a).parts ++ (ofText b).parts := by
  rw [ofText, Text.splitOn_append, List.filterMap_append]
  rfl

/-- The root of a path stands before the first sign that is no slash. -/
theorem rootOf_append (h : ∃ c ∈ a, c ≠ slash) (b : Text) : rootOf (a ++ b) = rootOf a := by
  have hshort : (a.takeWhile (· = slash)).length ≠ a.length := fun hall => by
    obtain ⟨c, hc, hne⟩ := h
    have htake : a.takeWhile (· = slash) = a := (List.takeWhile_prefix _).eq_of_length hall
    exact hne (of_decide_eq_true (List.takeWhile_eq_self_iff.mp htake c hc))
  rw [rootOf, List.takeWhile_append, if_neg hshort, rootOf]

/-- **A text below another one names the path below the other's.** -/
theorem ofText_append (h : ∃ c ∈ a, c ≠ slash) (hb : (ofText b).isAbsolute = false) :
    ofText (a ++ slash :: b) = (ofText a).anchor (ofText b) := by
  rw [anchor, hb, if_neg Bool.false_ne_true, ← parts_ofText_append]
  exact congrArg (Path.mk · _) (rootOf_append h _)

/-- A text of slashes has no components. -/
theorem parts_ofText_replicate (n : Nat) : (ofText (List.replicate n slash)).parts = [] := by
  induction n with
  | zero => rfl
  | succ n ih =>
    have happend := parts_ofText_append [] (List.replicate n slash)
    rwa [ih] at happend

/-- **Slashes at the end do not count**, unless there is nothing else. -/
theorem ofText_dropTrailingSlashes (h : Environment.dropTrailingSlashes t ≠ []) :
    ofText (Environment.dropTrailingSlashes t) = ofText t := by
  change t.rdropWhile _ ≠ [] at h
  change ofText (t.rdropWhile _) = _
  induction t using List.reverseRecOn with
  | nil => rfl
  | append_singleton t c ih =>
    by_cases hc : c = slash
    · subst hc
      rw [List.rdropWhile_concat_pos _ _ _ (by simp)] at h ⊢
      have hsome : ∃ c ∈ t, c ≠ slash := by
        simpa [List.rdropWhile_eq_nil_iff] using h
      rw [ih h, ofText_append hsome rfl]
      exact (congrArg (Path.mk _) (List.append_nil _)).symm
    · rw [List.rdropWhile_concat_neg _ _ _ (by simpa using hc)]

/-! ## The text of a path -/

theorem parts_ofText_component (c : Component) : (ofText c.text).parts = [c] := by
  rw [ofText, Text.splitOn_of_notMem c.kept.2.2]
  simp [Component.ofText?, c.kept]

theorem parts_ofText_join (parts : List Component) :
    (ofText (Text.join [slash] (parts.map (·.text)))).parts = parts := by
  induction parts with
  | nil => rfl
  | cons c parts ih =>
    cases parts with
    | nil => exact parts_ofText_component c
    | cons d parts =>
      have happend := parts_ofText_append c.text (Text.join [slash] ((d :: parts).map (·.text)))
      rw [ih, parts_ofText_component] at happend
      rw [List.map_cons, List.map_cons, Text.join, List.append_assoc]
      exact happend
      · simp

/-- Components that are joined begin with no slash. -/
theorem takeWhile_join (parts : List Component) :
    (Text.join [slash] (parts.map (·.text))).takeWhile (· = slash) = [] := by
  cases parts with
  | nil => rfl
  | cons c parts =>
    obtain ⟨hne, _, hslash⟩ := c.kept
    obtain ⟨first, rest, htext⟩ := List.exists_cons_of_ne_nil hne
    have hfirst : first ≠ slash := fun h => hslash (by rw [htext, h]; exact List.mem_cons_self)
    cases parts with
    | nil => simp [Text.join, htext, hfirst]
    | cons d parts => simp [Text.join, htext, hfirst]

theorem rootOf_text_append (root : Root) (h : b.takeWhile (· = slash) = []) : rootOf (Root.text root ++ b) = root := by
  cases root <;> simp [rootOf, Root.text, h]

theorem parts_text_append (root : Root) (b : Text) : (ofText (Root.text root ++ b)).parts = (ofText b).parts := by
  have hslash (b : Text) : (ofText (slash :: b)).parts = (ofText b).parts := parts_ofText_append [] b
  cases root with
  | relative => rfl
  | top => exact hslash b
  | doubleTop => exact (hslash (slash :: b)).trans (hslash b)

/-- **A path is read back from its text.** -/
theorem ofText_toText (p : Path) : ofText p.toText = p := by
  obtain ⟨root, parts⟩ := p
  have hread : ofText (Root.text root ++ Text.join [slash] (parts.map (·.text))) = ⟨root, parts⟩ := by
    have hparts := (parts_text_append root _).trans (parts_ofText_join parts)
    have hroot := rootOf_text_append root (takeWhile_join parts)
    exact congr (congrArg Path.mk hroot) hparts
  cases root with
  | relative =>
    cases parts with
    | nil => rfl
    | cons c parts => exact hread
  | top | doubleTop => exact hread

end Path

end TopicFilter
