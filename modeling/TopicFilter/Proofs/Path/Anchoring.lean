import TopicFilter.Proofs.Path.Reading
import TopicFilter.Proofs.Settings.Loading

/-!
# Proofs/Path/Anchoring — a chain of directories is put together from either end

Putting a path below a directory is done on texts: a slash goes between the two, unless the second text names a path from
the top, and what comes of it is read (`ofText_joinText`). On paths that is an action, so it does not matter where a chain
of directories is begun, nor whether what is below an absolute directory is put there once more (`on_anchor_chain`).
-/

namespace TopicFilter

namespace Path

variable {a b t : Text}

/-! ## Texts behind one another -/

/-- The text of a file behind that of a directory, with a slash between them where none is and something is to be parted.
A text that starts with a slash stands for itself. -/
def joinText (dir file : Text) : Text :=
  if file.head? = some slash then file
  else if dir = [] ∨ dir.getLast? = some slash then dir ++ file
  else dir ++ slash :: file

theorem takeWhile_slash_eq_nil_iff : t.takeWhile (· = slash) = [] ↔ t.head? ≠ some slash := by
  cases t with
  | nil => simp
  | cons c t => simp [List.takeWhile_cons]

/-- A path starts at the top exactly if its text starts with a slash. -/
theorem isAbsolute_ofText_iff : (ofText t).isAbsolute = true ↔ t.head? = some slash := by
  have hroot : rootOf t = .relative ↔ t.head? ≠ some slash := by
    rw [rootOf, ← takeWhile_slash_eq_nil_iff, ← List.length_eq_zero_iff]
    split
    · next hnone => simp [hnone]
    · next htwo => simp [htwo]
    · next hnone _ => simpa using hnone
  rw [isAbsolute, decide_eq_true_eq, ofText, ne_eq, hroot, not_not]

/-- What starts with no slash adds none to those in front. -/
theorem rootOf_append_of_head? (hb : b.head? ≠ some slash) (a : Text) : rootOf (a ++ b) = rootOf a := by
  have hnone : b.takeWhile (· = slash) = [] := takeWhile_slash_eq_nil_iff.mpr hb
  by_cases hall : ∃ c ∈ a, c ≠ slash
  · exact rootOf_append hall b
  · have hslashes : ∀ c ∈ a, decide (c = slash) = true := by simpa using hall
    rw [rootOf, List.takeWhile_append_of_pos hslashes, hnone, List.append_nil, rootOf,
      List.takeWhile_eq_self_iff.mpr hslashes]

/-- Behind a slash, or behind nothing, a text names the path below. -/
theorem ofText_append_of_getLast? (ha : a = [] ∨ a.getLast? = some slash) (hb : b.head? ≠ some slash) :
    ofText (a ++ b) = (ofText a).anchor (ofText b) := by
  have hparts : (ofText (a ++ b)).parts = (ofText a).parts ++ (ofText b).parts := by
    rcases ha with rfl | hlast
    · rfl
    · obtain ⟨front, rfl⟩ := List.getLast?_eq_some_iff.mp hlast
      have hfront : (ofText (front ++ [slash])).parts = (ofText front).parts :=
        (parts_ofText_append front []).trans (List.append_nil _)
      rw [List.append_assoc, List.singleton_append, hfront, parts_ofText_append]
  rw [anchor, if_neg (mt isAbsolute_ofText_iff.mp hb), ← hparts]
  exact congrArg (Path.mk · _) (rootOf_append_of_head? hb a)

/-- **Texts are joined as paths are anchored.** -/
theorem ofText_joinText (dir file : Text) : ofText (joinText dir file) = (ofText dir).anchor (ofText file) := by
  unfold joinText
  split
  · next htop => exact (anchor_of_isAbsolute (isAbsolute_ofText_iff.mpr htop) _).symm
  · next hbelow =>
    split
    · next hready => exact ofText_append_of_getLast? hready hbelow
    · next hpart =>
      obtain ⟨hne, hlast⟩ := not_or.mp hpart
      have hsome : ∃ c ∈ dir, c ≠ slash :=
        ⟨dir.getLast hne, List.getLast_mem hne, fun h => hlast (by rw [List.getLast?_eq_getLast_of_ne_nil hne, h])⟩
      exact ofText_append hsome (Bool.eq_false_iff.mpr (mt isAbsolute_ofText_iff.mp hbelow))

end Path

/-! ## Values that name paths -/

namespace Store

variable {s s₁ s₂ : Store} {u v w : Value} {a b c : Path}

theorem on_anchor (hu : NamesFile (some u) (some a)) (hv : NamesFile (some v) (some b)) (s : Store) :
    (Action.anchor u v).on s = (.ok (a.anchor b), s) := by
  rw [Action.anchor, Action.on_bind_ok hv.on_pathOf, Action.on_ite, Path.anchor]
  split
  · rfl
  · next hb =>
    rw [Action.on_bind_ok hu.on_pathOf, Path.anchor, if_neg hb]
    rfl

/-- Nobody asks for the directory of an absolute path. -/
theorem on_anchor_of_isAbsolute (hv : NamesFile (some v) (some b)) (hb : b.isAbsolute = true) (dir : Value) (s : Store) :
    (Action.anchor dir v).on s = (.ok b, s) := by
  rw [Action.anchor, Action.on_bind_ok hv.on_pathOf, hb]
  rfl

/-- The place of a file that is named by what a literal makes. -/
theorem on_resolvePath {x : Settings} {l f : Literal} (hl : (Action.make l).on s = (.ok (.settings x), s₁))
    (hf : (Action.make f).on s₁ = (.ok v, s₂)) (hv : NamesFile (some v) (some b)) :
    (Action.perform (.resolvePath l f)).on s = (Action.answer (.path (x.resolve b))).on s₂ := by
  have hsettings : (Action.asSettings (.settings x) "resolve_path").on s₂ = (.ok x, s₂) := rfl
  rw [Action.perform, Action.on_bind_ok hl, Action.on_bind_ok hf, Action.on_bind_ok hsettings,
    Action.on_bind_ok hv.on_pathOf]

/-- **Anchoring is an associative action.** Let values name three paths, as texts or as paths. Put together, two of them
name the path of the texts joined. The three can be put together from either end, whether what two of them came to is
handed on as a path or as a text. What two come to is absolute if one of them is, and an absolute path is the same below
anything. What is below an absolute directory is not moved by being put there again, so settings with an absolute
directory resolve a file and its place to one place. -/
theorem on_anchor_chain (hu : NamesFile (some u) (some a)) (hv : NamesFile (some v) (some b))
    (hw : NamesFile (some w) (some c)) (s : Store) :
    let anchored (dir file : Value) := (Action.anchor dir file).on s
    let ab := a.anchor b
    let bc := b.anchor c
    (anchored u v = (.ok ab, s) ∧ anchored v w = (.ok bc, s)) ∧
      (∀ t t', u.text? = some t → v.text? = some t' → ab = Path.ofText (Path.joinText t t')) ∧
      (∀ x y, NamesFile (some x) (some ab) → NamesFile (some y) (some bc) →
        ∃ abc, anchored x w = (.ok abc, s) ∧ anchored u y = (.ok abc, s)) ∧
      (ab.isAbsolute = true ↔ a.isAbsolute = true ∨ b.isAbsolute = true) ∧
      (b.isAbsolute = true → ∀ dir, anchored dir v = (.ok b, s)) ∧
      (a.isAbsolute = true →
        (∀ x, NamesFile (some x) (some ab) → anchored u x = (.ok ab, s)) ∧
        ∀ settings : Settings, settings.dataDir = a → ∀ l f x s₀ s₁ s₂,
          (Action.make l).on s₀ = (.ok (.settings settings), s₁) → (Action.make f).on s₁ = (.ok x, s₂) →
          NamesFile (some x) (some b) ∨ NamesFile (some x) (some ab) →
          (Action.perform (.resolvePath l f)).on s₀ = (Action.answer (.path ab)).on s₂) := by
  intro anchored ab bc
  refine ⟨⟨on_anchor hu hv s, on_anchor hv hw s⟩, fun t t' ht ht' => ?joined, fun x y hx hy => ?chain, ?top,
    fun hb dir => on_anchor_of_isAbsolute hv hb dir s, fun ha => ?again⟩
  case joined => rw [Path.ofText_joinText, ← hu.eq_ofText ht, ← hv.eq_ofText ht']
  case chain =>
    have hleft : anchored x w = (.ok (ab.anchor c), s) := on_anchor hx hw s
    have hright : anchored u y = (.ok (a.anchor bc), s) := on_anchor hu hy s
    exact ⟨_, hleft, hright.trans (by rw [Path.anchor_assoc])⟩
  case top => rw [Path.isAbsolute_anchor, Bool.or_eq_true]
  case again =>
    have hself : a.anchor ab = ab := Path.anchor_anchor_self ha b
    refine ⟨fun x hx => (on_anchor hu hx s).trans (by rw [hself]), fun settings hdir l f x s₀ s₁ s₂ hl hf hx => ?_⟩
    have hplace : settings.resolve b = ab := by rw [Settings.resolve, hdir]
    have hagain : settings.resolve ab = ab := by rw [Settings.resolve, hdir, hself]
    rcases hx with hx | hx
    · rw [on_resolvePath hl hf hx, hplace]
    · rw [on_resolvePath hl hf hx, hagain]

/-- A directory below the two slashes, under a text with more slashes and dots than it needs. -/
theorem on_anchor_chain_two_slashes :
    let s := holding []
    let a := Path.ofString "//srv//x/."
    let b := Path.ofString "y/.."
    let c := Path.ofString "./z/"
    let u : Value := .scalar (.text (TopicFilter.text "//srv//x/."))
    let v : Value := .scalar (.text (TopicFilter.text "y/.."))
    let anchored (dir file : Value) := (Action.anchor dir file).on s
    NamesFile (some u) (some a) ∧ NamesFile (some v) (some b) ∧ NamesFile (some (.path c)) (some c) ∧
      anchored u v = (.ok (Path.ofString "//srv/x/y/.."), s) ∧
      anchored (.scalar (.text (TopicFilter.text "//srv/x/y/.."))) (.path c) =
        (.ok (Path.ofString "//srv/x/y/../z"), s) ∧
      anchored u (.path (Path.ofString "y/../z")) = (.ok (Path.ofString "//srv/x/y/../z"), s) ∧
      anchored u (.path (Path.ofString "//srv/x/y/..")) = (.ok (Path.ofString "//srv/x/y/.."), s) := by
  intro s a b c u v anchored
  have hu : NamesFile (some u) (some a) := .text rfl
  have hv : NamesFile (some v) (some b) := .text rfl
  have hw : NamesFile (some (.path c)) (some c) := .path c
  have habsolute : a.isAbsolute = true := by decide
  have hab : a.anchor b = Path.ofString "//srv/x/y/.." := by decide
  have hbc : b.anchor c = Path.ofString "y/../z" := by decide
  obtain ⟨⟨hon, -⟩, -, hchain, -, -, hagain⟩ := on_anchor_chain hu hv hw s
  rw [hab] at hon hchain hagain
  rw [hbc] at hchain
  have htext : NamesFile (some (.scalar (.text (TopicFilter.text "//srv/x/y/..")))) (some (Path.ofString "//srv/x/y/..")) :=
    .text rfl
  obtain ⟨abc, hleft, hright⟩ := hchain _ _ htext (.path _)
  have habc : a.anchor (Path.ofString "y/../z") = Path.ofString "//srv/x/y/../z" := by decide
  obtain rfl : abc = Path.ofString "//srv/x/y/../z" := by
    simpa [anchored, on_anchor hu (.path _), habc] using hright.symm
  exact ⟨hu, hv, hw, hon, hleft, hright, (hagain habsolute).1 _ (.path _)⟩

end Store

end TopicFilter
