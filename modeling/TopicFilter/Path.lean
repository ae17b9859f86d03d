import TopicFilter.Text

/-!
# Path — a root and components

A path is read from its text by dropping empty and `.` components; `..` stays, since what it means depends on
the files. Two leading slashes are a root of their own, three or more are one. `anchor` puts a relative path
under a directory and leaves an absolute one alone; `anchor_assoc` makes it an action of paths on paths.
-/

namespace TopicFilter

/-- The slash between components. -/
def slash : CodePoint := CodePoint.ofChar '/'

/-- The tilde that stands for a home directory. -/
def tilde : CodePoint := CodePoint.ofChar '~'

/-- A name between slashes: not empty, not the dot, and without a slash. -/
structure Component where
  /-- The name. -/
  text : Text
  /-- It is one that a path keeps. -/
  kept : text ≠ [] ∧ text ≠ [CodePoint.ofChar '.'] ∧ slash ∉ text
deriving DecidableEq

/-- The piece as a component, unless paths drop it. -/
def Component.ofText? (piece : Text) : Option Component :=
  if h : piece ≠ [] ∧ piece ≠ [CodePoint.ofChar '.'] ∧ slash ∉ piece then some ⟨piece, h⟩ else none

/-- Where a path starts. -/
inductive Root where
  /-- At the working directory. -/
  | relative
  /-- At the top. -/
  | top
  /-- At the top named by exactly two slashes. -/
  | doubleTop
deriving DecidableEq

/-- A root and the components below it. -/
structure Path where
  /-- Where the path starts. -/
  root : Root
  /-- The components, outermost first. -/
  parts : List Component
deriving DecidableEq

namespace Path

/-- The root that the leading slashes of a text name. -/
def rootOf (t : Text) : Root :=
  match (t.takeWhile (· = slash)).length with
  | 0 => .relative
  | 2 => .doubleTop
  | _ => .top

/-- The path that a text names. -/
def ofText (t : Text) : Path :=
  { root := rootOf t, parts := (Text.splitOn slash t).filterMap Component.ofText? }

/-- The path of a string. -/
def ofString (s : String) : Path := ofText (Text.ofString s)

/-- The slashes that name a root. -/
def Root.text : Root → Text
  | .relative => []
  | .top => [slash]
  | .doubleTop => [slash, slash]

/-- The text of a path; the dot for the working directory itself. -/
def toText (p : Path) : Text :=
  match p.root, p.parts with
  | .relative, [] => [CodePoint.ofChar '.']
  | root, parts => Root.text root ++ Text.join [slash] (parts.map (·.text))

/-- The path starts at the top. -/
def isAbsolute (p : Path) : Bool := p.root ≠ .relative

/-- A path below a directory; an absolute path forgets the directory. -/
def anchor (dir file : Path) : Path :=
  if file.isAbsolute then file else { root := dir.root, parts := dir.parts ++ file.parts }

theorem anchor_of_isAbsolute {file : Path} (h : file.isAbsolute = true) (dir : Path) :
    dir.anchor file = file := by simp [anchor, h]

/-- A path below a directory starts at the top if one of the two does. -/
theorem isAbsolute_anchor (dir file : Path) :
    (dir.anchor file).isAbsolute = (dir.isAbsolute || file.isAbsolute) := by
  by_cases h : file.root = .relative
  · simp [anchor, isAbsolute, h]
  · simp [anchor, isAbsolute, h]

/-- What was put below an absolute directory stays where it is. -/
theorem anchor_anchor_self {dir : Path} (h : dir.isAbsolute = true) (file : Path) :
    dir.anchor (dir.anchor file) = dir.anchor file :=
  anchor_of_isAbsolute (by rw [isAbsolute_anchor, h, Bool.true_or]) dir

/-- **Anchoring is associative**, so a chain of directories can be read from either end. -/
theorem anchor_assoc (a b c : Path) : (a.anchor b).anchor c = a.anchor (b.anchor c) := by
  by_cases hc : c.root = .relative
  · by_cases hb : b.root = .relative
    · simp [anchor, isAbsolute, hc, hb]
    · simp [anchor, isAbsolute, hc, hb]
  · simp [anchor, isAbsolute, hc]

end Path

end TopicFilter
