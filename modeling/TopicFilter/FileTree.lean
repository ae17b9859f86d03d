import TopicFilter.Path
import TopicFilter.Text.Utf8

/-!
# FileTree — files and directories as the library sees them

An entry is known by the names on the way to it from the top. The working directory and the directories above it
always exist. A path is followed name by name: each name but the last has to lead to a directory, and two dots
lead to the directory above, so that what a path means depends on the tree. Names and paths have limits to their
length in bytes; a path that exceeds one is told apart from a path that leads nowhere.
-/

namespace TopicFilter

/-- The names on the way from the top. -/
abbrev Location := List Text

/-- What stands at a location. -/
inductive Entry where
  /-- A directory. -/
  | directory
  /-- A file and its content. -/
  | file (content : Bytes)
deriving DecidableEq

/-- The entries and the working directory. -/
structure FileTree where
  /-- The working directory. -/
  workingDir : Location
  /-- The entries below the top; of two at one location the first counts. -/
  entries : List (Location × Entry)

/-- A change to the tree. -/
inductive FileChange where
  /-- A file with some content, with the directories above it. -/
  | write (path : Path) (content : Bytes)
  /-- A directory, with those above it. -/
  | makeDir (path : Path)
  /-- Nothing where something was, with what was below it. -/
  | remove (path : Path)

namespace FileTree

/-- The two dots that lead upwards. -/
def up : Text := text ".."

/-- What there is at the end of a path. -/
inductive Finding where
  /-- An entry. -/
  | found (entry : Entry)
  /-- Nothing. -/
  | missing
  /-- The path, or a name on the way, is too long to be followed. -/
  | tooLong
deriving DecidableEq

/-- The most bytes in a name. -/
def nameLimit : Nat := 255

/-- The most bytes in a path. -/
def pathLimit : Nat := 4095

/-- The number of bytes of a code point in a path. The last surrogates stand for one byte each that belongs to no
character; the other surrogates and the zero have no place in a path. -/
def pointSize? (c : CodePoint) : Option Nat :=
  if 0xDC80 ≤ c.toNat ∧ c.toNat ≤ 0xDCFF then some 1
  else if c.isSurrogate ∨ c.toNat = 0 then none
  else some (Utf8.encodePoint c).length

/-- The number of bytes of a text in a path, if it has a place there. -/
def textSize? : Text → Option Nat
  | [] => some 0
  | c :: t => do return (← pointSize? c) + (← textSize? t)

/-- The name has more bytes than a name may have. -/
def isLongName (name : Text) : Bool := (textSize? name).any (nameLimit < ·)

/-- What stands at a location. -/
def entry? (tree : FileTree) (l : Location) : Option Entry :=
  if l <+: tree.workingDir then some .directory
  else (tree.entries.find? (·.1 = l)).map (·.2)

/-- What there is at the end of some names, each of which leads on from a directory. -/
def follow (tree : FileTree) : Location → List Text → Finding
  | l, [] =>
    match tree.entry? l with
    | some entry => .found entry
    | none => .missing
  | l, name :: names =>
    match tree.entry? l with
    | some .directory =>
      if isLongName name then .tooLong
      else follow tree (if name = up then l.dropLast else l ++ [name]) names
    | _ => .missing

/-- Where a path starts. -/
def start (tree : FileTree) (p : Path) : Location := if p.isAbsolute then [] else tree.workingDir

/-- What a path leads to. -/
def find (tree : FileTree) (p : Path) : Finding :=
  match textSize? p.toText with
  | none => .missing
  | some size =>
    if pathLimit < size then .tooLong else tree.follow (tree.start p) (p.parts.map (·.text))

/-- The location that a path names, whether or not anything is there. -/
def location (tree : FileTree) (p : Path) : Location :=
  p.parts.foldl (fun l name => if name.text = up then l.dropLast else l ++ [name.text]) (tree.start p)

/-- The locations above a location, without the top. -/
def ancestors (l : Location) : List Location := ((List.range l.length).drop 1).map l.take

/-- The tree with an entry at a location, in directories that exist. -/
def put (tree : FileTree) (l : Location) (e : Entry) : FileTree :=
  let missing := (ancestors l).filter fun a => tree.entry? a = none
  { tree with entries := (l, e) :: missing.map (·, .directory) ++ tree.entries }

/-- The tree after a change. -/
def apply (tree : FileTree) : FileChange → FileTree
  | .write p content => tree.put (tree.location p) (.file content)
  | .makeDir p => tree.put (tree.location p) .directory
  | .remove p =>
    { tree with entries := tree.entries.filter fun entry => !(tree.location p).isPrefixOf entry.1 }

/-- The tree after some changes, in order. -/
def applyAll (tree : FileTree) (changes : List FileChange) : FileTree := changes.foldl apply tree

end FileTree

end TopicFilter
