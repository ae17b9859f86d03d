import TopicFilter.FileTree
import TopicFilter.Log
import TopicFilter.Matcher
import TopicFilter.Scalar
import TopicFilter.Settings

/-!
# Store — values of every class, and the state that some of them share

A caller may hand over a value of any class. Values that cannot change are held by themselves; whatever can change,
or is told apart from others like it, is kept in a cell of the store and held by its address. Topics, conditions and
settings are of the first sort, so no later change to the store can reach them. A matcher is of the second sort, since
what it holds can be exchanged for something else.

`Action` is a computation on the store. It may fail, and what it did before it failed stays done.
-/

namespace TopicFilter

/-- The place of a cell. -/
abbrev Address := Nat

/-- How a collection behaves. -/
inductive Shape where
  /-- Ordered, and can change. -/
  | list
  /-- Ordered. -/
  | tuple
  /-- Without repetitions, and can change. -/
  | set
  /-- Without repetitions. -/
  | frozenSet
  /-- Items that are gone once they have been looked at. -/
  | iterator
deriving DecidableEq

/-- A value. Those of the classes that are made here have forms of their own, and a value of another class is a
`Stranger` in a cell. So is a value of a class that is derived from one of these, such as a text or a kind of a class of
its own, as far as nobody asks whether it is one of theirs. Left out are classes themselves, functions, and the bytes of
views whose items are not single bytes. -/
inductive Value where
  /-- A value without parts. -/
  | scalar (s : Scalar)
  /-- A view of bytes that cannot change, byte by byte. -/
  | view (b : Bytes)
  /-- A topic. -/
  | topic (t : Topic)
  /-- A kind of condition. -/
  | kind (k : Kind)
  /-- A condition. -/
  | condition (c : Condition)
  /-- A path. -/
  | path (p : Path)
  /-- Settings. -/
  | settings (s : Settings)
  /-- What the cell at an address holds. -/
  | object (a : Address)
deriving DecidableEq

/-- The absent value. -/
abbrev Value.none : Value := .scalar .none

/-- What tells apart a value from others that are equal to it. -/
abbrev Origin := Nat

/-- A value that is told apart from others. -/
structure Kept where
  /-- The value. -/
  value : Value
  /-- What tells it apart. -/
  origin : Origin

/-- The classes of what is made here and kept in cells. -/
def cellClassNames : List String :=
  ["list", "tuple", "set", "frozenset", "list_iterator", "dict", "bytearray", "FilterCondition", "TopicMatcher",
    "HashlibHasher", "FixedHasher", "TopicDeriver"]

/-- A value of another class, known by how it answers when it is gone through, put into a set or compared. It answers
the same each time and changes nothing, and a set that can hold it goes by what it equals; whatever else is asked of it
it refuses. A value that looks like a text without being one is a stranger, and so is a view through which bytes can be
changed. -/
structure Stranger where
  /-- The name of its class. -/
  className : String
  /-- The bytes that it is a view of, byte by byte, if it is a view. -/
  bytes : Option Bytes
  /-- Its items, if it is no view and can be gone through. -/
  items : Option (List Value)
  /-- It is fit for a set, or fails in some way when it is put into one. -/
  fit : Except Fault Unit
  /-- It equals a value. -/
  equals : Value → Except Fault Bool
  /-- Its class is another one. -/
  className_not_mem : className ∉ cellClassNames
  /-- No set takes it for a topic. -/
  ne_topic : fit = .ok () → ∀ t, equals (.topic t) ≠ .ok true

/-- What a cell holds. -/
inductive Cell where
  /-- A collection. -/
  | items (shape : Shape) (items : List Value)
  /-- A mapping, its keys in the order in which they came. -/
  | dict (entries : List (Value × Value))
  /-- Bytes that can change. -/
  | buffer (b : Bytes)
  /-- A condition under something that is no kind. It is no wildcard and accepts its topics, however few. -/
  | labelled (label : Value) (topics : TopicSet)
  /-- A matcher over what should be a collection of conditions. -/
  | matcher (conditions : Value)
  /-- A hasher by the name of its algorithm, with the digest size that it claims. -/
  | hasher (name size : Value)
  /-- A hasher that notes in a list what it is asked to hash, and answers by some rule. -/
  | recorder (name : Text) (size : Int) (answer : Kept → Kept) (calls : Value)
  /-- A deriver over what should be a hasher. -/
  | deriver (hasher : Value)
  /-- A value of another class. -/
  | stranger (x : Stranger)

/-- The order in which a set lists its members. It goes by their hashes, and so may be any for each list of values in
the order in which they came. -/
structure SetOrder where
  /-- The values in order. -/
  list : List Value → List Value
  /-- They are the same values. -/
  perm : ∀ vs, (list vs).Perm vs

/-- The order in which the values came. -/
def SetOrder.arrival : SetOrder := ⟨id, fun _ => .refl _⟩

/-- Everything that an operation may read or change. -/
structure Store where
  /-- The cells, by address. -/
  cells : List Cell
  /-- The attributes that were given to what is in a cell and are not kept in it; of two under one name the first
  counts. -/
  attributes : List (Address × Text × Value)
  /-- The kept values; of two under one name the first counts. -/
  names : List (Text × Kept)
  /-- The next origin that is not in use. -/
  nextOrigin : Origin
  /-- The reports so far. -/
  log : Log
  /-- Where the user is at home. -/
  environment : Environment
  /-- The files. -/
  files : FileTree
  /-- How the logs are set up. -/
  logging : Settings.Logging
  /-- How sets list their members. -/
  order : SetOrder
  /-- Attributes are given to cells that are there. -/
  attributes_lt : ∀ entry ∈ attributes, entry.1 < cells.length

/-- A computation on the store. -/
abbrev Action := ExceptT Fault (StateM Store)

namespace Store

/-- The address of the hasher that is used when none is given. -/
def standardHasher : Address := 0

/-- The address of the deriver that is used when none is given. -/
def standardDeriver : Address := 1

/-- The origin of the constant sentinel. -/
def sentinelOrigin : Origin := 0

/-- The cell of a hasher. -/
def hasherCell (h : Hasher) : Cell := .hasher (.scalar (.text h.name)) (.scalar (.int h.size))

/-- A store in which nothing has been done, whose sets list their members as they came. -/
def initial (environment : Environment) (files : FileTree) : Store :=
  { cells := [hasherCell Deriver.standard.hasher, .deriver (.object standardHasher)]
    attributes := []
    names := []
    nextOrigin := sentinelOrigin + 1
    log := []
    environment
    files
    logging := .initial
    order := .arrival
    attributes_lt := nofun }

/-- The cell at an address. -/
def cell? (s : Store) (a : Address) : Option Cell := s.cells[a]?

/-- The cell that holds a value, if one does. -/
def cellOf? (s : Store) : Value → Option Cell
  | .object a => s.cell? a
  | _ => none

/-- What is known of a value of another class. -/
def stranger? (s : Store) (v : Value) : Option Stranger :=
  match s.cellOf? v with
  | some (.stranger x) => some x
  | _ => none

/-- What is kept under a name. -/
def kept? (s : Store) (name : Text) : Option Kept := (s.names.find? (·.1 = name)).map (·.2)

/-- The class that gives attributes to what a cell holds, if it has attributes of its own. -/
def attributeOwner? : Cell → Option String
  | .matcher _ => some "TopicMatcher"
  | .hasher .. | .recorder .. => some "HasherPort"
  | .deriver _ => some "TopicDeriver"
  | _ => none

/-- What an attribute of a value was given, where it is not kept in the cell. -/
def assigned? (s : Store) (v : Value) (name : String) : Option Value :=
  match v with
  | .object a =>
    if ((s.cell? a).bind attributeOwner?).isSome then
      (s.attributes.find? fun entry => entry.1 = a && entry.2.1 = text name).map (·.2.2)
    else none
  | _ => none

/-- The name of the class of what a cell holds. -/
def cellClassName : Cell → String
  | .items .list _ => "list"
  | .items .tuple _ => "tuple"
  | .items .set _ => "set"
  | .items .frozenSet _ => "frozenset"
  | .items .iterator _ => "list_iterator"
  | .dict _ => "dict"
  | .buffer _ => "bytearray"
  | .labelled .. => "FilterCondition"
  | .matcher _ => "TopicMatcher"
  | .hasher .. => "HashlibHasher"
  | .recorder .. => "FixedHasher"
  | .deriver _ => "TopicDeriver"
  | .stranger x => x.className

/-- The name of the class of a value. -/
def className (s : Store) : Value → String
  | .scalar x => x.className
  | .view _ => "memoryview"
  | .topic _ => "Topic"
  | .kind _ => "ConditionKind"
  | .condition _ => "FilterCondition"
  | .path _ => "PosixPath"
  | .settings _ => "HashTopicSettings"
  | .object a => ((s.cell? a).map cellClassName).getD "object"

/-- What an attribute was given that no cell keeps. -/
def ownAttribute (s : Store) (v : Value) (name : String) : Except Fault Value :=
  match s.assigned? v name with
  | some other => .ok other
  | none => .error (.noAttribute (s.className v) (text name))

/-! ## Changes -/

/-- The store with something else in a cell. -/
def setCell (s : Store) (a : Address) (c : Cell) : Store :=
  { s with
    cells := s.cells.set a c
    attributes_lt := by simpa using s.attributes_lt }

/-- The store with a cell more. -/
def addCell (s : Store) (c : Cell) : Store :=
  { s with
    cells := s.cells ++ [c]
    attributes_lt := fun entry h => by
      rw [List.length_append]
      exact Nat.lt_add_right _ (s.attributes_lt entry h) }

/-- The store with an attribute given to what the cell at an address holds. -/
def addAttribute (s : Store) (a : Address) (name : Text) (value : Value) : Store :=
  if h : a < s.cells.length then
    { s with
      attributes := (a, name, value) :: s.attributes
      attributes_lt := List.forall_mem_cons.mpr ⟨h, s.attributes_lt⟩ }
  else s

/-- More cells than a way from value to part can pass without coming back to one of them. -/
def depth (s : Store) : Nat := s.cells.length + 1

end Store

namespace Action

/-- The cell at an address. -/
def cell? (a : Address) : Action (Option Cell) := return (← get).cell? a

/-- The cell that holds a value, if one does. -/
def cellOf? (v : Value) : Action (Option Cell) := return (← get).cellOf? v

/-- Replaces what a cell holds. -/
def setCell (a : Address) (c : Cell) : Action Unit := modify (·.setCell a c)

/-- A new cell. -/
def allocate (c : Cell) : Action Value := do
  let s ← get
  set (s.addCell c)
  return .object s.cells.length

/-- A new collection. -/
def collect (shape : Shape) (items : List Value) : Action Value := allocate (.items shape items)

/-- A failure that names the class of a value. -/
def failAs {α : Type} (fault : String → Fault) (v : Value) : Action α := do
  throw (fault ((← get).className v))

/-- A failure for want of an attribute. -/
def lacks {α : Type} (v : Value) (name : String) : Action α := failAs (.noAttribute · (text name)) v

/-- A function of a class is in its place. Whatever else was put there cannot be called. -/
def inPlace (v : Value) (name : String) : Action Unit := do
  match (← get).assigned? v name with
  | some other => failAs .notCallable other
  | none => return ()

/-- A value that is told apart from all others. -/
def fresh (value : Value) : Action Kept := do
  let s ← get
  set { s with nextOrigin := s.nextOrigin + 1 }
  return { value, origin := s.nextOrigin }

/-- A computation that does not touch the store. -/
def ofExcept {α : Type} : Except Fault α → Action α
  | .ok a => pure a
  | .error fault => throw fault

/-- A computation that only reads the store. -/
def inquire {α : Type} (f : Store → Except Fault α) : Action α := do ofExcept (f (← get))

/-- A computation that only reports. -/
def ofReporting {α : Type} (r : Reporting α) : Action α := do
  let (outcome, log) := r.outcome
  modify fun s => { s with log := s.log ++ log }
  ofExcept outcome

/-- A report. -/
def report (entry : LogEntry) : Action Unit := modify fun s => { s with log := s.log ++ [entry] }

end Action

end TopicFilter
