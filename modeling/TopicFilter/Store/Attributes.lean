import TopicFilter.Store.Attributes.Names
import TopicFilter.Store.Description

/-!
# Store/Attributes — what becomes of an assignment to an attribute

Topics, conditions and settings refuse. A matcher, a hasher or a deriver takes an attribute of any name, apart from
those that it computes; some of the names are those of what its cell holds, and an assignment replaces it there.
Values of the other classes take no attributes at all, and say so in different words. Two sorts of assignment are not
followed: a class in the place of a value's own, since classes are no values here, and what is private to settings, kinds
and paths, or is a whole new table of attributes, which is taken without a trace.
-/

namespace TopicFilter

namespace Action

/-- The name under which every value has its class. -/
def className : Text := text "__class__"

/-- The name under which a value has the table of its attributes. -/
def tableName : Text := text "__dict__"

/-- The name under which a value has what refers to it without holding it. -/
def referencesName : Text := text "__weakref__"

/-- An assignment to a name that a value with attributes of its own has from the start. Only a class could take the place
of a class. -/
def assignReserved (owner : String) (name : Text) (value : Value) (otherwise : Action Unit) :
    Action Unit := do
  if name = className then failAs .notClass value
  else if name = tableName then
    match ← cellOf? value with
    | some (.dict _) => return ()
    | _ => failAs .notAttributeTable value
  else if name = referencesName then throw (.unwritableAttribute owner name)
  else otherwise

/-! ## Settings and kinds -/

/-- The name is one that settings keep to themselves. -/
def isPrivateName (name : Text) : Bool := name.head? = some (CodePoint.ofChar '_')

/-- An attribute of settings. Private ones can be assigned, which is not followed. -/
def assignToSettings (name : Text) (value : Value) : Action Unit := do
  if isPrivateName name then
    assignReserved "HashTopicSettings" name value do
      if name = text "__fields_set__" then throw (.readOnlyProperty "HashTopicSettings" name)
      else return ()
  else throw (.invalidSettings [{ field := some name, flaw := .frozen }])

/-- An attribute of a kind. Apart from its name, under two names, it can be assigned, which is not followed. -/
def assignToKind (name : Text) (value : Value) : Action Unit :=
  assignReserved "StrEnum" name value do
    if name = text "name" ∨ name = text "value" then throw (.kindAttribute name) else return ()

/-! ## Matchers, hashers and derivers -/

/-- The attributes of what a cell holds that are only read. -/
def properties : Cell → List String
  | .matcher _ => ["conditions"]
  | .hasher .. | .recorder .. => ["name", "digest_size"]
  | .deriver _ => ["hasher"]
  | _ => []

/-- The cell with another value for the part of a name, if it has such a part. -/
def replacePart? (c : Cell) (name : Text) (value : Value) : Option Cell :=
  match c with
  | .matcher _ => if name = text "_conditions" then some (.matcher value) else none
  | .hasher algorithm size =>
    if name = text "_algorithm" then some (.hasher value size)
    else if name = text "_digest_size" then some (.hasher algorithm value)
    else none
  | .recorder algorithm size answer _ =>
    if name = text "calls" then some (.recorder algorithm size answer value) else none
  | .deriver _ => if name = text "_hasher" then some (.deriver value) else none
  | _ => none

/-- An attribute of what the cell at an address holds. -/
def assignToCell (a : Address) (c : Cell) (name : Text) (value : Value) : Action Unit := do
  if (properties c).any (text · = name) then failAs (.readOnlyProperty · name) (.object a)
  else
    match replacePart? c name value with
    | some c' => setCell a c'
    | none => modify (·.addAttribute a name value)

/-! ## All values -/

/-- An attribute of a value that has no attributes of its own. -/
def refuseAttribute (target : Value) (name : Text) (value : Value) : Action Unit := do
  let owner := (← get).className target
  match AttributeNames.computedBy? owner name with
  | some computer => throw (.unwritableAttribute computer name)
  | none =>
    if name = className then failAs .notClass value
    else if AttributeNames.isShared owner name then throw (.readOnlyAttribute owner name)
    else throw (.noAttribute owner name)

/-- An attribute of a path. Paths keep some places for what they find out about themselves, which can be assigned; that
is not followed. -/
def assignToPath (p : Path) (name : Text) (value : Value) : Action Unit := do
  if AttributeNames.pathSlots.any (text · = name) then return ()
  else if AttributeNames.pathProperties.any (text · = name) then
    throw (.readOnlyProperty "PosixPath" name)
  else refuseAttribute (.path p) name value

/-- An attribute assigned. -/
def assign (target : Value) (name : Text) (value : Value) : Action Unit := do
  match target, ← cellOf? target with
  | .topic _, _ | .condition _, _ | _, some (.labelled ..) => throw (.frozenField name)
  | .settings _, _ => assignToSettings name value
  | .kind _, _ => assignToKind name value
  | .path p, _ => assignToPath p name value
  | .object a, some c =>
    match Store.attributeOwner? c with
    | some owner => assignReserved owner name value (assignToCell a c name value)
    | none => refuseAttribute target name value
  | _, _ => refuseAttribute target name value

end Action

end TopicFilter
