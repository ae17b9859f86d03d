import TopicFilter.Store.Identity

/-!
# Store/Mutation — collections and buffers that change

Each change is made in the cell of the value, where everyone who holds the value sees it. A value of another class is
refused, and so is an item that its place cannot hold.
-/

namespace TopicFilter

namespace Action

/-- A member more in a set. -/
def addMember (target item : Value) : Action Unit := do
  match target, ← cellOf? target with
  | .object a, some (.items .set items) => do
    let item ← hashed item
    let s ← get
    if items.any (s.identified item) then return ()
    else setCell a (.items .set (s.order.list (items ++ [item])))
  | v, _ => lacks v "add"

/-- A member less in a set, if it is there. A set stands for the member that has its items. -/
def discardMember (target item : Value) : Action Unit := do
  match target, ← cellOf? target with
  | .object a, some (.items .set items) => do
    inquire (·.askable item)
    let s ← get
    setCell a (.items .set (items.filter (!s.identified item ·)))
  | v, _ => lacks v "discard"

/-- An item as one byte of a buffer. -/
def bufferByte (v : Value) : Action UInt8 := do
  match v with
  | .scalar (.bool b) => return if b then 1 else 0
  | .scalar (.int n) => if 0 ≤ n ∧ n < 256 then return n.toNat.toUInt8 else throw .bufferByteRange
  | v => failAs .notInteger v

/-- An item more at the end of a list or a buffer. -/
def append (target item : Value) : Action Unit := do
  match target, ← cellOf? target with
  | .object a, some (.items .list items) => setCell a (.items .list (items ++ [item]))
  | .object a, some (.buffer b) => do
    let x ← bufferByte item
    setCell a (.buffer (b ++ [x]))
  | v, _ => lacks v "append"

/-- A number of 64 bits, which is what an index has to be. -/
def indexWidth (i : Int) : Action Int :=
  if i < -9223372036854775808 ∨ 9223372036854775807 < i then throw .indexWidth else return i

/-- The integer that a value is, if it is one or a truth value. -/
def integer? : Value → Option Int
  | .scalar (.bool b) => some (if b then 1 else 0)
  | .scalar (.int i) => some i
  | _ => none

/-- The number that a value is, as an index of something of a class. -/
def indexNumber (owner : String) (v : Value) : Action Int := do
  match integer? v with
  | some i => indexWidth i
  | none => failAs (.indexClass owner) v

/-- A number as a position among some items, counted from the end if it is negative. -/
def position (what : String) (n : Nat) (i : Int) : Action Nat := do
  let j := if i < 0 then i + n else i
  if 0 ≤ j ∧ j < n then return j.toNat else throw (.indexRange what)

/-- The items of a value of another class are not replaced. Where a value could have items by their positions, a number
is first asked to be an index. -/
def refuseItem (target index : Value) : Action Unit := do
  match target, ← cellOf? target, integer? index with
  | .scalar .none, _, _ | .scalar (.bool _), _, _ | .scalar (.int _), _, _ | .scalar (.float _), _, _
  | _, some (.items .iterator _), _ | _, _, none => failAs .noItemAssignment target
  | _, _, some i => do
    let _ ← indexWidth i
    failAs .noItemAssignment target

/-- The entries of a mapping with the value of a key replaced, or with an entry more. The key that is there stays. -/
def putEntry (s : Store) (key item : Value) : List (Value × Value) → List (Value × Value)
  | [] => [(key, item)]
  | e :: es => if s.identified key e.1 then (e.1, item) :: es else e :: putEntry s key item es

/-- The item at an index replaced. -/
def put (target index item : Value) : Action Unit := do
  match target, ← cellOf? target with
  | .object a, some (.items .list items) => do
    let i ← position "list assignment" items.length (← indexNumber "list" index)
    setCell a (.items .list (items.set i item))
  | .object a, some (.buffer b) => do
    let number ← indexNumber "bytearray" index
    let x ← bufferByte item
    let i ← position "bytearray" b.length number
    setCell a (.buffer (b.set i x))
  | .object a, some (.dict entries) => do
    let key ← hashed index
    setCell a (.dict (putEntry (← get) key item entries))
  | .view _, _ => throw .readOnlyView
  | v, _ => refuseItem v index

end Action

end TopicFilter
