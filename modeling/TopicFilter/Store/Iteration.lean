import TopicFilter.Store

/-!
# Store/Iteration — items one after another

`forEach` runs a computation on each item of a value, in order, and ends at the first that fails. An iterator loses
each item before the computation on it runs: a failure leaves the later items where they are, and items that are
gone stay gone.
-/

namespace TopicFilter

namespace Value

/-- The text that a value is; a kind is the text of its name. -/
def text? : Value → Option Text
  | .scalar (.text t) => some t
  | .kind k => some k.name
  | _ => Option.none

/-- The characters of a text, each as a text. -/
def characters (t : Text) : List Value := t.map fun c => .scalar (.text [c])

/-- The bytes of a byte string, each as an integer. -/
def byteNumbers (b : Bytes) : List Value := b.map fun x => .scalar (.int x.toNat)

end Value

namespace Store

/-- The bytes that a value holds, if it is a byte string, a view or a buffer. -/
def bytes? (s : Store) : Value → Option Bytes
  | .scalar (.bytes b) => some b
  | .view b => some b
  | v =>
    match s.cellOf? v with
    | some (.buffer b) => some b
    | some (.stranger x) => x.bytes
    | _ => none

/-- The items that are there to be looked at. An iterator is left as it is. -/
def items? (s : Store) (v : Value) : Option (List Value) :=
  match v.text?, s.bytes? v, s.cellOf? v with
  | some t, _, _ => some (Value.characters t)
  | none, some b, _ => some (Value.byteNumbers b)
  | none, none, some (.items _ items) => some items
  | none, none, some (.dict entries) => some (entries.map (·.1))
  | none, none, some (.stranger x) => x.items
  | none, none, _ => none

/-- The items that are there to be looked at, of a value that should have some. -/
def itemsOf (s : Store) (v : Value) : Except Fault (List Value) :=
  match s.items? v with
  | some items => .ok items
  | none => .error (.notIterable (s.className v))

/-- The number of items, with matchers followed to a depth. -/
def lengthWithin (s : Store) : (fuel : Nat) → Value → Except Fault Nat
  | 0, _ => .error .endless
  | fuel + 1, v =>
    match s.cellOf? v with
    | some (.items .iterator _) => .error (.noLength (s.className v))
    | some (.matcher conditions) => s.lengthWithin fuel conditions
    | _ =>
      match s.items? v with
      | some items => .ok items.length
      | none => .error (.noLength (s.className v))

end Store

namespace Action

/-- The bytes that a value holds, if it is a byte string, a view or a buffer. -/
def bytes? (v : Value) : Action (Option Bytes) := return (← get).bytes? v

/-- What there is to look at, one after another. -/
inductive Source where
  /-- Items that stay. -/
  | lasting (items : List Value)
  /-- Items of the iterator at an address, which go. -/
  | draining (a : Address) (items : List Value)

/-- The fields of settings, each as a pair of its name and its value. -/
def fieldPairs (s : Settings) : Action (List Value) := do
  let pair (name : Text) (value : Value) : Action Value := collect .tuple [.scalar (.text name), value]
  return [← pair Settings.algorithmField (.scalar (.text s.algorithm)),
    ← pair Settings.dataDirField (.path s.dataDir),
    ← pair Settings.logLevelField (.scalar (.text s.logLevel.name))]

/-- The items of a value. -/
def source (v : Value) : Action Source := do
  match v, ← cellOf? v with
  | .object a, some (.items .iterator items) => return .draining a items
  | .settings s, _ => return .lasting (← fieldPairs s)
  | v, _ => return .lasting (← inquire (·.itemsOf v))

/-- A computation on each item. -/
def eachOf {α : Type} (f : Value → Action α) : List Value → Action (List α)
  | [] => return []
  | v :: vs => do
    let r ← f v
    return r :: (← eachOf f vs)

/-- A computation on each item of an iterator, which loses the item first. The items are those that the iterator has at
the start: what the computation itself takes from the iterator is not followed. -/
def drain {α : Type} (a : Address) (f : Value → Action α) : List Value → Action (List α)
  | [] => return []
  | v :: vs => do
    setCell a (.items .iterator vs)
    let r ← f v
    return r :: (← drain a f vs)

/-- A computation on each item of a value. -/
def forEach {α : Type} (v : Value) (f : Value → Action α) : Action (List α) := do
  match ← source v with
  | .lasting items => eachOf f items
  | .draining a items => drain a f items

/-- The number of items. -/
def length (v : Value) : Action Nat := do inquire (·.lengthWithin (← get).depth v)

end Action

end TopicFilter
