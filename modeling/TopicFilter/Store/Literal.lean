import TopicFilter.Store.Derivation

/-!
# Store/Literal — values as they are written down

A literal says how a value is made. Making it may fail, may report, and takes a cell for everything that can change;
parts are made before the whole, first part first. A name stands for the value kept under it, not for a copy, and a
condition that is asked for from a condition is that condition.
-/

namespace TopicFilter

/-- A way to make a value. -/
inductive Literal where
  /-- A value without parts. -/
  | scalar (s : Scalar)
  /-- A value that is no number, unlike any other. -/
  | notANumber
  /-- A view of bytes. -/
  | view (b : Bytes)
  /-- A buffer of bytes. -/
  | buffer (b : Bytes)
  /-- A value repeated, which means multiplied if it is a number. -/
  | repeated (value : Literal) (times : Int)
  /-- A collection. -/
  | collection (shape : Shape) (items : List Literal)
  /-- A mapping of some keys to the absent value. -/
  | dict (keys : List Literal)
  /-- A topic of exactly these bytes. -/
  | topic (b : Bytes)
  /-- The constant sentinel. -/
  | sentinel
  /-- A kind. -/
  | kind (k : Kind)
  /-- The condition that a value stands for. -/
  | condition (topics : Literal)
  /-- The matcher compiled from a value. -/
  | matcher (conditions : Literal)
  /-- The hasher of the algorithm that a value names. -/
  | hasher (name : Literal)
  /-- A hasher that notes its calls. -/
  | recorder (name : Text) (size : Int) (fixed : Option Bytes)
  /-- The deriver over a hasher. -/
  | deriver (hasher : Literal)
  /-- A path. -/
  | path (t : Text)
  /-- What is kept under a name. -/
  | name (t : Text)

namespace Action

/-! ## Values and what tells them apart -/

/-- What is kept under a name. -/
def keptUnder (name : Text) : Action Kept := do
  match (← get).kept? name with
  | some kept => return kept
  | none => throw (.unknownName name)

/-- A number that equals nothing. Its bits tell it apart from others of its sort. -/
def notANumber : Action Kept := do
  fresh (.scalar (.float (.notANumber (← get).nextOrigin)))

/-- A condition from a kept value: itself, or a new one on its items. -/
def conditionFrom (topics : Kept) : Action Kept := do
  if ← isCondition topics.value then return topics
  else fresh (.condition (← conditionOn topics.value))

/-! ## Repetition -/

/-- A number times an integer. -/
def multiplied (n times : Int) : Value := .scalar (.int (n * times))

/-- A value repeated. A text, a byte string or a tuple that is wanted once is the same one. -/
def repeatValue (kept : Kept) (times : Int) : Action Kept := do
  let n := times.toNat
  match kept.value, ← cellOf? kept.value with
  | .scalar (.text t), _ =>
    if times = 1 then return kept else fresh (.scalar (.text (List.replicate n t).flatten))
  | .scalar (.bytes b), _ =>
    if times = 1 then return kept else fresh (.scalar (.bytes (List.replicate n b).flatten))
  | .kind k, _ => fresh (.scalar (.text (List.replicate n k.name).flatten))
  | .scalar (.bool b), _ => fresh (multiplied (if b then 1 else 0) times)
  | .scalar (.int m), _ => fresh (multiplied m times)
  | .scalar (.float x), _ =>
    let y := x.times times
    if y.isNotANumber then notANumber else fresh (.scalar (.float y))
  | _, some (.items .list items) => do fresh (← collect .list (List.replicate n items).flatten)
  | _, some (.items .tuple items) => do
    if times = 1 then return kept else fresh (← collect .tuple (List.replicate n items).flatten)
  | _, some (.buffer b) => do fresh (← allocate (.buffer (List.replicate n b).flatten))
  | v, _ => failAs .notMultiplied v

/-! ## Making -/

/-- A collection of some values. -/
def collection (shape : Shape) (items : List Value) : Action Value :=
  match shape with
  | .set | .frozenSet => collectDistinct shape items
  | _ => collect shape items

/-- A mapping of some keys to the absent value. -/
def mapping (keys : List Value) : Action Value := do
  let keys ← eachOf hashed keys
  allocate (.dict (((← get).distinct keys).map (·, .none)))

mutual

/-- The value that a literal makes, with what tells it apart. -/
def makeKept : Literal → Action Kept
  | .scalar s => fresh (.scalar s)
  | .notANumber => notANumber
  | .view b => fresh (.view b)
  | .buffer b => do fresh (← allocate (.buffer b))
  | .repeated l times => do repeatValue (← makeKept l) times
  | .collection shape ls => do fresh (← collection shape (← makeAll ls))
  | .dict ls => do fresh (← mapping (← makeAll ls))
  | .topic b => do fresh (.topic (← ofExcept (Topic.ofBytes b)))
  | .sentinel => return { value := .topic .sentinel, origin := Store.sentinelOrigin }
  | .kind k => fresh (.kind k)
  | .condition l => do conditionFrom (← makeKept l)
  | .matcher l => do fresh (← compile (← makeKept l).value)
  | .hasher l => do fresh (← standardHasher (← makeKept l).value)
  | .recorder name size fixed => do fresh (← recorder name size fixed)
  | .deriver l => do fresh (← deriverOver (← makeKept l).value)
  | .path t => fresh (.path (Path.ofText t))
  | .name t => keptUnder t

/-- The values that some literals make. -/
def makeAll : List Literal → Action (List Value)
  | [] => return []
  | l :: ls => do
    let kept ← makeKept l
    return kept.value :: (← makeAll ls)

end

/-- The value that a literal makes. -/
def make (l : Literal) : Action Value := return (← makeKept l).value

end Action

end TopicFilter
