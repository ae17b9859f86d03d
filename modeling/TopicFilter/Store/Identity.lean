import TopicFilter.Store.Iteration

/-!
# Store/Identity — values that are equal, the same, or fit for a set

`agrees` compares what values are made of, `same` asks for one and the same value, and `fit` refuses to sets whatever
can change. A part of a collection counts as equal to itself without further question, which is how a number that
equals nothing can still be found. Ways from value to part are followed only as far as they can go without coming
back; one that goes on for longer has no end, and is a failure.
-/

namespace TopicFilter

namespace Scalar

/-- The integer that a value is, counting truth values and whole floating-point numbers as integers. -/
def integer? : Scalar → Option Int
  | bool b => some (if b then 1 else 0)
  | int n => some n
  | float x => x.integer?
  | _ => Option.none

/-- The value is equal to itself. -/
def isSelfEqual : Scalar → Bool
  | float x => !x.isNotANumber
  | _ => true

/-- Values compared; numbers by their size. -/
def agrees (a b : Scalar) : Bool :=
  match a.integer?, b.integer? with
  | some m, some n => m = n
  | Option.none, Option.none => a = b && a.isSelfEqual
  | _, _ => false

end Scalar

namespace Store

/-! ## Equal values -/

/-- A comparison of values, which may fail. -/
abbrev Comparison := Value → Value → Except Fault Bool

/-- Each of some things passes; what follows one that does not is not looked at. -/
def allPass {α : Type} (f : α → Except Fault Bool) : List α → Except Fault Bool
  | [] => .ok true
  | a :: as => do if ← f a then allPass f as else return false

/-- Some of some things passes; what follows it is not looked at. -/
def somePass {α : Type} (f : α → Except Fault Bool) : List α → Except Fault Bool
  | [] => .ok false
  | a :: as => do if ← f a then return true else somePass f as

/-- Lists compared item by item. -/
def agreeAll (agree : Comparison) : List Value → List Value → Except Fault Bool
  | [], [] => .ok true
  | v :: vs, w :: ws => do if ← agree v w then agreeAll agree vs ws else return false
  | _, _ => .ok false

/-- Lists without repetitions compared as sets. -/
def agreeAsSets (agree : Comparison) (vs ws : List Value) : Except Fault Bool :=
  if vs.length ≠ ws.length then .ok false else allPass (fun v => somePass (agree v) ws) vs

/-- Mappings compared: the same keys, with values that are equal. -/
def agreeAsDicts (agree : Comparison) (es fs : List (Value × Value)) : Except Fault Bool :=
  if es.length ≠ fs.length then .ok false
  else
    allPass (fun e => somePass (fun f => do
      if ← agree e.1 f.1 then agree e.2 f.2 else return false) fs) es

/-- The shape is that of a set. -/
def isSetShape : Shape → Bool
  | .set | .frozenSet => true
  | _ => false

/-- Different cells compared by a comparison of parts; those without a comparison of their own are not equal. -/
def agreeCells (agree : Comparison) : Cell → Cell → Except Fault Bool
  | .items .list vs, .items .list ws =>
    if vs.length ≠ ws.length then .ok false else agreeAll agree vs ws
  | .items .tuple vs, .items .tuple ws => agreeAll agree vs ws
  | .items shape vs, .items shape' ws =>
    if isSetShape shape && isSetShape shape' then agreeAsSets agree vs ws else .ok false
  | .dict es, .dict fs => agreeAsDicts agree es fs
  | _, _ => .ok false

/-- What stands for the kind of a condition, and its topics. -/
def conditionParts? (s : Store) (v : Value) : Option (Value × TopicSet) :=
  match v, s.cellOf? v with
  | .condition c, _ => some (.kind c.kind, c.topics)
  | _, some (.labelled label topics) => some (label, topics)
  | _, _ => none

/-- Values compared by a comparison of what they are made of. A value of another class is asked itself. -/
def agreesBy (s : Store) (agree : Comparison) (v w : Value) : Except Fault Bool :=
  let part : Comparison := fun x y => if x = y then .ok true else agree x y
  match s.stranger? v, s.stranger? w, s.bytes? v, s.bytes? w, s.conditionParts? v, s.conditionParts? w with
  | some x, _, _, _, _, _ => x.equals w
  | none, some y, _, _, _, _ => y.equals v
  | none, none, some b, some c, _, _ => .ok (b = c)
  | none, none, _, _, some (label, topics), some (label', topics') => do
    if ← part label label' then return topics = topics' else return false
  | none, none, _, _, _, _ =>
    match v, w with
    | .scalar a, .scalar b => .ok (a.agrees b)
    | .kind k, .scalar (.text t) | .scalar (.text t), .kind k => .ok (k.name = t)
    | .object a, .object b =>
      match s.cell? a, s.cell? b with
      | some (.matcher conditions), some (.matcher conditions') => agree conditions conditions'
      | some c, some d => if a = b then .ok true else agreeCells part c d
      | _, _ => .ok false
    | v, w => .ok (v = w)

/-- Values compared, with parts followed to a depth. -/
def agreesWithin (s : Store) : (fuel : Nat) → Comparison
  | 0, _, _ => .error .endlessComparison
  | fuel + 1, v, w => s.agreesBy (s.agreesWithin fuel) v w

/-- Values compared. -/
def agrees (s : Store) : Comparison := s.agreesWithin (s.depth * s.depth)

/-- Values of which a set holds only one. -/
def identified (s : Store) (v w : Value) : Bool :=
  v = w ||
    match s.agrees v w with
    | .ok equal => equal
    | .error _ => false

/-- The values without those that a set would not hold besides an earlier one. -/
def distinct (s : Store) (vs : List Value) : List Value :=
  (vs.foldl (fun found v => if found.any (s.identified v) then found else v :: found) []).reverse

/-- What a set of some values lists, in its order. -/
def members (s : Store) (vs : List Value) : List Value := s.order.list (s.distinct vs)

/-! ## Values that are fit for a set -/

/-- The value is fit for a set, or else the class of the part that keeps it out is named. A value of another class may
refuse in its own way. -/
def fitWithin (s : Store) : (fuel : Nat) → Value → Except Fault Unit
  | 0, _ => .error .endless
  | fuel + 1, v =>
    match s.cellOf? v with
    | some (.items .list _) => .error (.unhashable "list")
    | some (.items .set _) => .error (.unhashable "set")
    | some (.dict _) => .error (.unhashable "dict")
    | some (.buffer _) => .error (.unhashable "bytearray")
    | some (.items .tuple items) => items.forM (s.fitWithin fuel)
    | some (.labelled label _) => s.fitWithin fuel label
    | some (.matcher conditions) => s.fitWithin fuel conditions
    | some (.stranger x) => x.fit
    | _ => .ok ()

/-- The value is fit for a set. -/
def fit (s : Store) (v : Value) : Except Fault Unit := s.fitWithin s.depth v

/-- The value can be asked for in a set: it is fit for one, or is a set itself. -/
def askable (s : Store) (v : Value) : Except Fault Unit :=
  match s.cellOf? v with
  | some (.items .set _) => .ok ()
  | _ => s.fit v

/-! ## One and the same value -/

/-- The value is the only one that is equal to it: the absent value, truth values, small numbers, short texts and byte
strings, kinds, and tuples of nothing. -/
def isUnique (s : Store) : Value → Bool
  | .scalar .none => true
  | .scalar (.bool _) => true
  | .scalar (.int n) => -5 ≤ n && n ≤ 256
  | .scalar (.float _) => false
  | .scalar (.text t) => t.isEmpty || (t.length = 1 && t.all (·.toNat < 256))
  | .scalar (.bytes b) => b.length ≤ 1
  | .kind _ => true
  | .object a =>
    match s.cell? a with
    | some (.items .tuple []) => true
    | _ => false
  | _ => false

/-- Two values are one and the same. What is in a cell is told apart by its address, and the rest by its origin. -/
def same (s : Store) (v w : Kept) : Bool :=
  match v.value, w.value with
  | .object a, .object b => a = b || (s.isUnique v.value && s.isUnique w.value)
  | .object _, _ | _, .object _ => false
  | .scalar a, .scalar b => a = b && (s.isUnique v.value || v.origin = w.origin)
  | .kind k, .kind l => k = l
  | _, _ => v.origin = w.origin

end Store

namespace Action

/-- Values compared. -/
def agrees (v w : Value) : Action Bool := inquire (·.agrees v w)

/-- The value, which is fit for a set. -/
def hashed (v : Value) : Action Value := do
  inquire (·.fit v)
  return v

/-- The items of a value, all of which are fit for a set. -/
def hashedItems (v : Value) : Action (List Value) := forEach v hashed

/-- A new set of some values. -/
def collectDistinct (shape : Shape) (vs : List Value) : Action Value := do
  let vs ← eachOf hashed vs
  collect shape ((← get).members vs)

end Action

end TopicFilter
