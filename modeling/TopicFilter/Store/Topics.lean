import TopicFilter.Store.Description

/-!
# Store/Topics — topics from values of any class

Each function takes whatever it is given and finds out for itself whether it will do. On byte strings, texts and
integers they are the functions of `Topic`.
-/

namespace TopicFilter

namespace Action

/-- The topic of exactly these bytes. -/
def topicOfBytes (v : Value) : Action Topic := do
  match ← bytes? v with
  | some b => ofExcept (Topic.ofBytes b)
  | none => failAs .topicNotBytes v

/-- An item as one byte of a byte string. -/
def byteOf (v : Value) : Action UInt8 := do
  match v with
  | .scalar (.bool b) => return if b then 1 else 0
  | .scalar (.int n) => if 0 ≤ n ∧ n < 256 then return n.toNat.toUInt8 else throw .byteRange
  | v => failAs .notInteger v

/-- The bytes of the front of a value that has a front. -/
def frontBytes (v : Value) : Action Bytes := do
  match v.text?, ← bytes? v, ← cellOf? v with
  | some _, _, _ => throw .textWithoutEncoding
  | none, some b, _ => return b.take Topic.length
  | none, none, some (.items .list items) | none, none, some (.items .tuple items) =>
    eachOf byteOf (items.take Topic.length)
  | none, none, some (.dict _) => throw (.unhashable "slice")
  | none, none, _ => failAs .notSubscriptable v

/-- The topic at the front of a digest. -/
def topicOfDigest (v : Value) : Action Topic := do
  let n ← length v
  if n < Topic.length then throw (.digestLength n)
  else ofExcept (Topic.ofBytes (← frontBytes v))

/-- The topic that a hexadecimal text names. A kind is read as its name, and quoted as the kind it is. -/
def topicOfHex (v : Value) : Action Topic := do
  match v, ← bytes? v, ← cellOf? v with
  | .scalar (.text t), _, _ => ofExcept (Topic.ofHex t)
  | .kind k, _, _ =>
    match HexPairs.read k.name with
    | some b => ofExcept (Topic.ofBytes b)
    | none => throw (.topicHex k.quoted)
  | .view _, _, _ | _, some _, some (.stranger _) => lacks v "lower"
  | v, some _, _ => failAs .hexNotText v
  | v, none, some (.items .list _) | v, none, some (.items .tuple _) => lacks v "lower"
  | _, none, some (.dict _) => throw (.unhashable "slice")
  | v, none, _ => failAs .notSubscriptable v

/-- The topic of an integer. -/
def topicOfInt (v : Value) : Action Topic := do
  match v with
  | .scalar (.bool b) => ofExcept (Topic.ofInt (if b then 1 else 0))
  | .scalar (.int n) => ofExcept (Topic.ofInt n)
  | v => lacks v "to_bytes"

/-- The topic that a value is. Byte strings and floating-point numbers have a hexadecimal form too, but no number. -/
def asTopic (v : Value) : Action Topic := do
  match v, ← bytes? v with
  | .topic t, _ => return t
  | .scalar (.float _), _ => lacks v "to_int"
  | v, some _ => lacks v "to_int"
  | v, none => lacks v "hex"

end Action

end TopicFilter
