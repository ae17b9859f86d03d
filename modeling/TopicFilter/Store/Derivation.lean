import TopicFilter.Store.Conditions
import TopicFilter.Store.Mutation

/-!
# Store/Derivation — hashers and derivers at work

A hasher that notes its calls does so before it answers, so that the notes tell how far a computation came. Topics are
derived one after another, and the first payload that is no good ends it. What a hasher says about itself can be
exchanged, so its name is looked up anew each time that it hashes.
-/

namespace TopicFilter

namespace Store

/-! ## What is said about hashers -/

/-- The name of what should be a hasher. Paths and kinds have names too, though they are no hashers. -/
def hasherName (s : Store) (v : Value) : Except Fault Value :=
  match v, s.cellOf? v with
  | _, some (.hasher name _) => .ok name
  | _, some (.recorder name _ _ _) => .ok (.scalar (.text name))
  | .path p, _ => .ok (.scalar (.text ((p.parts.getLast?.map (·.text)).getD [])))
  | .kind .wildcard, _ => .ok (.scalar (.text (text "WILDCARD")))
  | .kind .exact, _ => .ok (.scalar (.text (text "EXACT")))
  | v, _ => s.ownAttribute v "name"

/-- The digest size that is claimed by what should be a hasher. -/
def digestSize (s : Store) (v : Value) : Except Fault Value :=
  match s.cellOf? v with
  | some (.hasher _ size) => .ok size
  | some (.recorder _ size _ _) => .ok (.scalar (.int size))
  | _ => s.ownAttribute v "digest_size"

/-- What a deriver is over. -/
def hasherOf (s : Store) (deriver : Value) (need : String) : Except Fault Value :=
  match s.cellOf? deriver with
  | some (.deriver hasher) => .ok hasher
  | _ => .error (.noAttribute (s.className deriver) (text need))

end Store

namespace Action

/-! ## Hashers -/

/-- The hasher of the algorithm that a value names, reported. -/
def standardHasher (name : Value) : Action Value := do
  match name.text? with
  | some t => do
    let h ← ofExcept (Hasher.ofName t)
    report h.report
    allocate (Store.hasherCell h)
  | none => throw (.unknownAlgorithm (← plain name))

/-- A byte string, told apart from others. -/
def freshBytes (b : Bytes) : Action Kept := fresh (.scalar (.bytes b))

/-- A hasher that notes its calls, and answers with fixed bytes or with what it was given. -/
def recorder (name : Text) (size : Int) (fixed : Option Bytes) : Action Value := do
  let fixed ← match fixed with
    | some b => some <$> freshBytes b
    | none => pure none
  allocate (.recorder name size fixed.getD (← collect .list []))

/-- The name under which data is hashed. -/
def hashName (name : Value) : Action Text := do
  inquire (·.askable name)
  match name.text? with
  | some t => if t.all fun c => c.toNat ≠ 0 && !c.isSurrogate then return t else throw .hashNameNotText
  | none => throw .hashNameNotText

/-- The bytes of data to hash. -/
def hashData (data : Value) : Action Bytes := do
  match data.text?, ← bytes? data with
  | some _, _ => throw .textHashed
  | none, some b => return b
  | none, none => throw .notHashed

/-- The digest of data under a name. -/
def digestUnder (name data : Value) : Action Bytes := do
  let t ← hashName name
  let b ← hashData data
  match Algorithm.lookup t with
  | .fixed a => return a.digest b
  | .unsized => throw .digestLengthMissing
  | .empty => return []
  | .unknown => throw (.unsupportedHash t)

/-- The digest of data by a hasher. -/
def digest (hasher : Value) (data : Kept) : Action Kept := do
  inPlace hasher "digest"
  match ← cellOf? hasher with
  | some (.hasher name _) => do freshBytes (← digestUnder name data.value)
  | some (.recorder _ _ answer calls) => do
    append calls data.value
    return answer data
  | _ => lacks hasher "digest"

/-- What a hasher noted. -/
def calls (hasher : Value) : Action Value := do
  match ← cellOf? hasher with
  | some (.recorder _ _ _ calls) => return calls
  | _ => inquire (·.ownAttribute hasher "calls")

/-! ## Derivers -/

/-- The size is below that of a topic, if it can be compared with it at all. -/
def isBelowTopic (size : Value) : Action Bool := do
  match size with
  | .scalar (.bool _) => return true
  | .scalar (.int n) => return n < Topic.length
  | .scalar (.float x) => return x.isBelow Topic.length
  | v => failAs .notOrdered v

/-- The deriver over a hasher. -/
def deriverOver (hasher : Value) : Action Value := do
  let size ← inquire (·.digestSize hasher)
  if ← isBelowTopic size then
    let name ← inquire (·.hasherName hasher)
    throw (.hasherTooShort (← plain name) (← plain size))
  else allocate (.deriver hasher)

/-- There is something in the place of a function of derivers. -/
def derives (deriver : Value) : Action Unit := do
  if ((← get).assigned? deriver "derive").isSome then return ()
  else discard (inquire (·.hasherOf deriver "derive"))

/-- The bytes of a payload: of a text in UTF-8, and else as they are. -/
def payloadBytes (v : Value) : Action Bytes := do
  match v.text?, ← bytes? v with
  | some t, _ => ofExcept (Payload.text t).encode
  | none, some b => return b
  | none, none => failAs .notPayload v

/-- The topic of a payload. -/
def derive (deriver data : Value) : Action Topic := do
  inPlace deriver "derive"
  let hasher ← inquire (·.hasherOf deriver "derive")
  let data ← freshBytes (← payloadBytes data)
  topicOfDigest (← digest hasher data).value

/-- The topics of the items of a value. -/
def deriveMany (deriver items : Value) : Action (List Topic) := do
  inPlace deriver "derive_many"
  let _ ← inquire (·.hasherOf deriver "derive_many")
  forEach items (derive deriver)

/-- The deriver that is used when none is given. -/
def standardDeriver : Value := .object Store.standardDeriver

/-- The deriver that is given; the absent value stands for the one that is used when none is given. -/
def deriverOr : Option Value → Value
  | some (.scalar .none) | none => standardDeriver
  | some v => v

/-- The condition on the topics of the items of a value; no condition at all if it is absent. -/
def conditionOfPayloads (deriver : Value) : Value → Action Value
  | .scalar .none => return .condition .any
  | payloads => do return .condition (.ofTopics (TopicSet.ofList (← deriveMany deriver payloads)))

/-- The matcher of the payloads at each position. -/
def ofPayloads (conditions deriver : Value) : Action Value := do
  compiled (← forEach conditions (conditionOfPayloads deriver))

end Action

end TopicFilter
