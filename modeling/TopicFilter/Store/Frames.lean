import TopicFilter.Frame.Topics
import TopicFilter.Store.Derivation

/-!
# Store/Frames — frames worked on by matchers and derivers of any class

The functions of `Frame` on columns that are named by values of any class. A tool is asked for what it is to do only
where a row needs it, and before that row is read.
-/

namespace TopicFilter

namespace Action

/-- The frame that some drafts make up. -/
def frameOf (drafts : List Frame.Draft) : Action Frame := do
  let _ ← ofExcept ((drafts.flatMap Frame.Draft.texts).mapM fun t => (Payload.text t).encode)
  match Frame.ofDrafts drafts with
  | some f => return f
  | none => throw .invalidFrame

/-- A text as the name of a column. Frames hold no surrogates. -/
def columnText (t : Text) : Except Fault Text := (Payload.text t).encode.map fun _ => t

/-- The name of a column. -/
def columnName (v : Value) : Action Text := do
  match v.text? with
  | some t => ofExcept (columnText t)
  | none => failAs .columnNotText v

/-- The name of a column, or the one that is used when none is given. -/
def columnNameOr (default : Text) : Option Value → Action Text
  | some v => columnName v
  | none => return default

/-- What is to be done with the rows of a column is asked for at the first row that counts, before the row is read. -/
def ready {α : Type} (f : Frame) (column : Text) (counts : Datum → Bool) (tool : Action α) : Action Unit := do
  if f.anyValue column counts then discard tool

/-- A payload as a value. -/
def payloadValue : Payload → Value
  | .text t => .scalar (.text t)
  | .bytes b => .scalar (.bytes b)

/-- The name of a new column. The absent value names the column with no name. -/
def newName (default : Text) : Option Value → Except Fault Text
  | none => .ok default
  | some (.scalar .none) => .ok []
  | some v =>
    match v.text? with
    | some t => columnText t
    | none => .error .newColumnNotText

/-- A frame with a new column. A name that will not do is refused only when the column is there. -/
def withColumn (name : Except Fault Text) (build : Text → Action Frame) : Action Frame := do
  let after ← build (name.toOption.getD [])
  let _ ← ofExcept name
  return after

/-! ## Columns derived and filtered -/

/-- The frame with the topics that a deriver gives to a column of payloads. -/
def deriveColumn (f : Frame) (source : Value) (target : Option Value) (deriver : Value) : Action Frame := do
  let source ← columnName source
  ready f source (!·.isNull) (derives deriver)
  withColumn (newName Frame.defaultTopicName target)
    (f.deriveColumnBy (fun p => derive deriver (payloadValue p)) source)

/-- The frame with a column that marks the rows a matcher accepts. -/
def matchColumn (f : Frame) (matcher : Value) (column target : Option Value) : Action Frame := do
  let column ← columnNameOr Frame.defaultTopicsName column
  ready f column (fun _ => true) (hasFunction matcher "matches")
  withColumn (newName Frame.defaultMarkName target) (f.matchColumnBy (matchesTopics matcher) column)

/-- The rows a matcher accepts, in order, reported. -/
def keepMatching (f : Frame) (matcher : Value) (column : Option Value) : Action Frame := do
  let column ← columnNameOr Frame.defaultTopicsName column
  ready f column (fun _ => true) (hasFunction matcher "matches")
  let after ← f.keepMatchingBy (matchesTopics matcher) column
  report (Frame.keptReport f after (← quoted matcher))
  return after

end Action

end TopicFilter
