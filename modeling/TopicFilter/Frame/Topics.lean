import TopicFilter.Deriver
import TopicFilter.Frame
import TopicFilter.Matcher

/-!
# Frame/Topics — deriving and filtering row by row

`deriveColumn` adds the topic of each payload of a column, `matchColumn` adds whether the topics in each row pass
a filter, and `keepMatching` keeps the rows that do. All three go through the rows in order and end at the first
one that fails. How a payload is hashed and how topics are accepted are parameters with effects of their own; the
definitions on a `Deriver` and a `Matcher` are the ones without.
-/

namespace TopicFilter

namespace Datum

/-- The name of the class of a value. -/
def className : Datum → String
  | null => "NoneType"
  | bool _ => "bool"
  | int _ => "int"
  | float _ => "float"
  | text _ => "str"
  | binary _ => "bytes"
  | list _ => "list"

/-- The topic of an element of a row. -/
def topic : Datum → Except Fault Topic
  | binary b => Topic.ofBytes b
  | v => .error (.topicNotBytes v.className)

/-- The topics in a row. Null counts as no topics, and so does whatever is zero, false or empty; the characters
and bytes of other texts and byte strings are no topics. -/
def topics : Datum → Except Fault (List Topic)
  | null => .ok []
  | bool b => if b then .error (.notIterable "bool") else .ok []
  | int n => if n = 0 then .ok [] else .error (.notIterable "int")
  | float x => if x.isNonzero then .error (.notIterable "float") else .ok []
  | text t => if t.isEmpty then .ok [] else .error (.topicNotBytes "str")
  | binary b => if b.isEmpty then .ok [] else .error (.topicNotBytes "int")
  | list items => items.mapM topic

/-- The payload in a row; null is none. -/
def payload? : Datum → Except Fault (Option Payload)
  | null => .ok none
  | text t => .ok (some (.text t))
  | binary b => .ok (some (.bytes b))
  | v => .error (.notPayload v.className)

end Datum

namespace Frame

variable {m : Type → Type} [Monad m] [MonadExceptOf Fault m]

/-- A failure as a failure of the surrounding computation. -/
def lift {α : Type} : Except Fault α → m α
  | .ok a => pure a
  | .error f => throw f

/-- The results for some rows in order, as many as there are rows. -/
def forRows {α β : Type} (row : α → m β) : (vs : List α) → m { rs : List β // rs.length = vs.length }
  | [] => pure ⟨[], rfl⟩
  | v :: vs => do
    let r ← row v
    let ⟨rs, h⟩ ← forRows row vs
    pure ⟨r :: rs, by simp [h]⟩

/-- A topic, if there is one, as a value of a column. -/
def topicDatum : Option Topic → Datum
  | none => .null
  | some t => .binary t.bytes

/-- A column of topics. -/
def topicColumn {n : Nat} (name : Text) (topics : List (Option Topic)) (h : topics.length = n) :
    Column n :=
  { name
    dtype := .binary
    values := topics.map topicDatum
    length_values := by rw [List.length_map, h]
    holds_values := by
      intro v hv
      obtain ⟨t, _, rfl⟩ := List.mem_map.mp hv
      cases t <;> rfl }

/-- A column of truth values. -/
def markColumn {n : Nat} (name : Text) (marks : List Bool) (h : marks.length = n) : Column n :=
  { name
    dtype := .boolean
    values := marks.map Datum.bool
    length_values := by rw [List.length_map, h]
    holds_values := by
      intro v hv
      obtain ⟨b, _, rfl⟩ := List.mem_map.mp hv
      rfl }

/-- The topic of the payload in a row, if there is a payload. -/
def deriveRow (derive : Payload → m Topic) (v : Datum) : m (Option Topic) := do
  match ← lift v.payload? with
  | none => pure none
  | some p => some <$> derive p

/-- The topics in a row pass. -/
def matchRow (accepts : List Topic → m Bool) (v : Datum) : m Bool := do
  accepts (← lift v.topics)

/-- The column with a name. -/
def getColumn (f : Frame) (name : Text) : m (Column f.height) :=
  match f.column? name with
  | some c => pure c
  | none => throw .missingColumn

/-- The marks of the rows whose topics pass, one for each row. -/
def marks (accepts : List Topic → m Bool) (column : Text) (f : Frame) :
    m { bs : List Bool // bs.length = f.height } := do
  let c ← f.getColumn column
  let ⟨bs, h⟩ ← forRows (matchRow accepts) c.values
  pure ⟨bs, h.trans c.length_values⟩

/-- The frame with the topics of a column of payloads. -/
def deriveColumnBy (derive : Payload → m Topic) (source target : Text) (f : Frame) : m Frame := do
  let c ← f.getColumn source
  let ⟨topics, h⟩ ← forRows (deriveRow derive) c.values
  pure (f.put (topicColumn target topics (h.trans c.length_values)))

/-- The frame with a column that marks the rows whose topics pass. -/
def matchColumnBy (accepts : List Topic → m Bool) (column target : Text) (f : Frame) : m Frame := do
  let ⟨bs, h⟩ ← f.marks accepts column
  pure (f.put (markColumn target bs h))

/-- The name under which rows are marked while a frame is filtered. -/
def maskName : Text := text "__topic_match__"

/-- The rows whose topics pass, in order. The marks stand in a column of their own in the meantime, so that a column
of that name is lost. -/
def keepMatchingBy (accepts : List Topic → m Bool) (column : Text) (f : Frame) : m Frame := do
  let ⟨bs, h⟩ ← f.marks accepts column
  let marked := f.put (markColumn maskName bs h)
  pure ((marked.select bs (by simp [marked, h])).drop maskName)

/-- The report on a filtered frame: how many of its rows passed, and the filter as it is shown. -/
def keptReport (before after : Frame) (shown : Text) : LogEntry :=
  { severity := .debug
    channel := .frame
    message := Text.ofNat after.height ++ text "/" ++ Text.ofNat before.height ++ text " rows matched "
      ++ shown }

/-! ## Without further effects -/

/-- The name of the column that derived topics go to if none is given. -/
def defaultTopicName : Text := text "topic"

/-- The name of the column that topics are read from if none is given. -/
def defaultTopicsName : Text := text "topics"

/-- The name of the column that marks go to if none is given. -/
def defaultMarkName : Text := text "matched"

/-- The frame with the topics that a deriver gives to a column of payloads. -/
def deriveColumn (d : Deriver) (source target : Text) (f : Frame) : Except Fault Frame :=
  f.deriveColumnBy d.derive source target

/-- The frame with a column that marks the rows a filter accepts. -/
def matchColumn (matcher : Matcher) (column target : Text) (f : Frame) : Except Fault Frame :=
  f.matchColumnBy (fun ts => .ok (matcher.accepts ts)) column target

/-- The rows a filter accepts, in order. -/
def keepMatching (matcher : Matcher) (column : Text) (f : Frame) : Except Fault Frame :=
  f.keepMatchingBy (fun ts => .ok (matcher.accepts ts)) column

end Frame

end TopicFilter
