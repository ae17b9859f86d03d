import TopicFilter.Json.Token

/-!
# Json/Reader — tokens as a value

A value is built from its tokens in order, with the lists and objects around it on a stack. `step` is total on
states and tokens, and a text is accepted exactly if its tokens lead from the empty stack to a finished value.
-/

namespace TopicFilter.Json

/-- A list or an object around the value that is being read; what it holds already stands in reverse. -/
inductive Open where
  /-- A list. -/
  | array (items : List Json)
  /-- An object, and the name of the field that is being read. -/
  | object (fields : List (Text × Json)) (key : Text)

/-- What has been read, and what may follow. -/
inductive State where
  /-- A value has to follow. -/
  | value (around : List Open)
  /-- A list has begun. -/
  | listStart (around : List Open)
  /-- An object has begun. -/
  | objectStart (around : List Open)
  /-- The list has these items so far. -/
  | listNext (items : List Json) (around : List Open)
  /-- The object has these fields so far. -/
  | objectNext (fields : List (Text × Json)) (around : List Open)
  /-- The name of a further field has to follow. -/
  | key (fields : List (Text × Json)) (around : List Open)
  /-- The colon after a name has to follow. -/
  | colon (fields : List (Text × Json)) (key : Text) (around : List Open)
  /-- The value is finished. -/
  | finished (value : Json)

/-- The state after a whole value. -/
def give (v : Json) : List Open → State
  | [] => .finished v
  | .array items :: around => .listNext (v :: items) around
  | .object fields key :: around => .objectNext ((key, v) :: fields) around

/-- The state after the first token of a value. -/
def startValue (around : List Open) : Token → Option State
  | .scalar v => some (give v around)
  | .openBracket => some (.listStart around)
  | .openBrace => some (.objectStart around)
  | _ => none

/-- The state after a token. No more lists and objects than a limit stand around a value. -/
def advance (limit : Nat) : State → Token → Option State
  | .value around, t => startValue around t
  | .listStart around, .closeBracket => some (give (.array []) around)
  | .listStart around, t =>
    if around.length < limit then startValue (.array [] :: around) t else none
  | .objectStart around, .closeBrace => some (give (.object []) around)
  | .objectStart around, .scalar (.text k) =>
    if around.length < limit then some (.colon [] k around) else none
  | .listNext items around, .comma => some (.value (.array items :: around))
  | .listNext items around, .closeBracket => some (give (.array items.reverse) around)
  | .objectNext fields around, .comma => some (.key fields around)
  | .objectNext fields around, .closeBrace => some (give (.object fields.reverse) around)
  | .key fields around, .scalar (.text k) => some (.colon fields k around)
  | .colon fields k around, .colon => some (.value (.object fields k :: around))
  | _, _ => none

/-- The value that some tokens spell from a state on. -/
def readFrom (limit : Nat) : State → List Token → Option Json
  | .finished v, [] => some v
  | _, [] => none
  | s, t :: ts => (advance limit s t).bind (readFrom limit · ts)

/-- Rules that let no half of a pair pass. -/
def Rules.strict : Rules := { depth := 200, halves := false }

/-- The value that a text spells. -/
def read (rules : Rules) (t : Text) : Option Json :=
  (scan rules t).bind (readFrom rules.depth (.value []))

end TopicFilter.Json
