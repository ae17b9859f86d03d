import TopicFilter.Text

/-!
# Json — the values of the notation

Numbers are kept as they are written and objects keep their fields in order, repetitions included: what a number
or a repeated name means is up to whoever reads the value.
-/

namespace TopicFilter

/-- A value of the notation. -/
inductive Json where
  /-- Nothing. -/
  | null
  /-- A truth value. -/
  | bool (b : Bool)
  /-- A number, as it is written. -/
  | number (lexeme : Text)
  /-- A text. -/
  | text (t : Text)
  /-- A list. -/
  | array (items : List Json)
  /-- Named values. -/
  | object (fields : List (Text × Json))

end TopicFilter
