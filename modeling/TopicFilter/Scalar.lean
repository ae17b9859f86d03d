import TopicFilter.Number.Double
import TopicFilter.Text.Quoted

/-!
# Scalar — values without parts

Numbers, texts, byte strings, truth values and the absent value, as requests and answers hold them, with the
names of their classes and the text that stands for each.
-/

namespace TopicFilter

/-- A value without parts. -/
inductive Scalar where
  /-- The absent value. -/
  | none
  /-- A truth value. -/
  | bool (b : Bool)
  /-- An integer of any size. -/
  | int (n : Int)
  /-- A floating-point number. -/
  | float (x : Double)
  /-- A text. -/
  | text (t : Text)
  /-- A byte string. -/
  | bytes (b : Bytes)
deriving DecidableEq

namespace Scalar

/-- The name of the class. -/
def className : Scalar → String
  | none => "NoneType"
  | bool _ => "bool"
  | int _ => "int"
  | float _ => "float"
  | text _ => "str"
  | bytes _ => "bytes"

/-- The form in which a value is quoted. -/
def quoted : Scalar → Text
  | none => TopicFilter.text "None"
  | bool b => if b then TopicFilter.text "True" else TopicFilter.text "False"
  | int n => Text.ofInt n
  | float x => x.shown
  | text t => Quoted.quote t
  | bytes b => Quoted.bytes b

end Scalar

end TopicFilter
