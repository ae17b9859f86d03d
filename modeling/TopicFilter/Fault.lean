import TopicFilter.Path
import TopicFilter.Text.Quoted
import TopicFilter.Text.Utf8

/-!
# Fault — why an operation fails

A fault names a cause. Its wording is `Fault.message` and nothing else in the library writes one. Where a
cause is a value of the wrong class, the fault carries the name of that class.
-/

namespace TopicFilter

/-- What is wrong with one field of the settings. -/
inductive Flaw where
  /-- No text. -/
  | notText
  /-- Neither a text nor a path. -/
  | notPath
  /-- A text that names no usable value, with the reason. -/
  | unusable (reason : Text)
  /-- A field that settings do not have. -/
  | unknownField
  /-- A field that cannot be assigned. -/
  | frozen
  /-- The whole is no object. -/
  | notObject
  /-- The whole is no JSON. -/
  | notJson
  /-- A text with surrogates, or bytes that are not UTF-8, where neither will do. -/
  | notUnicode
  /-- The whole is neither a text nor a byte string. -/
  | notJsonSource
deriving DecidableEq

/-- A flaw and the field it is in; none for the whole. -/
structure Issue where
  /-- The field. -/
  field : Option Text
  /-- What is wrong with it. -/
  flaw : Flaw
deriving DecidableEq

/-- The wording of a flaw; a text that is no JSON has none of its own. -/
def Flaw.message : Flaw → Option Text
  | .notText => some (text "Input should be a valid string")
  | .notPath => some (text "Input is not a valid path for <class 'pathlib.Path'>")
  | .unusable reason => some (text "Value error, " ++ reason)
  | .unknownField => some (text "Extra inputs are not permitted")
  | .frozen => some (text "Instance is frozen")
  | .notObject => some (text "Input should be an object")
  | .notJson => none
  | .notUnicode => some (text "Input should be a valid string, unable to parse raw data as a unicode string")
  | .notJsonSource => some (text "JSON input should be string, bytes or bytearray")

/-- The causes of failure. -/
inductive Fault where
  /-- A topic made of something that is no byte string. -/
  | topicNotBytes (got : String)
  /-- A topic of the wrong length. -/
  | topicLength (length : Nat)
  /-- A digest too short to hold a topic. -/
  | digestLength (length : Nat)
  /-- A text that is not made of hexadecimal pairs, as it is quoted. -/
  | topicHex (quoted : Text)
  /-- A number that four bytes do not hold. -/
  | topicRange (number : Int)
  /-- A number with too many digits to be written out. -/
  | tooManyDigits
  /-- A number that is no byte, among those a byte string is made of. -/
  | byteRange
  /-- A number that is no byte, put into a buffer. -/
  | bufferByteRange
  /-- A value in place of an integer. -/
  | notInteger (got : String)
  /-- A text in place of bytes. -/
  | textWithoutEncoding
  /-- A value that has no slices or items. -/
  | notSubscriptable (got : String)
  /-- Something else in place of hexadecimal text. -/
  | hexNotText (got : String)
  /-- A value that lacks an attribute. -/
  | noAttribute (got : String) (name : Text)
  /-- A value that has no length. -/
  | noLength (got : String)
  /-- A value that cannot be iterated. -/
  | notIterable (got : String)
  /-- A value that cannot be a member of a set. -/
  | unhashable (got : String)
  /-- A member of a condition that is no topic. -/
  | conditionMember (got : String)
  /-- A payload in place of a collection of topics. -/
  | rawPayload (got : String)
  /-- A wildcard with topics. -/
  | wildcardWithTopics
  /-- An exact condition without topics. -/
  | exactWithoutTopics
  /-- A value that names no kind of condition. -/
  | unknownKind (shown : Text)
  /-- A name that no hash algorithm has. -/
  | unknownAlgorithm (name : Text)
  /-- A hash algorithm whose digests have no fixed size. -/
  | noDigestSize (name : Text)
  /-- A hasher that claims digests shorter than a topic. -/
  | hasherTooShort (name size : Text)
  /-- A digest size that is no number. -/
  | notOrdered (got : String)
  /-- A hash algorithm that turns out to be unknown when data is to be hashed. -/
  | unsupportedHash (name : Text)
  /-- A value in place of the name of a hash algorithm, when data is to be hashed. -/
  | hashNameNotText
  /-- A hash algorithm whose digests need a length, when data is to be hashed. -/
  | digestLengthMissing
  /-- A value that is no payload. -/
  | notPayload (got : String)
  /-- A text with surrogates, which has no bytes. -/
  | unencodable (run : Utf8.SurrogateRun)
  /-- A text in place of data to hash. -/
  | textHashed
  /-- A value without bytes in place of data to hash. -/
  | notHashed
  /-- A column that the frame does not have. -/
  | missingColumn
  /-- A value in place of the name of a column. -/
  | columnNotText (got : String)
  /-- A value in place of the name of a new column. -/
  | newColumnNotText
  /-- Columns that make up no frame. -/
  | invalidFrame
  /-- Settings that do not validate. -/
  | invalidSettings (issues : List Issue)
  /-- A tilde that stands for no known directory. -/
  | homeUnknown
  /-- A named configuration file that does not exist. -/
  | configMissing (path : Path)
  /-- A directory in place of a configuration file. -/
  | configIsDirectory (path : Path)
  /-- A path that is too long, or that holds a name that is. -/
  | pathTooLong (path : Path)
  /-- A file that is not UTF-8. -/
  | undecodable (sequence : Utf8.Undecodable)
  /-- A value in place of a path. -/
  | notPath (got : String)
  /-- A byte string in place of the text of a path. -/
  | pathNotText (got : String)
  /-- An attribute that should be a function and is not. -/
  | notCallable (got : String)
  /-- A value that cannot be multiplied. -/
  | notMultiplied (got : String)
  /-- An assignment to a field of a frozen value. -/
  | frozenField (name : Text)
  /-- An assignment to a name that a class keeps for all its values. -/
  | readOnlyAttribute (owner : String) (name : Text)
  /-- An assignment to an attribute that a class computes. -/
  | unwritableAttribute (owner : String) (name : Text)
  /-- An assignment to the name or the value of a kind. -/
  | kindAttribute (name : Text)
  /-- A value in place of a class. -/
  | notClass (got : String)
  /-- A value in place of the table of all attributes. -/
  | notAttributeTable (got : String)
  /-- An assignment to a property that is only read. -/
  | readOnlyProperty (owner : String) (name : Text)
  /-- A value whose items cannot be assigned. -/
  | noItemAssignment (got : String)
  /-- An assignment to a byte of a view. -/
  | readOnlyView
  /-- An index outside of a list or a buffer. -/
  | indexRange (what : String)
  /-- An index of more than 64 bits. -/
  | indexWidth
  /-- Something other than a number as the index of a list or a buffer. -/
  | indexClass (what got : String)
  /-- A comparison of values that hold themselves. -/
  | endlessComparison
  /-- Anything else that has no end because a value holds itself. -/
  | endless
  /-- A name under which nothing is stored. -/
  | unknownName (name : Text)
deriving DecidableEq

/-- The sort of a failure, by which those who catch failures tell them apart. -/
inductive FaultSort where
  /-- A value of a class that would do, but not this one. -/
  | value
  /-- A value of a class that will not do. -/
  | type
  /-- An attribute that is not there or cannot be assigned. -/
  | attribute
  /-- An attribute of something frozen. -/
  | frozen
  /-- Something that holds itself. -/
  | recursion
  /-- A text that has no bytes. -/
  | encoding
  /-- Bytes that are no text. -/
  | decoding
  /-- A column that is not there. -/
  | column
  /-- Columns that make up no frame. -/
  | shape
  /-- Settings that do not validate. -/
  | validation
  /-- A home directory that is not known. -/
  | runtime
  /-- A file that is not there. -/
  | missingFile
  /-- A directory in place of a file. -/
  | directory
  /-- A path that the system refuses. -/
  | system
  /-- An index that leads nowhere. -/
  | index
  /-- A name under which nothing is kept. -/
  | name
deriving DecidableEq

namespace Fault

/-- The sort of a cause. -/
def sort : Fault → FaultSort
  | topicNotBytes _ | topicLength _ | digestLength _ | topicHex _ | topicRange _ | tooManyDigits
  | byteRange | bufferByteRange | wildcardWithTopics | exactWithoutTopics | unknownKind _
  | unknownAlgorithm _ | noDigestSize _ | hasherTooShort .. | unsupportedHash _ => .value
  | notInteger _ | textWithoutEncoding | notSubscriptable _ | hexNotText _ | noLength _
  | notIterable _ | unhashable _ | conditionMember _ | rawPayload _ | notPayload _ | textHashed
  | notHashed | notPath _ | pathNotText _ | noItemAssignment _ | readOnlyView | notOrdered _
  | hashNameNotText | digestLengthMissing | columnNotText _ | newColumnNotText | notCallable _
  | notMultiplied _ | notClass _ | notAttributeTable _ | indexClass .. => .type
  | noAttribute .. | readOnlyProperty .. | readOnlyAttribute .. | unwritableAttribute ..
  | kindAttribute _ => .attribute
  | frozenField _ => .frozen
  | endlessComparison | endless => .recursion
  | unencodable _ => .encoding
  | undecodable _ => .decoding
  | missingColumn => .column
  | invalidFrame => .shape
  | invalidSettings _ => .validation
  | homeUnknown => .runtime
  | configMissing _ => .missingFile
  | configIsDirectory _ => .directory
  | pathTooLong _ => .system
  | indexRange _ | indexWidth => .index
  | unknownName _ => .name

/-- The bytes or code points at fault: one by itself, or the range of their positions. -/
private def faultSpan (what : String) (one : Text) (start extra : Nat) : Text :=
  if extra = 0 then text what ++ text " " ++ one ++ text " in position " ++ Text.ofNat start
  else
    text what ++ text "s in position " ++ Text.ofNat start ++ text "-" ++ Text.ofNat (start + extra)

/-- The wording of a cause. -/
def message : Fault → Text
  | topicNotBytes got => text "Topic value must be bytes-like, got " ++ text got
  | topicLength n => text "Topic must be exactly 4 bytes, got " ++ Text.ofNat n
  | digestLength n => text "Digest must be at least 4 bytes, got " ++ Text.ofNat n
  | topicHex quoted => text "Invalid topic hex string: " ++ quoted
  | topicRange n => text "Topic integer out of range: " ++ Text.ofInt n
  | tooManyDigits =>
    text "Exceeds the limit (4300 digits) for integer string conversion; "
      ++ text "use sys.set_int_max_str_digits() to increase the limit"
  | byteRange => text "bytes must be in range(0, 256)"
  | bufferByteRange => text "byte must be in range(0, 256)"
  | notInteger got => text "'" ++ text got ++ text "' object cannot be interpreted as an integer"
  | textWithoutEncoding => text "string argument without an encoding"
  | notSubscriptable got => text "'" ++ text got ++ text "' object is not subscriptable"
  | hexNotText got => text "fromhex() argument must be str, not " ++ text got
  | noAttribute got a => text "'" ++ text got ++ text "' object has no attribute '" ++ a ++ text "'"
  | noLength got => text "object of type '" ++ text got ++ text "' has no len()"
  | notIterable got => text "'" ++ text got ++ text "' object is not iterable"
  | unhashable got => text "unhashable type: '" ++ text got ++ text "'"
  | conditionMember got => text "Filter condition topics must be Topic instances, got " ++ text got
  | rawPayload got =>
    text "Expected a collection of topics, got a " ++ text got
      ++ text " payload; derive topics first or use TopicMatcher.from_data"
  | wildcardWithTopics => text "Wildcard condition cannot carry topics"
  | exactWithoutTopics => text "Exact condition requires at least one topic"
  | unknownKind shown => shown ++ text " is not a valid ConditionKind"
  | unknownAlgorithm name => text "Unsupported hash algorithm '" ++ name ++ text "'"
  | noDigestSize name => text "Hash algorithm '" ++ name ++ text "' has no fixed digest size"
  | hasherTooShort name size =>
    text "Hasher '" ++ name ++ text "' digest of " ++ size ++ text " bytes is shorter than a 4-byte topic"
  | notOrdered got => text "'<' not supported between instances of '" ++ text got ++ text "' and 'int'"
  | unsupportedHash name => text "unsupported hash type " ++ name
  | hashNameNotText => text "name must be a string"
  | digestLengthMissing => text "digest() missing required argument 'length' (pos 1)"
  | notPayload got => text "Cannot derive a topic from " ++ text got
  | unencodable run =>
    let one := text "'" ++ Text.ofChars (Quoted.escapeNumber run.first.toNat) ++ text "'"
    text "'utf-8' codec can't encode " ++ faultSpan "character" one run.start run.extra
      ++ text ": surrogates not allowed"
  | textHashed => text "Strings must be encoded before hashing"
  | notHashed => text "object supporting the buffer API required"
  | missingColumn => text "column not found"
  | columnNotText got =>
    text "argument 'name': '" ++ text got ++ text "' object is not an instance of 'str'"
  | newColumnNotText => text "Series name must be a string"
  | invalidFrame => text "invalid frame"
  | invalidSettings _ => text "invalid settings"
  | homeUnknown => text "Could not determine home directory."
  | configMissing p => text "Config file not found: " ++ p.toText
  | configIsDirectory p => text "[Errno 21] Is a directory: " ++ Quoted.quote p.toText
  | pathTooLong p => text "[Errno 36] File name too long: " ++ Quoted.quote p.toText
  | undecodable u =>
    let one := text "0x" ++ Text.ofChars (Hexadecimal.byte u.first)
    let reason := match u.flaw with
      | .invalidStart => "invalid start byte"
      | .invalidContinuation => "invalid continuation byte"
      | .unexpectedEnd => "unexpected end of data"
    text "'utf-8' codec can't decode " ++ faultSpan "byte" one u.start u.extra ++ text ": " ++ text reason
  | notPath got => text "expected str, bytes or os.PathLike object, not " ++ text got
  | pathNotText got =>
    text "argument should be a str object or an os.PathLike object returning str, not <class '"
      ++ text got ++ text "'>"
  | notCallable got => text "'" ++ text got ++ text "' object is not callable"
  | notMultiplied got => text "unsupported operand type(s) for *: '" ++ text got ++ text "' and 'int'"
  | frozenField name => text "cannot assign to field " ++ Quoted.quote name
  | readOnlyAttribute owner name =>
    text "'" ++ text owner ++ text "' object attribute '" ++ name ++ text "' is read-only"
  | unwritableAttribute owner name =>
    text "attribute '" ++ name ++ text "' of '" ++ text owner ++ text "' objects is not writable"
  | kindAttribute name => text "<enum 'Enum'> cannot set attribute " ++ Quoted.quote name
  | notClass got => text "__class__ must be set to a class, not '" ++ text got ++ text "' object"
  | notAttributeTable got => text "__dict__ must be set to a dictionary, not a '" ++ text got ++ text "'"
  | readOnlyProperty owner name =>
    text "property '" ++ name ++ text "' of '" ++ text owner ++ text "' object has no setter"
  | noItemAssignment got => text "'" ++ text got ++ text "' object does not support item assignment"
  | readOnlyView => text "cannot modify read-only memory"
  | indexRange what => text what ++ text " index out of range"
  | indexWidth => text "cannot fit 'int' into an index-sized integer"
  | indexClass what got =>
    text what ++ text " indices must be integers or slices, not " ++ text got
  | endlessComparison => text "maximum recursion depth exceeded in comparison"
  | endless => text "maximum recursion depth exceeded"
  | unknownName name => name

end Fault

end TopicFilter
