import TopicFilter.Text.Hexadecimal
import TopicFilter.Text.Printable

/-!
# Text/Quoted — a text between quotes

The quote is the single one, unless the text holds single quotes and no double one. The quote in use, the
backslash, tabs, line ends and whatever is not printable are escaped, so that the written form is one
printable line.
-/

namespace TopicFilter.Quoted

/-- The single quote. -/
def single : CodePoint := ⟨0x27, by decide⟩

/-- The double quote. -/
def double : CodePoint := ⟨0x22, by decide⟩

/-- The quote that goes around a text. -/
def quoteFor (t : Text) : CodePoint :=
  if t.contains single && !t.contains double then double else single

/-- The escape of a code point by its number, as short as the number allows. -/
def escapeNumber (n : Nat) : List Char :=
  if n < 0x100 then ['\\', 'x'] ++ Hexadecimal.digits 2 n
  else if n < 0x10000 then ['\\', 'u'] ++ Hexadecimal.digits 4 n
  else ['\\', 'U'] ++ Hexadecimal.digits 8 n

/-- One code point between quotes. -/
def escape (quote c : CodePoint) : Text :=
  if c = quote ∨ c = CodePoint.ofChar '\\' then [CodePoint.ofChar '\\', c]
  else if c = CodePoint.ofChar '\t' then Text.ofChars ['\\', 't']
  else if c = CodePoint.ofChar '\n' then Text.ofChars ['\\', 'n']
  else if c = CodePoint.ofChar '\r' then Text.ofChars ['\\', 'r']
  else if c.isPrintable then [c]
  else Text.ofChars (escapeNumber c.toNat)

/-- The text between quotes. -/
def quote (t : Text) : Text :=
  let q := quoteFor t
  q :: t.flatMap (escape q) ++ [q]

/-- A bracketed list of quoted texts. -/
def list (ts : List Text) : Text :=
  text "[" ++ Text.join (text ", ") (ts.map quote) ++ text "]"

/-- One byte between quotes: as a character if it is one of the printable ASCII ones. -/
def escapeByte (quote : CodePoint) (b : UInt8) : Text :=
  let c := CodePoint.ofByte b
  if b < 0x7F then escape quote c else Text.ofChars (escapeNumber c.toNat)

/-- A byte string between quotes, after the letter that marks it. -/
def bytes (b : Bytes) : Text :=
  let q := quoteFor (Text.ofBytes b)
  CodePoint.ofChar 'b' :: q :: b.flatMap (escapeByte q) ++ [q]

/-- A buffer between quotes. Its single quotes are escaped whatever the quotes around it are, and double ones never. -/
def buffer (b : Bytes) : Text :=
  let q := quoteFor (Text.ofBytes b)
  text "bytearray(b" ++ q :: b.flatMap (escapeByte single) ++ q :: text ")"

end TopicFilter.Quoted
