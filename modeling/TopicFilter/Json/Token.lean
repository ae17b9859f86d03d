import TopicFilter.Json
import TopicFilter.Text.Hexadecimal

/-!
# Json/Token — texts as tokens

The text is read once, one code point at a time: `step` says what a code point means in a mode and which tokens
it completes. Space is what stands between tokens and completes none of its own, so one kind of it is as good as
another. Besides the numbers of the notation, infinities and what is no number have their words. A half of a pair is a
fault when it stands by itself, unless the rules let it pass.
-/

namespace TopicFilter.Json

/-- What a text is made of. -/
inductive Token where
  /-- An object begins. -/
  | openBrace
  /-- An object ends. -/
  | closeBrace
  /-- A list begins. -/
  | openBracket
  /-- A list ends. -/
  | closeBracket
  /-- A further item follows. -/
  | comma
  /-- The value of a field follows. -/
  | colon
  /-- A value without parts. -/
  | scalar (value : Json)

/-- The part of a number that is being read. -/
inductive Phase where
  /-- A minus sign. -/
  | minus
  /-- A zero in front. -/
  | zero
  /-- The whole part. -/
  | whole
  /-- The point. -/
  | point
  /-- The digits behind the point. -/
  | fraction
  /-- The mark of the exponent. -/
  | mark
  /-- The sign of the exponent. -/
  | sign
  /-- The digits of the exponent. -/
  | power
deriving DecidableEq

/-- What is being read. What was read of a text or a number stands in reverse. -/
inductive Mode where
  /-- Nothing. -/
  | between
  /-- The rest of a word, which stands for a value. -/
  | word (left : Text) (value : Json)
  /-- A number. -/
  | number (phase : Phase) (read : Text)
  /-- A text. -/
  | string (read : Text)
  /-- What follows a backslash in a text. -/
  | escape (read : Text)
  /-- Hexadecimal digits in a text, of which some are left; the first half of a pair may stand before them. -/
  | unit (read : Text) (high : Option Nat) (left value : Nat)
  /-- The backslash of the second half of a pair. -/
  | pair (read : Text) (high : Nat)
  /-- The letter after the backslash of the second half. -/
  | pairMark (read : Text) (high : Nat)

/-- How much a reader lets pass. -/
structure Rules where
  /-- How deep lists and objects may be nested. -/
  depth : Nat
  /-- Halves of pairs may stand by themselves. -/
  halves : Bool

/-- The code point is a space, a tab or a line end. -/
def isSpace (c : CodePoint) : Bool := [0x20, 0x09, 0x0A, 0x0D].contains c.toNat

/-- The code point is a digit. -/
def isDigit (c : CodePoint) : Bool := 0x30 ≤ c.toNat && c.toNat ≤ 0x39

/-- The code point is a character. -/
def isChar (c : CodePoint) (d : Char) : Bool := c = CodePoint.ofChar d

/-- The words, with what they stand for. -/
def words : List (Text × Json) :=
  [(Text.ofString "true", .bool true), (Text.ofString "false", .bool false),
   (Text.ofString "null", .null), (Text.ofString "NaN", .number (Text.ofString "NaN")),
   (Text.ofString "Infinity", .number (Text.ofString "Infinity"))]

/-- The mode after the first code point of a word. -/
def startWord (c : CodePoint) : Option Mode :=
  words.findSome? fun (word, value) =>
    match word with
    | first :: left => if c = first then some (.word left value) else none
    | [] => none

/-- What a code point between tokens means. -/
def start (c : CodePoint) : Option (Mode × List Token) :=
  if isSpace c then some (.between, [])
  else if isChar c '\x7b' then some (.between, [.openBrace])
  else if isChar c '\x7d' then some (.between, [.closeBrace])
  else if isChar c '[' then some (.between, [.openBracket])
  else if isChar c ']' then some (.between, [.closeBracket])
  else if isChar c ',' then some (.between, [.comma])
  else if isChar c ':' then some (.between, [.colon])
  else if isChar c '"' then some (.string [], [])
  else if isChar c '-' then some (.number .minus [c], [])
  else if isChar c '0' then some (.number .zero [c], [])
  else if isDigit c then some (.number .whole [c], [])
  else (startWord c).map (·, [])

/-- The phase after a further code point of a number, if it is one. -/
def Phase.next (p : Phase) (c : CodePoint) : Option Phase :=
  let exponent := isChar c 'e' || isChar c 'E'
  match p with
  | .minus => if isChar c '0' then some .zero else if isDigit c then some .whole else none
  | .zero => if isChar c '.' then some .point else if exponent then some .mark else none
  | .whole =>
    if isDigit c then some .whole else if isChar c '.' then some .point
    else if exponent then some .mark else none
  | .point => if isDigit c then some .fraction else none
  | .fraction => if isDigit c then some .fraction else if exponent then some .mark else none
  | .mark =>
    if isDigit c then some .power else if isChar c '+' || isChar c '-' then some .sign else none
  | .sign => if isDigit c then some .power else none
  | .power => if isDigit c then some .power else none

/-- A number may end here. -/
def Phase.isComplete : Phase → Bool
  | .zero | .whole | .fraction | .power => true
  | _ => false

/-- The token of a number, if it is complete and its whole part is not too long. -/
def numberToken (p : Phase) (read : Text) : Option Token :=
  let lexeme := read.reverse
  let whole := (lexeme.dropWhile fun c => isChar c '-').takeWhile isDigit
  if p.isComplete && whole.length ≤ Text.digitLimit then some (.scalar (.number lexeme)) else none

/-- The code point that a letter after a backslash stands for. -/
def escaped (c : CodePoint) : Option CodePoint :=
  if isChar c '"' || isChar c '\\' || isChar c '/' then some c
  else if isChar c 'b' then some (.ofChar '\x08')
  else if isChar c 'f' then some (.ofChar '\x0C')
  else if isChar c 'n' then some (.ofChar '\n')
  else if isChar c 'r' then some (.ofChar '\r')
  else if isChar c 't' then some (.ofChar '\t')
  else none

/-- What a code point of a text means. -/
def inString (rules : Rules) (read : Text) (c : CodePoint) : Option (Mode × List Token) :=
  if isChar c '"' then some (.between, [.scalar (.text read.reverse)])
  else if isChar c '\\' then some (.escape read, [])
  else if c.toNat < 0x20 || (c.isSurrogate && !rules.halves) then none
  else some (.string (c :: read), [])

/-- What has been read when a half turns out to stand by itself, if it may. -/
def alone (rules : Rules) (read : Text) (half : Nat) : Option Text :=
  if rules.halves then (CodePoint.ofNat? half).map (· :: read) else none

/-- The mode after the last of four hexadecimal digits that follow no first half. -/
def endFirst (rules : Rules) (read : Text) (n : Nat) : Option Mode :=
  if 0xD800 ≤ n ∧ n ≤ 0xDBFF then some (.pair read n)
  else if 0xDC00 ≤ n ∧ n ≤ 0xDFFF then (alone rules read n).map .string
  else (CodePoint.ofNat? n).map fun c => .string (c :: read)

/-- The mode after the last of four hexadecimal digits, which may be the second half of a pair. -/
def endUnit (rules : Rules) (read : Text) (high : Option Nat) (n : Nat) : Option Mode :=
  match high with
  | none => endFirst rules read n
  | some h =>
    if 0xDC00 ≤ n ∧ n ≤ 0xDFFF then
      (CodePoint.ofNat? (0x10000 + (h - 0xD800) * 0x400 + (n - 0xDC00))).map fun c =>
        .string (c :: read)
    else (alone rules read h).bind (endFirst rules · n)

/-- The mode after a letter that follows a backslash. -/
def endEscape (read : Text) (c : CodePoint) : Option Mode :=
  if isChar c 'u' then some (.unit read none 4 0) else (escaped c).map fun d => .string (d :: read)

/-- What a code point means in a mode, and the tokens that it completes. -/
def step (rules : Rules) : Mode → CodePoint → Option (Mode × List Token)
  | .between, c => start c
  | .word [] _, _ => none
  | .word (d :: left) value, c =>
    if c = d then
      if left.isEmpty then some (.between, [.scalar value]) else some (.word left value, [])
    else none
  | .number p read, c =>
    match p.next c with
    | some p' => some (.number p' (c :: read), [])
    | none =>
      if p = .minus && isChar c 'I' then
        some (.word (Text.ofString "nfinity") (.number (Text.ofString "-Infinity")), [])
      else do
        let token ← numberToken p read
        let (mode, tokens) ← start c
        return (mode, token :: tokens)
  | .string read, c => inString rules read c
  | .escape read, c => (endEscape read c).map (·, [])
  | .unit read high left value, c => do
    let digit ← Hexadecimal.value? c
    let n := value * 16 + digit
    if left ≤ 1 then return (← endUnit rules read high n, [])
    else return (.unit read high (left - 1) n, [])
  | .pair read high, c =>
    if isChar c '\\' then some (.pairMark read high, [])
    else (alone rules read high).bind (inString rules · c)
  | .pairMark read high, c =>
    if isChar c 'u' then some (.unit read (some high) 4 0, [])
    else do return (← endEscape (← alone rules read high) c, [])

/-- The tokens that the end of the text completes. -/
def finish : Mode → Option (List Token)
  | .between => some []
  | .number p read => (numberToken p read).map ([·])
  | _ => none

/-- The tokens of a text that is read from a mode on, after those read before, which stand in reverse. -/
def scanFrom (rules : Rules) (mode : Mode) (before : List Token) : Text → Option (List Token)
  | [] => (finish mode).map (before.reverse ++ ·)
  | c :: rest =>
    match step rules mode c with
    | some (mode', tokens) => scanFrom rules mode' (tokens.reverse ++ before) rest
    | none => none

/-- The tokens of a text. -/
def scan (rules : Rules) (t : Text) : Option (List Token) := scanFrom rules .between [] t

end TopicFilter.Json
