/-!
# Text — lists of code points, lone surrogates included

A payload, a path or a message may hold a surrogate without its partner, which no `String` can. A `Text`
is therefore a list of code points; `Text.ofString` embeds the ordinary strings.
-/

namespace TopicFilter

/-- A number below `0x110000`, surrogates included. -/
structure CodePoint where
  /-- The number itself. -/
  toNat : Nat
  /-- It is below the end of the code space. -/
  isLt : toNat < 0x110000 := by decide
deriving DecidableEq

namespace CodePoint

@[ext] theorem ext {a b : CodePoint} (h : a.toNat = b.toNat) : a = b := by
  cases a; cases b; simpa using h

/-- Every character is a code point. -/
def ofChar (c : Char) : CodePoint :=
  ⟨c.toNat, by
    rcases c.valid with h | h
    · exact Nat.lt_trans h (by decide)
    · exact h.2⟩

/-- The code point of a number, if the code space has one. -/
def ofNat? (n : Nat) : Option CodePoint :=
  if h : n < 0x110000 then some ⟨n, h⟩ else none

/-- The code point with the number of a byte. -/
def ofByte (b : UInt8) : CodePoint :=
  ⟨b.toNat, Nat.lt_trans b.toNat_lt (by decide)⟩

/-- The halves of pairs in the sixteen-bit form; none of them is a character. -/
def isSurrogate (c : CodePoint) : Bool := 0xD800 ≤ c.toNat && c.toNat ≤ 0xDFFF

/-- The surrogates that stand for bytes which are no text, where the system takes bytes for texts. -/
def isEscapedByte (c : CodePoint) : Bool := 0xDC80 ≤ c.toNat && c.toNat ≤ 0xDCFF

@[simp] theorem toNat_ofChar (c : Char) : (ofChar c).toNat = c.toNat := rfl

@[simp] theorem toNat_ofByte (b : UInt8) : (ofByte b).toNat = b.toNat := rfl

end CodePoint

/-- A text is a list of code points. -/
abbrev Text := List CodePoint

/-- A byte string is a list of bytes. -/
abbrev Bytes := List UInt8

namespace Text

/-- The text of a string, character by character. -/
def ofString (s : String) : Text := s.toList.map CodePoint.ofChar

/-- The text of a list of characters. -/
def ofChars (cs : List Char) : Text := cs.map CodePoint.ofChar

/-- The most decimal digits of a whole number that are read or written. -/
def digitLimit : Nat := 4300

/-- The decimal digits of a natural number. -/
def ofNat (n : Nat) : Text := ofChars (Nat.toDigits 10 n)

/-- The decimal digits of an integer, after a minus sign if it is negative. -/
def ofInt : Int → Text
  | .ofNat n => ofNat n
  | .negSucc n => CodePoint.ofChar '-' :: ofNat (n + 1)

/-- The pieces, with a separator between neighbours. -/
def join (sep : Text) : List Text → Text
  | [] => []
  | [t] => t
  | t :: ts => t ++ sep ++ join sep ts

/-- A text padded with spaces on the right to a width. -/
def padRight (width : Nat) (t : Text) : Text :=
  t ++ List.replicate (width - t.length) (CodePoint.ofChar ' ')

/-- The pieces between the separators; `n` separators make `n + 1` pieces. -/
def splitOn (sep : CodePoint) : Text → List Text
  | [] => [[]]
  | c :: rest =>
    match splitOn sep rest with
    | [] => [[c]]
    | piece :: pieces => if c = sep then [] :: piece :: pieces else (c :: piece) :: pieces

/-- Each byte as the code point of the same number. -/
def ofBytes (b : Bytes) : Text := b.map CodePoint.ofByte

@[simp] theorem length_ofBytes (b : Bytes) : (ofBytes b).length = b.length := by simp [ofBytes]

theorem splitOn_ne_nil (sep : CodePoint) (t : Text) : splitOn sep t ≠ [] := by
  cases t with
  | nil => simp [splitOn]
  | cons c rest =>
    rw [splitOn]
    split
    · simp
    · split <;> simp

end Text

/-- A string as a text. -/
abbrev text (s : String) : Text := Text.ofString s

end TopicFilter
