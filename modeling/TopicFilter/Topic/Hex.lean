import TopicFilter.Topic

/-!
# Topic/Hex — topics as hexadecimal text

`Topic.hex` writes eight lower-case digits. `Topic.ofHex` reads pairs of digits of either case, with or without
`0x` in front and with white space before, between and after the pairs, but not inside one. The names of topics
in messages are built on the written form.
-/

namespace TopicFilter

namespace HexPairs

/-- The six blanks of ASCII. -/
def isBlank (c : CodePoint) : Bool := (9 ≤ c.toNat && c.toNat ≤ 13) || c.toNat = 32

/-- The bytes that pairs of digits spell, if the text is made of pairs and blanks. -/
def read : Text → Option Bytes
  | [] => some []
  | c :: rest =>
    if isBlank c then read rest
    else
      match rest with
      | [] => none
      | d :: rest' =>
        match Hexadecimal.value? c, Hexadecimal.value? d with
        | some high, some low => (read rest').map ((high * 16 + low).toUInt8 :: ·)
        | _, _ => none

/-- The text without `0x` or `0X` in front. -/
def dropMarker : Text → Text
  | a :: b :: rest =>
    if a = CodePoint.ofChar '0' ∧ (b = CodePoint.ofChar 'x' ∨ b = CodePoint.ofChar 'X') then rest
    else a :: b :: rest
  | t => t

end HexPairs

namespace Topic

/-- Eight lower-case digits. -/
def hex (t : Topic) : Text := Hexadecimal.bytes t.bytes

/-- The topic that a hexadecimal text names. -/
def ofHex (t : Text) : Except Fault Topic :=
  let digits := HexPairs.dropMarker t
  match HexPairs.read digits with
  | some b => ofBytes b
  | none => .error (.topicHex (Quoted.quote digits))

/-- The name of a topic in messages. -/
def shown (t : Topic) : Text := text "Topic(0x" ++ t.hex ++ text ")"

@[simp] theorem length_hex (t : Topic) : t.hex.length = 8 := by simp [hex]

end Topic

end TopicFilter
