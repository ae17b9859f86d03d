import TopicFilter.Text

/-!
# Text/Utf8 — texts as bytes and back

`encode` fails exactly on a text with a surrogate and names the first run of them. `decode` fails on the
first ill-formed sequence and names its longest well-formed start, as the Unicode standard advises. The main
fact here is `exists_encode_eq_ok_iff`.
-/

namespace TopicFilter.Utf8

/-- The first run of surrogates in a text that has one. -/
structure SurrogateRun where
  /-- Position of the run's first code point. -/
  start : Nat
  /-- One less than the number of code points in the run. -/
  extra : Nat
  /-- The first surrogate. -/
  first : CodePoint
deriving DecidableEq

/-- The bytes of one code point, by the length class of its number. -/
def encodePoint (c : CodePoint) : Bytes :=
  let n := c.toNat
  if n < 0x80 then [n.toUInt8]
  else if n < 0x800 then [(0xC0 + n / 64).toUInt8, (0x80 + n % 64).toUInt8]
  else if n < 0x10000 then
    [(0xE0 + n / 4096).toUInt8, (0x80 + n / 64 % 64).toUInt8, (0x80 + n % 64).toUInt8]
  else
    [(0xF0 + n / 262144).toUInt8, (0x80 + n / 4096 % 64).toUInt8, (0x80 + n / 64 % 64).toUInt8,
      (0x80 + n % 64).toUInt8]

/-- The bytes of a text, or its first run of surrogates. -/
def encode (t : Text) : Except SurrogateRun Bytes :=
  match t.dropWhile (!·.isSurrogate) with
  | [] => .ok (t.flatMap encodePoint)
  | first :: rest =>
    .error
      { start := (t.takeWhile (!·.isSurrogate)).length
        extra := (rest.takeWhile (·.isSurrogate)).length
        first }

/-- Only a surrogate stands in the way of the bytes. -/
theorem exists_encode_eq_ok_iff (t : Text) :
    (∃ b, encode t = .ok b) ↔ ∀ c ∈ t, c.isSurrogate = false := by
  unfold encode
  split
  next h =>
    have hall := List.any_dropWhile (p := (!·.isSurrogate)) (l := t)
    rw [h] at hall
    simpa using hall.symm
  next first rest h =>
    have hne : t.dropWhile (!·.isSurrogate) ≠ [] := by simp [h]
    have hp := List.head_dropWhile_not (fun c : CodePoint => !c.isSurrogate) hne
    simp only [h, List.head_cons, Bool.not_eq_false'] at hp
    have hmem : first ∈ t :=
      (List.dropWhile_sublist _).mem (by rw [h]; exact List.mem_cons_self)
    constructor
    · rintro ⟨b, hb⟩
      cases hb
    · intro hall
      rw [hall first hmem] at hp
      cases hp

/-! ## Reading -/

/-- Why a byte sequence is ill-formed. -/
inductive Flaw where
  /-- The byte opens no sequence. -/
  | invalidStart
  /-- A byte that should go on does not. -/
  | invalidContinuation
  /-- The bytes end inside a sequence. -/
  | unexpectedEnd
deriving DecidableEq

/-- An ill-formed sequence: where it starts, how many bytes are to blame, and why. -/
structure Undecodable where
  /-- Position of the first byte. -/
  start : Nat
  /-- One less than the number of bytes. -/
  extra : Nat
  /-- The first byte. -/
  first : UInt8
  /-- What is wrong. -/
  flaw : Flaw
deriving DecidableEq

/-- The class of a byte that opens a sequence. -/
inductive Lead where
  /-- A whole character in one byte. -/
  | single
  /-- Owed bytes after this one, and the range of the first of them. -/
  | opens (owed : Nat) (low high : UInt8)
  /-- No sequence starts so. -/
  | never
deriving DecidableEq

/-- The table of lead bytes. -/
def lead (b : UInt8) : Lead :=
  if b < 0x80 then .single
  else if b < 0xC2 then .never
  else if b < 0xE0 then .opens 1 0x80 0xBF
  else if b = 0xE0 then .opens 2 0xA0 0xBF
  else if b = 0xED then .opens 2 0x80 0x9F
  else if b < 0xF0 then .opens 2 0x80 0xBF
  else if b = 0xF0 then .opens 3 0x90 0xBF
  else if b < 0xF4 then .opens 3 0x80 0xBF
  else if b = 0xF4 then .opens 3 0x80 0x8F
  else .never

/-- The bytes that go on with a sequence: as many as are owed, the first within its own range. -/
def continuation : Nat → UInt8 → UInt8 → Bytes → Bytes
  | 0, _, _, _ => []
  | _ + 1, _, _, [] => []
  | owed + 1, low, high, b :: rest =>
    if low ≤ b ∧ b ≤ high then b :: continuation owed 0x80 0xBF rest else []

/-- The number that a lead byte and its continuation spell. -/
def assemble (b : UInt8) (more : Bytes) : Nat :=
  more.foldl (fun n x => n * 64 + (x.toNat - 0x80))
    (if b < 0xE0 then b.toNat - 0xC0 else if b < 0xF0 then b.toNat - 0xE0 else b.toNat - 0xF0)

/-- The number as a code point; sequences of the table spell nothing beyond the code space. -/
def point (n : Nat) : CodePoint :=
  if h : n < 0x110000 then ⟨n, h⟩ else CodePoint.ofChar '\uFFFD'

/-- The text of the bytes from a position on. -/
def decodeFrom (pos : Nat) : Bytes → Except Undecodable Text
  | [] => .ok []
  | b :: rest =>
    match lead b with
    | .single => return CodePoint.ofByte b :: (← decodeFrom (pos + 1) rest)
    | .never => .error { start := pos, extra := 0, first := b, flaw := .invalidStart }
    | .opens owed low high =>
      let more := continuation owed low high rest
      if more.length = owed then
        return point (assemble b more) :: (← decodeFrom (pos + 1 + owed) (rest.drop owed))
      else
        .error
          { start := pos, extra := more.length, first := b
            flaw := if more.length = rest.length then .unexpectedEnd else .invalidContinuation }
termination_by b => b.length
decreasing_by
  · exact Nat.lt_succ_self _
  · exact Nat.lt_succ_of_le (by rw [List.length_drop]; exact Nat.sub_le _ _)

/-- The text of the bytes, or the first ill-formed sequence. -/
def decode (b : Bytes) : Except Undecodable Text := decodeFrom 0 b

end TopicFilter.Utf8
