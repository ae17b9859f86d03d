import TopicFilter.Text

/-!
# Number/Double — binary floating-point numbers and their shortest decimal text

A `Double` is its 64 bits. The digits written are the fewest that lie closer to the number than to any other
double, and of those the nearest; the interval of numbers that round to a double is kept in whole units of a
quarter of the last place, so all comparisons are exact.
-/

namespace TopicFilter

/-- A floating-point number, by its bits. -/
structure Double where
  /-- Sign, exponent and fraction, from the highest bit down. -/
  bits : UInt64
deriving DecidableEq

namespace Double

/-- The sign bit is set. -/
def isNegative (x : Double) : Bool := x.bits.toNat ≥ Nat.pow 2 63

/-- The eleven bits of the exponent. -/
def exponentBits (x : Double) : Nat := x.bits.toNat / Nat.pow 2 52 % Nat.pow 2 11

/-- The bits of the fraction. -/
def fractionBits (x : Double) : Nat := x.bits.toNat % Nat.pow 2 52

/-- The number is not zero; what is no number counts as not zero. -/
def isNonzero (x : Double) : Bool := x.bits.toNat % Nat.pow 2 63 ≠ 0

/-- The whole number `m` in `m * 2 ^ (q - 1075)`. -/
def significand (x : Double) : Nat :=
  if x.exponentBits = 0 then x.fractionBits else Nat.pow 2 52 + x.fractionBits

/-- The `q` in `m * 2 ^ (q - 1075)`. -/
def scale (x : Double) : Nat := max x.exponentBits 1

/-- Bits that stand for no number, one for each number below `2 ^ 51`. -/
def notANumber (n : Nat) : Double := ⟨0x7FF8000000000000 + (n % Nat.pow 2 51).toUInt64⟩

/-- The bits stand for no number. -/
def isNotANumber (x : Double) : Bool := x.exponentBits = 2047 && x.fractionBits ≠ 0

/-- The number is below a natural number; what is not a number is not. -/
def isBelow (x : Double) (n : Nat) : Bool :=
  if x.isNotANumber then false
  else if x.isNegative then x.isNonzero || 0 < n
  else x.exponentBits ≠ 2047 && x.significand * Nat.pow 2 x.scale < n * Nat.pow 2 1075

/-- The number times an integer, rounded. -/
def times (x : Double) (n : Int) : Double := ⟨(Float.ofBits x.bits * Float.ofInt n).toBits⟩

/-- The integer that the number is, if it is one. -/
def integer? (x : Double) : Option Int :=
  let signed (n : Nat) : Int := if x.isNegative then -n else n
  let unit := Nat.pow 2 (1075 - x.scale)
  if x.exponentBits = 2047 then none
  else if 1075 ≤ x.scale then some (signed (x.significand * Nat.pow 2 (x.scale - 1075)))
  else if x.significand % unit = 0 then some (signed (x.significand / unit))
  else none

/-! ## Shortest digits -/

/-- A point `f * 10 ^ k` of a decimal grid and `u` quarter units of a double, as whole numbers on one scale. -/
def onOneScale (x : Double) (f : Nat) (k : Int) (u : Nat) : Nat × Nat :=
  let e : Int := (x.scale : Int) - 1077
  (f * Nat.pow 10 k.toNat * Nat.pow 2 (-e).toNat, u * Nat.pow 2 e.toNat * Nat.pow 10 (-k).toNat)

/-- The grid point `f * 10 ^ k` rounds to the double. -/
def roundsTo (x : Double) (f : Nat) (k : Int) : Bool :=
  let m := x.significand
  let below := if x.fractionBits = 0 ∧ 1 < x.exponentBits then 1 else 2
  let (p, low) := onOneScale x f k (4 * m - below)
  let (p', high) := onOneScale x f k (4 * m + 2)
  if m % 2 = 0 then low ≤ p && p' ≤ high else low < p && p' < high

/-- The largest `f` with `f * 10 ^ k` not above the double. -/
def floorOn (x : Double) (k : Int) : Nat :=
  let (one, value) := onOneScale x 1 k (4 * x.significand)
  value / one

/-- The nearer of the points `f` and `f + 1` of a grid, the even one if both are as near. -/
def nearer (x : Double) (f : Nat) (k : Int) : Nat :=
  let (twice, value) := onOneScale x (2 * f + 1) k (8 * x.significand)
  if value < twice then f else if twice < value then f + 1 else f + f % 2

/-- The point of a grid that rounds to the double and is nearest to it, if one does. -/
def onGrid? (x : Double) (k : Int) : Option Nat :=
  let f := floorOn x k
  match roundsTo x f k, roundsTo x (f + 1) k with
  | true, true => some (nearer x f k)
  | true, false => some f
  | false, true => some (f + 1)
  | false, false => none

/-- Finer and finer grids, from spacing `10 ^ k` on, until one has a point for the double. -/
def search (x : Double) : (tries : Nat) → Int → Nat × Int
  | 0, k => (floorOn x k, k)
  | tries + 1, k =>
    match onGrid? x k with
    | some f => (f, k)
    | none => search x tries (k - 1)

/-- The greatest `k` up to a bound with `10 ^ k` not above the double. -/
def leading (x : Double) : (tries : Nat) → Int → Int
  | 0, k => k
  | tries + 1, k => if floorOn x k = 0 then leading x tries (k - 1) else k

/-- A whole number without the zeros at its end, and how many there were. -/
def stripZeros : (fuel : Nat) → Nat → Nat × Nat
  | 0, f => (f, 0)
  | fuel + 1, f =>
    if f % 10 = 0 ∧ f ≠ 0 then let (g, n) := stripZeros fuel (f / 10); (g, n + 1) else (f, 0)

/-- The shortest digits of a positive double and the power of ten that belongs to the last of them. -/
def shortest (x : Double) : List Char × Int :=
  let top := leading x 700 310
  let (f, k) := search x 18 top
  let (g, n) := stripZeros 20 f
  (Nat.toDigits 10 g, k + n)

/-! ## Layout -/

/-- Zeros. -/
def zeros (n : Nat) : List Char := List.replicate n '0'

/-- Digits with the point after the first `whole` of them, at least one digit on either side. -/
def positional (digits : List Char) (whole : Int) : List Char :=
  if whole ≤ 0 then ['0', '.'] ++ zeros (-whole).toNat ++ digits
  else
    let n := whole.toNat
    let front := digits.take n ++ zeros (n - digits.length)
    let back := digits.drop n
    front ++ ['.'] ++ (if back.isEmpty then ['0'] else back)

/-- Digits with the point after the first one, and an exponent of at least two digits. -/
def scientific (digits : List Char) (exponent : Int) : List Char :=
  let e := Nat.toDigits 10 exponent.natAbs
  digits.take 1 ++ (if digits.length = 1 then [] else '.' :: digits.drop 1) ++
    ['e', if exponent < 0 then '-' else '+'] ++ zeros (2 - e.length) ++ e

/-- The shortest text: positional for exponents from -4 to 15, scientific beyond. -/
def shown (x : Double) : Text :=
  let sign := if x.isNegative then ['-'] else []
  let body :=
    if x.exponentBits = 2047 then
      if x.fractionBits = 0 then ['i', 'n', 'f'] else ['n', 'a', 'n']
    else if x.significand = 0 then ['0', '.', '0']
    else
      let (digits, last) := shortest x
      let exponent := last + digits.length - 1
      if -4 ≤ exponent ∧ exponent < 16 then positional digits (exponent + 1)
      else scientific digits exponent
  Text.ofChars (if x.exponentBits = 2047 ∧ x.fractionBits ≠ 0 then body else sign ++ body)

end Double

end TopicFilter
