import CongestionObservatory.Core.Scalar

/-!
# `CongestionObservatory.Core.Number`: the texts of numbers

The JSON writer and parser leave numbers to `std::to_chars` and `std::from_chars`. For a 64-bit
integer the text is its decimal form. For a `double` the writer takes the shortest text that
reads back as the same value, in fixed or in scientific form, fixed when both are as short. The
reader rounds to the nearest `double` and ties to the even one. A text that rounds beyond the
largest `double`, or a nonzero one that rounds to zero, is out of range.
-/

set_option autoImplicit false

namespace CongestionObservatory

/-! ### Integers -/

/-- A decimal digit. -/
def isDigit (c : UInt8) : Bool := 0x30 ≤ c && c ≤ 0x39

/-- The number that digits denote. -/
def digitsValue (digits : Text) : Nat := digits.foldl (fun v c => v * 10 + (c.toNat - 0x30)) 0

/-- `std::to_chars` of a 64-bit integer. -/
def toCharsInt64 (value : Int64) : Text :=
  if value.toInt < 0 then 0x2d :: decimal value.toInt.natAbs else decimal value.toInt.natAbs

/-- What `std::from_chars` reports besides a value. -/
inductive FromCharsError where
  | invalidArgument
  | resultOutOfRange
  deriving DecidableEq, Repr

/-- The sign of a token and what follows it. -/
def splitSign : Text → Bool × Text
  | [] => (false, [])
  | c :: rest => if c = 0x2d then (true, rest) else (false, c :: rest)

/-- `std::from_chars` of a 64-bit integer, on a token that must be read to its end. -/
def fromCharsInt64 (token : Text) : Except FromCharsError Int64 :=
  let (negative, digits) := splitSign token
  if digits = [] ∨ digits.all isDigit = false then .error .invalidArgument
  else
    let value : Int := if negative then -(digitsValue digits : Int) else digitsValue digits
    if -2 ^ 63 ≤ value ∧ value < 2 ^ 63 then .ok (Int64.ofInt value)
    else .error .resultOutOfRange

namespace Double

/-! ### Rounding -/

/-- The quotient of two numbers, rounded to the nearest integer, ties to the even one. -/
def roundQuotient (n d : Nat) : Nat :=
  let q := n / d
  let r := n % d
  if 2 * r > d ∨ (2 * r = d ∧ q % 2 = 1) then q + 1 else q

/-- The exponent `e` for which `n / d` is between `2 ^ 52` and `2 ^ 53` times `2 ^ e`, but not
less than that of the smallest `double`. -/
def scaleOf (n d : Nat) : Int :=
  let e : Int := (Nat.log2 n : Int) - Nat.log2 d - 52
  let e := if n * 2 ^ (-e).toNat < 2 ^ 52 * (d * 2 ^ e.toNat) then e - 1 else e
  max e (-1074)

/-- The pattern of `m * 2 ^ e`. A significand of `2 ^ 53` carries into the exponent. -/
def patternOf (m : Nat) (e : Int) : Nat := m + (e + 1074).toNat * 2 ^ 52

/-- The nearest `double` of `±n / d`, unless it is out of range. -/
def ofQuotient (negative : Bool) (n d : Nat) : Option Double :=
  let e := scaleOf n d
  let pattern := if n = 0 then 0
    else patternOf (roundQuotient (n * 2 ^ (-e).toNat) (d * 2 ^ e.toNat)) e
  if pattern ≥ 0x7ff * 2 ^ 52 ∨ (n ≠ 0 ∧ pattern = 0) then none
  else some ⟨UInt64.ofNat (pattern + if negative then 2 ^ 63 else 0)⟩

/-- The nearest `double` of `±m * 10 ^ p`. -/
def ofDecimal (negative : Bool) (m : Nat) (p : Int) : Option Double :=
  ofQuotient negative (m * 10 ^ p.toNat) (10 ^ (-p).toNat)

/-- `static_cast<double>` of an integer. -/
def ofInt (n : Int) : Double := (ofQuotient (n < 0) n.natAbs 1).getD zero

/-- `static_cast<std::int64_t>` of a `double`: the fraction is dropped. A value outside the range
is undefined in the source and is the smallest integer here, as the machine gives it. -/
def toInt64 (d : Double) : Int64 :=
  let q := d.toRat
  let n : Int := q.num.tdiv q.den
  if d.isFinite ∧ -2 ^ 63 ≤ n ∧ n < 2 ^ 63 then Int64.ofInt n else Int64.minValue

/-! ### Reading -/

/-- The exponent part of a number that must be read to its end. -/
def exponentOf : Text → Option Int
  | [] => some 0
  | c :: rest =>
    if c ≠ 0x65 ∧ c ≠ 0x45 then none
    else
      let (negative, digits) := match rest with
        | [] => (false, [])
        | s :: digits => if s = 0x2d then (true, digits)
          else if s = 0x2b then (false, digits) else (false, rest)
      if digits = [] ∨ digits.all isDigit = false then none
      else some (if negative then -(digitsValue digits : Int) else digitsValue digits)

/-- The digits before and after the point, and what follows them. -/
def mantissaOf (text : Text) : Text × Text × Text :=
  let whole := text.takeWhile isDigit
  match text.dropWhile isDigit with
  | [] => (whole, [], [])
  | c :: rest =>
    if c = 0x2e then (whole, rest.takeWhile isDigit, rest.dropWhile isDigit)
    else (whole, [], c :: rest)

/-- `std::from_chars` of a `double`, on a token that must be read to its end. -/
def fromChars (token : Text) : Option Double :=
  let (negative, text) := splitSign token
  let (whole, fraction, rest) := mantissaOf text
  if whole ++ fraction = [] then none
  else match exponentOf rest with
  | none => none
  | some exponent =>
    ofDecimal negative (digitsValue (whole ++ fraction)) (exponent - fraction.length)

/-! ### Writing -/

/-- The magnitude of a finite `double` as a quotient. -/
def magnitude (d : Double) : Nat × Nat := (d.toRat.num.natAbs, d.toRat.den)

/-- The decimal exponent of the first digit of `n / d`. -/
def leadingExponent (n d : Nat) : Int :=
  if d ≤ n then ((decimal (n / d)).length - 1 : Nat)
  else
    let places := (decimal (d / n)).length - 1
    if n * 10 ^ places = d then -(places : Int) else -(places + 1 : Int)

/-- The decimals of `k` digits next to `n / d`, the nearer one first. -/
def decimalsNear (n d k : Nat) : List (Nat × Int) :=
  let p := leadingExponent n d - (k - 1 : Nat)
  let n' := n * 10 ^ (-p).toNat
  let d' := d * 10 ^ p.toNat
  let low := n' / d'
  if roundQuotient n' d' = low then [(low, p), (low + 1, p)] else [(low + 1, p), (low, p)]

/-- The shortest decimal that reads back as the value. -/
def shortestDecimal (d : Double) : Option (Nat × Int) :=
  let (n, den) := d.magnitude
  ((List.range 17).flatMap fun k => decimalsNear n den (k + 1)).find? fun c =>
    ofDecimal d.negative c.1 c.2 = some d

/-- A number with at least two digits. -/
def twoDigits (n : Nat) : Text := if n < 10 then 0x30 :: decimal n else decimal n

/-- The scientific form of `m * 10 ^ p`. -/
def scientific (m : Nat) (p : Int) : Text :=
  let digits := decimal m
  let exponent := p + (digits.length - 1 : Nat)
  digits.take 1 ++ (if digits.length = 1 then [] else 0x2e :: digits.drop 1)
    ++ (0x65 :: (if exponent < 0 then 0x2d else 0x2b) :: twoDigits exponent.natAbs)

/-- The fixed form of `m * 10 ^ p` for a negative `p`. -/
def fixedPoint (m : Nat) (p : Int) : Text :=
  let digits := decimal m
  let places := p.natAbs
  let padded := List.replicate (places + 1 - digits.length) 0x30 ++ digits
  padded.take (padded.length - places) ++ 0x2e :: padded.drop (padded.length - places)

/-- `std::to_chars` of a finite `double`, without its sign. A whole number has all its digits in
the fixed form. -/
def toCharsMagnitude (d : Double) : Text :=
  let (n, den) := d.magnitude
  if n = 0 then [0x30]
  else match d.shortestDecimal with
  | none => decimal (n / den)
  | some (m, p) =>
    let fixed := if den = 1 then decimal n else fixedPoint m p
    if (scientific m p).length < fixed.length then scientific m p else fixed

/-- `std::to_chars` of a finite `double`. -/
def toChars (d : Double) : Text :=
  if d.negative then 0x2d :: d.toCharsMagnitude else d.toCharsMagnitude

end Double

end CongestionObservatory
