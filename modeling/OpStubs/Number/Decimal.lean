import OpStubs.Number.Binary

namespace OpStubs.Number

def digitsValue (s : List Char) : Nat := s.foldl (fun n c => 10 * n + (c.toNat - '0'.toNat)) 0

def digitCount (n : Nat) : Nat := if n < 10 then 1 else digitCount (n / 10) + 1
termination_by n
decreasing_by omega

/-- The number `digits * 10 ^ exponent`. -/
structure Decimal where
  digits : Nat
  exponent : Int
  deriving DecidableEq, Repr

namespace Decimal

def num (d : Decimal) : Nat := d.digits * Nat.pow 10 d.exponent.toNat

def den (d : Decimal) : Nat := Nat.pow 10 (-d.exponent).toNat

/-- Where the leading digit of `d` stands: 1 for units. -/
def order (d : Decimal) : Int := digitCount d.digits + d.exponent

/-- The 32-bit float nearest to `d` or to its opposite. Past the two orders the answer is infinity
or zero, without the long powers of ten. -/
def toBinary32 (negative : Bool) (d : Decimal) : Binary32 :=
  if d.digits = 0 ∨ d.order < -60 then Binary32.ofMagnitude negative (some ⟨0, -149⟩)
  else if 60 < d.order then Binary32.infinity negative
  else Binary32.ofFraction negative d.num d.den

/-- An exponent after its `e`: an optional sign and digits to the end. -/
def readExponent (s : List Char) : Option Int :=
  let (negative, digits) := match s with
    | '-' :: r => (true, r)
    | '+' :: r => (false, r)
    | r => (false, r)
  if digits = [] ∨ ¬ digits.all Char.isDigit then none
  else if negative then some (-digitsValue digits) else some (digitsValue digits)

/-- Digits, of which a point may stand before, among or after, and an optional exponent. -/
def parse? (s : List Char) : Option Decimal :=
  let whole := s.takeWhile Char.isDigit
  let rest := s.dropWhile Char.isDigit
  let (part, rest) := match rest with
    | '.' :: r => (r.takeWhile Char.isDigit, r.dropWhile Char.isDigit)
    | r => ([], r)
  if whole = [] ∧ part = [] then none
  else
    match rest with
    | [] => some ⟨digitsValue (whole ++ part), -part.length⟩
    | c :: r =>
      if c = 'e' ∨ c = 'E' then
        (readExponent r).map fun e => ⟨digitsValue (whole ++ part), e - part.length⟩
      else none

end Decimal

def splitSign : List Char → Bool × List Char
  | '-' :: r => (true, r)
  | '+' :: r => (false, r)
  | r => (false, r)

/-- Reads a float: a sign, then `inf`, `infinity` or `nan` in any case, or a decimal number, which
becomes the nearest float. -/
def Binary32.parse? (s : List Char) : Option Binary32 :=
  let (negative, body) := splitSign s
  let word := body.map Char.toLower
  if word = "inf".toList ∨ word = "infinity".toList then some (Binary32.infinity negative)
  else if word = "nan".toList then
    some (if negative then Binary32.nan.negate else Binary32.nan)
  else (Decimal.parse? body).map (Decimal.toBinary32 negative)

def fits64 (n : Int) : Bool := -0x8000000000000000 ≤ n && n < 0x8000000000000000

/-- Reads an integer of 64 bits: a sign and digits, leading zeros allowed. -/
def parseInt64? (s : List Char) : Option Int :=
  let (negative, digits) := splitSign s
  if digits = [] ∨ ¬ digits.all Char.isDigit then none
  else
    let n : Int := if negative then -digitsValue digits else digitsValue digits
    if fits64 n then some n else none

end OpStubs.Number
