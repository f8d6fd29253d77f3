import OpStubs.Number.Decimal

namespace OpStubs.Number

/-- The greatest `x` with `10 ^ x ≤ num / den`, provided that `10 ^ depth` times the quotient is at
least 1. -/
def floorLog10 (depth num den : Nat) : Int :=
  (digitCount (num * Nat.pow 10 depth / den) : Int) - 1 - depth

structure ScientificForm where
  digits : Nat
  power : Int
  deriving DecidableEq, Repr

/-- `num / den` to `places` digits after the leading one. A quotient half-way between two such
numbers goes to the one with the even last digit. -/
def roundScientific (depth places num den : Nat) : ScientificForm :=
  if num = 0 then ⟨0, 0⟩
  else
    let x := floorLog10 depth num den
    let shift := (places : Int) - x
    let m := roundHalfEven (num * Nat.pow 10 shift.toNat) (den * Nat.pow 10 (-shift).toNat)
    if m = Nat.pow 10 (places + 1) then ⟨Nat.pow 10 places, x + 1⟩ else ⟨m, x⟩

def padded (width n : Nat) : List Char :=
  let digits := Nat.toDigits 10 n
  List.replicate (width - digits.length) '0' ++ digits

/-- A number in scientific notation: `places` digits after the point, then the exponent with its
sign and at least two digits. -/
def scientific (depth places num den : Nat) : List Char :=
  let d := roundScientific depth places num den
  let digits := padded (places + 1) d.digits
  let sign := if d.power < 0 then '-' else '+'
  digits.take 1 ++ '.' :: digits.drop 1 ++ 'e' :: sign :: padded 2 d.power.natAbs

end OpStubs.Number
