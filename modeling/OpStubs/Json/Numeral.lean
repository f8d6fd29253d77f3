import OpStubs.Json.Token
import OpStubs.Number.Decimal

namespace OpStubs.Json

open Number

/-- A number that is read: an integer of 64 bits, or a 64-bit float by its sign and value. -/
inductive Num where
  | int (n : Int)
  | float (negative : Bool) (value : Magnitude)
  deriving DecidableEq, Repr

/-- The digits that are kept as an integer of 64 bits, and how many places the others are. Behind
the first digit that does not fit, none is kept. -/
def keepDigits (n : Nat) : List Char → Nat × Nat
  | [] => (n, 0)
  | c :: r =>
    let next := 10 * n + (c.toNat - '0'.toNat)
    if next < 0x10000000000000000 then keepDigits next r else (n, r.length + 1)

def powerOfTen (k : Nat) : Magnitude := (binary64.round (Nat.pow 10 k) 1).getD ⟨0, 0⟩

def product (a b : Magnitude) : Option Magnitude := binary64.round (a.num * b.num) (a.den * b.den)

def quotient (a b : Magnitude) : Option Magnitude := binary64.round (a.num * b.den) (a.den * b.num)

/-- The exponent of the largest power of ten that a float holds. -/
def greatestStep : Nat := 308

/-- `v` divided by `step` as often as said and then by `last`, each quotient being rounded. -/
def scaleDown (step last : Magnitude) : Nat → Magnitude → Option Magnitude
  | 0, v => quotient v last
  | steps + 1, v =>
    if v.mantissa = 0 then some v else (quotient v step).bind (scaleDown step last steps)

/-- `v` multiplied by `10 ^ exponent`, or nothing if that is past the greatest float. -/
def scale (v : Magnitude) (exponent : Int) : Option Magnitude :=
  let places := exponent.natAbs
  if exponent < 0 then
    let steps := (places - 1) / greatestStep
    scaleDown (powerOfTen greatestStep) (powerOfTen (places - greatestStep * steps)) steps v
  else if places ≤ greatestStep then product v (powerOfTen places)
  else if v.mantissa = 0 then some v
  else none

namespace Numeral

def exponent (n : Numeral) : Int :=
  match n.power with
  | none => 0
  | some (negative, digits) => if negative then -digitsValue digits else digitsValue digits

def floatOf (n : Nat) : Magnitude := (binary64.round n 1).getD ⟨0, 0⟩

/-- The digits that a float is made of: those before the point and those behind it as far as they
fit, and the power of ten that the first digit left out stands for. -/
def significand (n : Numeral) : Nat × Int :=
  let (whole, left) := keepDigits 0 n.whole
  match n.part with
  | none => (whole, left)
  | some part =>
    let (all, more) := keepDigits whole part
    (all, left - (part.length - more : Nat))

def float (n : Numeral) : Except Fault Num :=
  let (digits, places) := n.significand
  match scale (floatOf digits) (places + n.exponent) with
  | some v => .ok (.float n.negative v)
  | none => .error .malformed

/-- The value of a numeral. Without point and exponent it is an integer if it fits, but for a zero
with a minus sign. -/
def value (n : Numeral) : Except Fault Num :=
  if n.part.isNone ∧ n.power.isNone then
    let whole := digitsValue n.whole
    if n.negative then
      if 0 < whole ∧ whole ≤ 0x8000000000000000 then .ok (.int (-whole)) else n.float
    else if whole < 0x10000000000000000 then .ok (.int whole)
    else n.float
  else n.float

end Numeral

def Num.toBinary32 : Num → Binary32
  | int n => Binary32.ofFraction (n < 0) n.natAbs 1
  | float negative v => Binary32.ofFraction negative v.num v.den

end OpStubs.Json
