import OpStubs.Number.Rounding

namespace OpStubs.Number

/-- The number `mantissa * 2 ^ exponent`. -/
structure Magnitude where
  mantissa : Nat
  exponent : Int
  deriving DecidableEq, Repr

namespace Magnitude

def num (v : Magnitude) : Nat := v.mantissa * Nat.pow 2 v.exponent.toNat

def den (v : Magnitude) : Nat := Nat.pow 2 (-v.exponent).toNat

end Magnitude

/-- A binary floating-point format: mantissas below `2 ^ precision`, exponents from `least` to
`greatest`. -/
structure BinaryFormat where
  precision : Nat
  least : Int
  greatest : Int

def binary32 : BinaryFormat := ⟨24, -149, 104⟩

def binary64 : BinaryFormat := ⟨53, -1074, 971⟩

/-- The greatest `k` with `2 ^ k ≤ num / den`, both being positive. -/
def floorLog2 (num den : Nat) : Int :=
  let guess : Int := num.log2 - den.log2
  if num * Nat.pow 2 (-guess).toNat < den * Nat.pow 2 guess.toNat then guess - 1 else guess

/-- The number of the format nearest to `num / den`, ties to the even mantissa; nothing where that
would be past the greatest number of the format. -/
def BinaryFormat.round (f : BinaryFormat) (num den : Nat) : Option Magnitude :=
  if num = 0 then some ⟨0, f.least⟩
  else
    let e := max (floorLog2 num den - (f.precision - 1)) f.least
    let m := roundHalfEven (num * Nat.pow 2 (-e).toNat) (den * Nat.pow 2 e.toNat)
    let v : Magnitude :=
      if m = Nat.pow 2 f.precision then ⟨Nat.pow 2 (f.precision - 1), e + 1⟩ else ⟨m, e⟩
    if f.greatest < v.exponent then none else some v

/-- A 32-bit float by its IEEE 754 bit pattern. -/
structure Binary32 where
  bits : UInt32
  deriving DecidableEq, Repr

namespace Binary32

def isNegative (x : Binary32) : Bool := 0x80000000 ≤ x.bits.toNat

def exponentField (x : Binary32) : Nat := x.bits.toNat / 0x800000 % 0x100

def fraction (x : Binary32) : Nat := x.bits.toNat % 0x800000

def isNaN (x : Binary32) : Bool := x.exponentField == 255 && x.fraction != 0

def isInfinite (x : Binary32) : Bool := x.exponentField == 255 && x.fraction == 0

def magnitude (x : Binary32) : Magnitude :=
  if x.exponentField = 0 then ⟨x.fraction, -149⟩
  else ⟨x.fraction + 0x800000, (x.exponentField : Int) - 150⟩

def signBit (negative : Bool) : Nat := if negative then 0x80000000 else 0

/-- The float of a number of the format, as `BinaryFormat.round` gives it; infinity for nothing. -/
def ofMagnitude (negative : Bool) (v : Option Magnitude) : Binary32 :=
  let field := match v with
    | none => 0xFF * 0x800000
    | some v =>
      if v.mantissa < 0x800000 then v.mantissa
      else (v.exponent + 150).toNat * 0x800000 + (v.mantissa - 0x800000)
  ⟨UInt32.ofNat (signBit negative + field)⟩

def infinity (negative : Bool) : Binary32 := ofMagnitude negative none

def nan : Binary32 := ⟨0x7FC00000⟩

def ofFraction (negative : Bool) (num den : Nat) : Binary32 :=
  ofMagnitude negative (binary32.round num den)

def negate (x : Binary32) : Binary32 := ⟨x.bits ^^^ 0x80000000⟩

end Binary32

end OpStubs.Number
