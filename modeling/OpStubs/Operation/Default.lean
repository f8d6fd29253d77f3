import OpStubs.Lua.Quoted
import OpStubs.Number.Scientific
import OpStubs.Operation.Basic
import OpStubs.Registry.Basic

namespace OpStubs.Operation

def infinityLocal : String := "float_infinity"

/-- A float in Lua: four digits after the point. No float is below `10 ^ -60`. -/
def floatLiteral (x : Number.Binary32) : String :=
  if x.isNaN then "(0/0)"
  else
    let sign := if x.isNegative then "-" else ""
    if x.isInfinite then sign ++ infinityLocal
    else sign ++ String.ofList (Number.scientific 60 4 x.magnitude.num x.magnitude.den)

/-- An element type in an annotation: its name in small letters and quotes. -/
def typeLabel (t : ElementType) : String := "\"" ++ t.name.map Char.toLower ++ "\""

def Default.plain (text : String) : Default := ⟨text, text⟩

def hasLiteral : AttrKind → Bool
  | .shape => false
  | .tensor => false
  | .func => false
  | _ => true

/-- The default of an attribute of that kind. A value of another kind is none, but for the code of
an element type. -/
def Default.ofValue? : AttrKind → AttrValue → Option Default
  | .int, .int i => some (plain (toString i))
  | .bool, .bool b => some (plain (if b then "true" else "false"))
  | .string, .string s => some (plain (Lua.quote s))
  | .float, .float x => some (plain (floatLiteral x))
  | .type, .type t => some ⟨toString t.code, typeLabel t⟩
  | .type, .int code => (ElementType.ofCode? code).map fun t => ⟨toString code, typeLabel t⟩
  | _, _ => none

end OpStubs.Operation
