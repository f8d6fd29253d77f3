import OpStubs.ElementType
import OpStubs.Number.Binary

namespace OpStubs

inductive AttrValue where
  | int (value : Int)
  | float (value : Number.Binary32)
  | bool (value : Bool)
  | string (value : String)
  | type (value : ElementType)
  /-- A shape, tensor, function or list: it is known to be there, but never written. -/
  | composite
  deriving DecidableEq, Repr

structure ArgDef where
  name : String := ""
  elementType : Option ElementType := none
  /-- The attribute that names the element type. -/
  typeAttr : Option String := none
  /-- The attribute that holds how many tensors the argument takes. -/
  numberAttr : Option String := none
  /-- The attribute that lists an element type for each tensor of the argument. -/
  typeListAttr : Option String := none
  deriving DecidableEq, Repr

def ArgDef.isVariadic (a : ArgDef) : Bool := a.numberAttr.isSome || a.typeListAttr.isSome

structure AttrDef where
  name : String := ""
  /-- A scalar kind such as `int`, or `list(int)`. -/
  kind : String := ""
  default : Option AttrValue := none
  deriving DecidableEq, Repr

structure OpDef where
  name : String := ""
  inputs : List ArgDef := []
  outputs : List ArgDef := []
  attrs : List AttrDef := []
  summary : Option String := none
  description : Option String := none
  deriving DecidableEq, Repr

/-- An optional text, where an empty one counts as absent. -/
def nonEmpty (s : String) : Option String := if s = "" then none else some s

abbrev Registry := List OpDef

inductive LookupError where
  | unresolved (name : String)
  | duplicate (name : String)
  deriving DecidableEq, Repr

def LookupError.message : LookupError → String
  | unresolved name => "operation '" ++ name ++ "' not found in registry"
  | duplicate name => "operation '" ++ name ++ "' is defined more than once in registry"

def Registry.find (r : Registry) (name : String) : Except LookupError OpDef :=
  match r.filter fun op => op.name == name with
  | [] => .error (.unresolved name)
  | [op] => .ok op
  | _ => .error (.duplicate name)

end OpStubs
