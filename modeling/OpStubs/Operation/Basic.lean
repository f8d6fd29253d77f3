import OpStubs.Documentation

namespace OpStubs

/-- The kinds of value that an attribute may hold, alone or in a list. -/
inductive AttrKind where
  | func
  | shape
  | int
  | float
  | string
  | type
  | bool
  | tensor
  deriving DecidableEq, Repr

namespace AttrKind

def all : List AttrKind := [func, shape, int, float, string, type, bool, tensor]

def name : AttrKind → String
  | func => "func"
  | shape => "shape"
  | int => "int"
  | float => "float"
  | string => "string"
  | type => "type"
  | bool => "bool"
  | tensor => "tensor"

def ofName? (s : String) : Option AttrKind := all.find? fun k => k.name == s

def hostType : AttrKind → String
  | func => "tfe.TFEOp"
  | shape => "number[]"
  | int => "number"
  | float => "number"
  | string => "string"
  | type => "number|string"
  | bool => "boolean"
  | tensor => "tfl.Tensor"

/-- The engine's own type of a value, where it says more than the annotation. -/
def foreignType : AttrKind → Option String
  | shape => some "int64_t[]"
  | int => some "int64_t"
  | float => some "float"
  | type => some "TF_DataType"
  | func => none
  | string => none
  | bool => none
  | tensor => none

def title : AttrKind → String
  | func => "Function"
  | shape => "Shape"
  | int => "Int"
  | float => "Float"
  | string => "String"
  | type => "Type"
  | bool => "Bool"
  | tensor => "Tensor"

theorem mem_all (k : AttrKind) : k ∈ all := by cases k <;> decide

theorem ofName?_name (k : AttrKind) : ofName? k.name = some k := by cases k <;> decide

end AttrKind

namespace Operation

/-- The setter of the engine's operation handle for a kind of value. Lists of tensors have none. -/
structure Setter where
  kind : AttrKind
  isList : Bool
  supported : kind = .tensor → isList = false := by decide
  deriving DecidableEq

namespace Setter

def of? (kind : AttrKind) (isList : Bool) : Option Setter :=
  if h : kind = .tensor → isList = false then some ⟨kind, isList, h⟩ else none

def title (s : Setter) : String := s.kind.title ++ if s.isList then "List" else ""

def method (s : Setter) : String := "setAttr" ++ s.title

def int : Setter := ⟨.int, false, by decide⟩

end Setter

/-- How an attribute gets its value. -/
inductive Binding where
  | param (setter : Setter) (var : String)
  /-- It is the length of an input. -/
  | lengthOf (inputVar : String)
  deriving DecidableEq

/-- A default as Lua reads it and as the annotation tells it. -/
structure Default where
  literal : String
  doc : String
  deriving DecidableEq, Repr

structure Attribute where
  name : String
  var : String
  kind : AttrKind
  isList : Bool
  hostType : String
  foreignType : Option String
  default : Option Default
  /-- Optional attributes stand after the others. -/
  optional : Bool
  /-- A derived attribute is computed and is no parameter. -/
  derived : Bool
  binding : Binding
  deriving DecidableEq

structure Input where
  name : String
  var : String
  /-- Whether it takes a sequence. -/
  variadic : Bool
  deriving DecidableEq, Repr

def Input.hostType (i : Input) : String := if i.variadic then "tfl.Tensor[]" else "tfl.Tensor"

inductive Arity where
  | none
  | single
  | many
  deriving DecidableEq, Repr

end Operation

structure Operation where
  name : String
  function : String
  inputs : List Operation.Input
  /-- Those that are not optional first. -/
  attrs : List Operation.Attribute
  doc : Documentation
  arity : Operation.Arity
  deriving DecidableEq

namespace Operation

def attrParams (op : Operation) : List Attribute := op.attrs.filter fun a => !a.derived

/-- The parameters: the inputs, then attributes. -/
def params (op : Operation) : List String := op.inputs.map (·.var) ++ op.attrParams.map (·.var)

end Operation

end OpStubs
