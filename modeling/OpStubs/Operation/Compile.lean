import OpStubs.Naming
import OpStubs.Operation.Default

namespace OpStubs.Operation

/-- An attribute whose kind has no setter. -/
structure UnsupportedKind where
  op : String
  attr : String
  kind : String
  deriving DecidableEq, Repr

def UnsupportedKind.message (e : UnsupportedKind) : String :=
  "unsupported attribute kind '" ++ e.kind ++ "' for attribute '" ++ e.attr ++ "' of operation '" ++
    e.op ++ "'"

/-- The attribute for the element type of the inputs, which the engine finds out by itself. -/
def elementTypeAttr : String := "T"

/-- The kind inside `list(…)` and `true`, or the whole kind and `false`. -/
def splitKind (kind : String) : String × Bool :=
  match ("list(".toList.isPrefixOf? kind.toList).bind fun rest => [')'].isSuffixOf? rest with
  | some inner => (String.ofList inner, true)
  | none => (kind, false)

/-- The annotation of a list, each alternative of its elements being a list of its own. -/
def listType (type : String) : String :=
  String.ofList (type.toList.flatMap fun c => if c = '|' then "[]|".toList else [c]) ++ "[]"

/-- An optional attribute stands after the others. Values that have no place for a default do not
make one optional; for a count, any default does. -/
def isOptional (kind : AttrKind) (isList derived : Bool) (default : Option AttrValue) : Bool :=
  default.isSome && (derived || (!isList && kind != .shape && kind != .tensor))

/-- Compiles an attribute of operation `op`. `countVar` gives the input whose length an attribute
counts. The element type's attribute is left out. -/
def Attribute.compile (op : String) (attr : AttrDef) (countVar : String → Option String) :
    Except UnsupportedKind (Option Attribute) := do
  if attr.name = elementTypeAttr then return none
  let unsupported : UnsupportedKind := ⟨op, attr.name, attr.kind⟩
  let (kindName, isList) := splitKind attr.kind
  let some kind := AttrKind.ofName? kindName | throw unsupported
  let var := Naming.attrVar attr.name
  let binding ← match countVar attr.name with
    | some inputVar => pure (Binding.lengthOf inputVar)
    | none =>
      match Setter.of? kind isList with
      | some setter => pure (Binding.param setter var)
      | none => throw unsupported
  let derived := (countVar attr.name).isSome
  return some {
    name := attr.name
    var
    kind
    isList
    hostType := if isList then listType kind.hostType else kind.hostType
    foreignType := kind.foreignType.map fun t => if isList then t ++ "[]" else t
    default :=
      if !derived && !isList && hasLiteral kind then attr.default.bind (Default.ofValue? kind)
      else none
    optional := isOptional kind isList derived attr.default
    derived
    binding }

def Input.compile (arg : ArgDef) : Input := ⟨arg.name, Naming.inputVar arg.name, arg.isVariadic⟩

/-- The parameter of the first input that names `attr` as the count of its tensors. -/
def countVar (inputs : List ArgDef) (attr : String) : Option String :=
  (inputs.find? fun arg => arg.numberAttr == some attr).map fun arg => Naming.inputVar arg.name

def Arity.ofOutputs : List ArgDef → Arity
  | [] => .none
  | [output] => if output.isVariadic then .many else .single
  | _ => .many

/-- Those that are not optional, then the others. Each part keeps its order. -/
def requiredFirst (attrs : List Attribute) : List Attribute :=
  attrs.filter (fun a => !a.optional) ++ attrs.filter (·.optional)

/-- All compiled attributes of an operation in declared order, or the first that fails. -/
def compileAttrs (op : OpDef) : Except UnsupportedKind (List Attribute) := do
  let attrs ← op.attrs.mapM fun attr => Attribute.compile op.name attr (countVar op.inputs)
  return attrs.filterMap id

def compile (op : OpDef) (doc : Documentation) : Except UnsupportedKind Operation := do
  let attrs ← compileAttrs op
  return {
    name := op.name
    function := Naming.functionName op.name
    inputs := op.inputs.map Input.compile
    attrs := requiredFirst attrs
    doc
    arity := Arity.ofOutputs op.outputs }

end OpStubs.Operation
