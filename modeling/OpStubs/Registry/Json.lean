import OpStubs.Json.Decode
import OpStubs.Registry.Basic

namespace OpStubs.Json

inductive ReadError where
  | fault (f : Fault)
  | unknownElementType (name : String)
  /-- A default that is neither a number nor spells one. -/
  | invalidDefault (text attr : String)
  deriving DecidableEq, Repr

/-- The default of an attribute by the fields that are given. -/
structure DefaultRecord where
  i : Option (Num ⊕ String) := none
  f : Option (Num ⊕ String) := none
  b : Option Bool := none
  s : Option String := none
  type : Option String := none
  /-- A shape, a tensor, a function or a list is given. -/
  composite : Bool := false

/-- An integer may be a string. A number that is none of 64 bits with a sign does not fit. -/
def integer : Reader (Num ⊕ String) := fun room t => do
  match ← Reader.numberOrString room t with
  | .inl (.int n) => if Number.fits64 n then return .inl (.int n) else throw .misfit
  | .inl (.float ..) => throw .misfit
  | .inr text => return .inr text

def defaultRecord : Record DefaultRecord where
  fields := ["i", "f", "b", "s", "type", "shape", "tensor", "func", "list"].map ({ name := · })
  take d key room t :=
    match key with
    | "i" => do return { d with i := ← Reader.optional integer room t }
    | "f" => do return { d with f := ← Reader.optional Reader.numberOrString room t }
    | "b" => do return { d with b := ← Reader.optional Reader.bool room t }
    | "s" => do return { d with s := ← Reader.optional Reader.string room t }
    | "type" => do return { d with type := ← Reader.optional Reader.string room t }
    | _ => do
      let given ← Reader.optional Reader.any room t
      return { d with composite := d.composite || given.isSome }

structure AttrRecord where
  name : String := ""
  type : String := ""
  default : Option DefaultRecord := none

def attrRecord : Record AttrRecord where
  fields := [{ name := "name" }, { name := "type" },
    { name := "defaultValue", alias? := some "default_value" }]
  take a key room t :=
    match key with
    | "name" => do return { a with name := ← Reader.string room t }
    | "type" => do return { a with type := ← Reader.string room t }
    | _ => do return { a with default := ← Reader.optional (defaultRecord.read [] {}) room t }

structure ArgRecord where
  name : String := ""
  type : Option String := none
  typeAttr : Option String := none
  numberAttr : Option String := none
  typeListAttr : Option String := none

def argRecord : Record ArgRecord where
  fields := [{ name := "name" }, { name := "type" },
    { name := "typeAttr", alias? := some "type_attr" },
    { name := "numberAttr", alias? := some "number_attr" },
    { name := "typeListAttr", alias? := some "type_list_attr" }]
  take a key room t :=
    match key with
    | "name" => do return { a with name := ← Reader.string room t }
    | "type" => do return { a with type := ← Reader.optional Reader.string room t }
    | "typeAttr" => do return { a with typeAttr := ← Reader.optional Reader.string room t }
    | "numberAttr" => do return { a with numberAttr := ← Reader.optional Reader.string room t }
    | _ => do return { a with typeListAttr := ← Reader.optional Reader.string room t }

structure OpRecord where
  name : String := ""
  inputs : List ArgRecord := []
  outputs : List ArgRecord := []
  attrs : List AttrRecord := []
  summary : Option String := none
  description : Option String := none

def opRecord : Record OpRecord where
  fields := [{ name := "name" },
    { name := "inputArg", alias? := some "input_arg", mayEnd := true },
    { name := "outputArg", alias? := some "output_arg", mayEnd := true },
    { name := "attr", mayEnd := true }, { name := "summary" }, { name := "description" }]
  take op key room t :=
    match key with
    | "name" => do return { op with name := ← Reader.string room t }
    | "inputArg" => do
      return { op with inputs := ← Reader.array (argRecord.read ["name"] {}) room t }
    | "outputArg" => do
      return { op with outputs := ← Reader.array (argRecord.read ["name"] {}) room t }
    | "attr" => do
      return { op with attrs := ← Reader.array (attrRecord.read ["name", "type"] {}) room t }
    | "summary" => do return { op with summary := ← Reader.optional Reader.string room t }
    | _ => do return { op with description := ← Reader.optional Reader.string room t }

def opsRecord : Record (List OpRecord) where
  fields := [{ name := "op", mayEnd := true }]
  take _ _ room t := Reader.array (opRecord.read ["name"] {}) room t

def elementType (name : String) : Except ReadError ElementType :=
  match ElementType.ofIdentifier? name with
  | some t => .ok t
  | none => .error (.unknownElementType name)

def intValue (attr : String) : Num ⊕ String → Except ReadError AttrValue
  | .inl (.int n) => .ok (.int n)
  | .inl (.float ..) => .error (.fault .misfit)
  | .inr text =>
    match Number.parseInt64? text.toList with
    | some n => .ok (.int n)
    | none => .error (.invalidDefault text attr)

def floatValue (attr : String) : Num ⊕ String → Except ReadError AttrValue
  | .inl n => .ok (.float n.toBinary32)
  | .inr text =>
    match Number.Binary32.parse? text.toList with
    | some x => .ok (.float x)
    | none => .error (.invalidDefault text attr)

/-- The default that a record gives. Of several fields the first in their order counts. -/
def DefaultRecord.value (attr : String) (d : DefaultRecord) : Except ReadError (Option AttrValue) :=
  match d.i, d.f, d.b, d.s, d.type with
  | some i, _, _, _, _ => some <$> intValue attr i
  | none, some f, _, _, _ => some <$> floatValue attr f
  | none, none, some b, _, _ => .ok (some (.bool b))
  | none, none, none, some s, _ => .ok (some (.string s))
  | none, none, none, none, some name => (fun t => some (.type t)) <$> elementType name
  | none, none, none, none, none => .ok (if d.composite then some .composite else none)

def AttrRecord.attrDef (a : AttrRecord) : Except ReadError AttrDef := do
  let default ← match a.default with
    | some d => d.value a.name
    | none => pure none
  return { name := a.name, kind := a.type, default }

def ArgRecord.argDef (a : ArgRecord) : Except ReadError ArgDef := do
  let elementType ← match a.type.bind nonEmpty with
    | some name => some <$> elementType name
    | none => pure none
  return {
    name := a.name
    elementType
    typeAttr := a.typeAttr.bind nonEmpty
    numberAttr := a.numberAttr.bind nonEmpty
    typeListAttr := a.typeListAttr.bind nonEmpty }

def OpRecord.opDef (op : OpRecord) : Except ReadError OpDef := do
  return {
    name := op.name
    inputs := ← op.inputs.mapM ArgRecord.argDef
    outputs := ← op.outputs.mapM ArgRecord.argDef
    attrs := ← op.attrs.mapM AttrRecord.attrDef
    summary := op.summary.bind nonEmpty
    description := op.description.bind nonEmpty }

def registry (text : String) : Except ReadError Registry := do
  let ops ← (parse (opsRecord.read [] []) text).mapError .fault
  ops.mapM OpRecord.opDef

end OpStubs.Json
