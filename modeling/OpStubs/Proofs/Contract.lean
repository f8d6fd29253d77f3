import Mathlib.Algebra.Field.Rat
import OpStubs.Naming
import OpStubs.Proofs.Lua.Semantics

namespace OpStubs

open Lua

/-- The engine's setter for each kind of attribute. -/
def setters : List (String × String) :=
  [("func", "setAttrFunction"), ("list(func)", "setAttrFunctionList"),
   ("shape", "setAttrShape"), ("list(shape)", "setAttrShapeList"),
   ("int", "setAttrInt"), ("list(int)", "setAttrIntList"),
   ("float", "setAttrFloat"), ("list(float)", "setAttrFloatList"),
   ("string", "setAttrString"), ("list(string)", "setAttrStringList"),
   ("type", "setAttrType"), ("list(type)", "setAttrTypeList"),
   ("bool", "setAttrBool"), ("list(bool)", "setAttrBoolList"),
   ("tensor", "setAttrTensor")]

/-- A float to five digits. -/
def floatValue (x : Number.Binary32) : Value :=
  if x.isNaN then .undefined
  else if x.isInfinite then .infinity x.isNegative
  else
    let d := Number.roundScientific 60 4 x.magnitude.num x.magnitude.den
    let q : Rat := d.digits * 10 ^ (d.power - 4)
    .number (if x.isNegative then -q else q)

/-- What an attribute is where its argument is `nil`. -/
def AttrDef.defaultValue? (attr : AttrDef) : Option Value :=
  match attr.kind, attr.default with
  | "int", some (.int i) => some (.number i)
  | "bool", some (.bool b) => some (.bool b)
  | "string", some (.string s) => some (.string s)
  | "float", some (.float x) => some (floatValue x)
  | "type", some (.type t) => some (.number t.code)
  | "type", some (.int code) => (ElementType.ofCode? code).map fun _ => .number code
  | _, _ => none

/-- What an attribute is for an argument. -/
def AttrDef.given (attr : AttrDef) (v : Value) : Value :=
  if v = .nil then attr.defaultValue?.getD .nil else v

namespace Lua

/-- Whether fields may be read from a value. -/
def Value.hasFields : Value → Bool
  | object _ => true
  | table _ => true
  | _ => false

namespace World

variable (w : World)

/-- What a field of a value holds, or the value where it holds nothing. -/
def unwrap (field : String) : Value → Value
  | .object id => if (w.field id field).isTrue then w.field id field else .object id
  | v => v

/-- The members of a sequence of the caller. -/
def members : Value → List Value
  | .table id => w.tables.getD id []
  | _ => []

/-- What is passed on for a value of the caller. -/
def item (v : Value) : Item := Store.item ⟨w.tables, []⟩ v

end World

namespace Item

/-- No tensor is `nil`, and one is not a sequence. -/
def ofTensors : List Value → Item
  | [] => .value .nil
  | [tensor] => .value tensor
  | tensors => .sequence tensors

/-- Whether a value is an item after a run. -/
def Is (s : Store) (v : Value) : Item → Prop
  | .value x => v = x
  | .sequence vs => ∃ id, v = .table id ∧ s.tables[id]? = some vs

end Item

end Lua

namespace OpDef

variable (op : OpDef) (w : World) (arg : String → Value)

/-- The input whose length an attribute is. -/
def counted? (attr : String) : Option ArgDef :=
  op.inputs.find? fun input => input.numberAttr == some attr

/-- Whether an attribute stands behind those that are required. -/
def isOptional (attr : AttrDef) : Bool :=
  attr.default.isSome && ((op.counted? attr.name).isSome ||
    ["func", "int", "float", "string", "type", "bool"].contains attr.kind)

/-- The attributes that are set, in the order in which they are. -/
def settings : List AttrDef :=
  let attrs := op.attrs.filter fun attr => attr.name != "T"
  attrs.filter (fun attr => !op.isOptional attr) ++ attrs.filter op.isOptional

/-- The call for an input of an operation with handle `h`. -/
def inputCall (h : Nat) (input : ArgDef) : Call :=
  let v := arg (Naming.inputVar input.name)
  if input.isVariadic then
    ⟨h, "addInputList", [.sequence ((w.members v).map (w.unwrap "_handle"))]⟩
  else ⟨h, "addInput", [w.item (w.unwrap "_handle" v)]⟩

/-- The call for an attribute. A tensor is set by what it wraps. -/
def attrCall? (h : Nat) (attr : AttrDef) : Option Call :=
  match op.counted? attr.name with
  | some input =>
    let count := (w.members (arg (Naming.inputVar input.name))).length
    some ⟨h, "setAttrInt", [.value (.string attr.name), .value (.number count)]⟩
  | none =>
    (setters.lookup attr.kind).map fun setter =>
      let v := attr.given (arg (Naming.attrVar attr.name))
      let v := if attr.kind = "tensor" then w.unwrap "_tensor" v else v
      ⟨h, setter, [.value (.string attr.name), w.item v]⟩

/-- The calls that run an operation. -/
def calls? : Option (List Call) := do
  let create : Call := ⟨w.context, "newOp", [.value (.string op.name)]⟩
  let h := w.newOp [create]
  let sets ← op.settings.mapM (op.attrCall? w arg h)
  some (create :: (op.inputs.map (inputCall w arg h) ++ sets ++ [⟨h, "execute", []⟩]))

/-- What comes of the results after some calls. -/
def result (calls : List Call) : Item :=
  let tensors := (w.execute calls).map w.wrap
  match op.outputs with
  | [] => .value .nil
  | [output] =>
    if output.isVariadic then .sequence tensors else .ofTensors tensors
  | _ => .sequence tensors

/-- Whether arguments, by the names of their parameters, are what an operation may be called
with. -/
structure Accepts : Prop where
  exists_table : ∀ {p id}, arg p = .table id → id < w.tables.length
  input : ∀ input ∈ op.inputs, input.isVariadic = false →
    (arg (Naming.inputVar input.name)).hasFields = true
  variadic : ∀ input ∈ op.inputs, input.isVariadic = true →
    ∃ id, arg (Naming.inputVar input.name) = .table id
  member : ∀ input ∈ op.inputs, input.isVariadic = true →
    ∀ v ∈ w.members (arg (Naming.inputVar input.name)), v.hasFields = true
  tensor : ∀ attr ∈ op.settings, op.counted? attr.name = none → attr.kind = "tensor" →
    (arg (Naming.attrVar attr.name)).hasFields = true

end OpDef

end OpStubs
