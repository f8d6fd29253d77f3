import OpStubs.Number.Decimal
import OpStubs.Registry.Basic
import OpStubs.Text.Lines
import OpStubs.TextFormat.Field

namespace OpStubs.TextFormat

inductive ReadError where
  | problem (p : Problem)
  | unknownElementType (name : String)
  deriving DecidableEq, Repr

def Value.describe : Value → String
  | str _ => "a string"
  | number text => "number " ++ text
  | ident name => "identifier " ++ name
  | message _ => "a message"
  | list items => "a list of " ++ toString items.length ++ " values"

namespace Entry

def fail {α : Type} (f : Field) (cause : Cause) : Except ReadError α :=
  .error (.problem ⟨f.pos, cause⟩)

def wrong {α : Type} (f : Field) (expected : String) : Except ReadError α :=
  f.fail (.wrongForm f.name expected f.value.describe)

def message (f : Field) : Except ReadError (List Field) :=
  match f.value with
  | .message fields => .ok fields
  | _ => f.wrong "a message"

def string (f : Field) : Except ReadError String :=
  match f.value with
  | .str s => .ok s
  | _ => f.wrong "a string"

/-- The text of a field, an empty one counting as absent. -/
def text (f : Field) : Except ReadError (Option String) := f.string.map nonEmpty

def scalar (f : Field) : Except ReadError String :=
  match f.value with
  | .number s => .ok s
  | .ident s => .ok s
  | _ => f.wrong "a number"

def elementType (f : Field) : Except ReadError ElementType :=
  match f.value with
  | .ident name =>
    match ElementType.ofIdentifier? name with
    | some t => .ok t
    | none => .error (.unknownElementType name)
  | _ => f.wrong "an identifier"

/-- A float, which may have letters `f` at its end. -/
def float? (s : List Char) : Option Number.Binary32 :=
  let (negative, body) := match s with
    | '-' :: r => (true, r)
    | r => (false, r)
  let lower := body.map Char.toLower
  let magnitude :=
    if lower = "inf".toList ∨ lower = "infinity".toList then some (.infinity false)
    else if lower = "nan".toList then some .nan
    else Number.Binary32.parse? (lower.reverse.dropWhile (· == 'f')).reverse
  magnitude.map fun x => if negative then x.negate else x

def bool? (s : String) : Option Bool :=
  if s ∈ ["true", "True", "t", "1"] then some true
  else if s ∈ ["false", "False", "f", "0"] then some false
  else none

def attrValue (f : Field) : Except ReadError AttrValue :=
  match f.name with
  | "i" => do
    let s ← f.scalar
    match Number.parseInt64? s.toList with
    | some i => .ok (.int i)
    | none => f.fail (.invalidInteger s)
  | "f" => do
    match float? (← f.scalar).toList with
    | some x => .ok (.float x)
    | none => f.fail .invalidFloat
  | "b" => do
    match bool? (← f.scalar) with
    | some b => .ok (.bool b)
    | none => f.fail .invalidBool
  | "s" => f.string.map .string
  | "type" => f.elementType.map .type
  | _ => .ok .composite

/-- The default of an attribute is the first field of its message. -/
def default (f : Field) : Except ReadError (Option AttrValue) := do
  match ← f.message with
  | [] => return none
  | value :: _ => return some (← value.attrValue)

def addToAttr (a : AttrDef) (f : Field) : Except ReadError AttrDef :=
  match f.name with
  | "name" => do return { a with name := ← f.string }
  | "type" => do return { a with kind := ← f.string }
  | "default_value" => do return { a with default := ← f.default }
  | _ => .ok a

def attrDef (f : Field) : Except ReadError AttrDef := do (← f.message).foldlM addToAttr {}

def addToArg (a : ArgDef) (f : Field) : Except ReadError ArgDef :=
  match f.name with
  | "name" => do return { a with name := ← f.string }
  | "type" => do return { a with elementType := some (← f.elementType) }
  | "type_attr" => do return { a with typeAttr := ← f.text }
  | "number_attr" => do return { a with numberAttr := ← f.text }
  | "type_list_attr" => do return { a with typeListAttr := ← f.text }
  | _ => .ok a

def argDef (f : Field) : Except ReadError ArgDef := do (← f.message).foldlM addToArg {}

def addToOp (op : OpDef) (f : Field) : Except ReadError OpDef :=
  match f.name with
  | "name" => do return { op with name := ← f.string }
  | "input_arg" => do return { op with inputs := op.inputs ++ [← f.argDef] }
  | "output_arg" => do return { op with outputs := op.outputs ++ [← f.argDef] }
  | "attr" => do return { op with attrs := op.attrs ++ [← f.attrDef] }
  | "summary" => do return { op with summary := ← f.text }
  | "description" => do return { op with description := ← f.text }
  | _ => .ok op

/-- An operation, which must have a name. -/
def opDef (f : Field) : Except ReadError OpDef := do
  let op ← (← f.message).foldlM addToOp {}
  if op.name = "" then f.fail .namelessOp else return op

end Entry

/-- The place behind a text. A line feed at its end starts no line. -/
def endOf (s : List Char) : Pos :=
  let lines := Text.lines s
  ⟨max lines.length 1, (lines.getLast?.elim 0 List.length) + 1⟩

def fields (s : List Char) : Except Problem (List Field) := do
  fieldsOfTokens (endOf s) (← tokens s)

/-- The registry that a text spells: its fields `op`, the others being passed over. -/
def registry (text : String) : Except ReadError Registry := do
  let fields ← (fields text.toList).mapError .problem
  (fields.filter fun f => f.name == "op").mapM Entry.opDef

end OpStubs.TextFormat
