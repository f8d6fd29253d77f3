import OpStubs.Json.Numeral
import OpStubs.Json.Tree

namespace OpStubs.Json

/-- How many arrays and objects may be open inside one another. -/
def depthLimit : Nat := 127

/-- Fails as reading does where a list, an object or a document breaks off. -/
def checkRead : Option Break → Except Fault Unit
  | none => .ok ()
  | some b => .error b.read

def checkPass : Option Break → Except Fault Unit
  | none => .ok ()
  | some b => .error b.pass

mutual

/-- Passes over a value of any depth. Its numbers may have any size and its strings may name half
characters. -/
def passOver : Tree → Except Fault Unit
  | .array items ending => do
    passItems items
    checkPass ending
  | .object members ending => do
    passMembers members
    checkPass ending
  | .broken b => .error b.pass
  | _ => .ok ()

def passItems : List Tree → Except Fault Unit
  | [] => .ok ()
  | t :: rest => do
    passOver t
    passItems rest

def passMembers : List (Except Fault (List Char) × Tree) → Except Fault Unit
  | [] => .ok ()
  | (_, t) :: rest => do
    passOver t
    passMembers rest

end

mutual

/-- Reads a value of any shape. `room` tells how many more arrays and objects may be opened. -/
def readAny (room : Nat) : Tree → Except Fault Unit
  | .number n => n.value.map fun _ => ()
  | .string content => content.map fun _ => ()
  | .array items ending =>
    if room = 0 then .error .malformed
    else do
      readItems (room - 1) items
      checkRead ending
  | .object members ending =>
    if room = 0 then .error .malformed
    else do
      readMembers (room - 1) members
      checkRead ending
  | .broken b => .error b.read
  | _ => .ok ()

def readItems (room : Nat) : List Tree → Except Fault Unit
  | [] => .ok ()
  | t :: rest => do
    readAny room t
    readItems room rest

def readMembers (room : Nat) : List (Except Fault (List Char) × Tree) → Except Fault Unit
  | [] => .ok ()
  | (key, t) :: rest => do
    let _ ← key
    readAny room t
    readMembers room rest

end

/-- A value of another shape than asked for. A number or a string is read before it is refused. -/
def misfit {α : Type} : Tree → Except Fault α
  | .number n => n.value.bind fun _ => .error .misfit
  | .string content => content.bind fun _ => .error .misfit
  | .broken b => .error b.read
  | _ => .error .misfit

/-- Reads a value where `room` more arrays and objects may be opened. -/
abbrev Reader (α : Type) := (room : Nat) → Tree → Except Fault α

namespace Reader

def string : Reader String
  | _, .string content => content.map String.ofList
  | _, t => misfit t

def bool : Reader Bool
  | _, .bool b => .ok b
  | _, t => misfit t

def any : Reader Unit := readAny

def optional {α : Type} (r : Reader α) : Reader (Option α)
  | _, .null => .ok none
  | room, t => (r room t).map some

def array {α : Type} (r : Reader α) : Reader (List α)
  | room, .array items ending =>
    if room = 0 then .error .malformed
    else do
      let values ← items.mapM (r (room - 1))
      checkRead ending
      return values
  | _, t => misfit t

def numberOrString : Reader (Num ⊕ String)
  | _, .number n => n.value.map .inl
  | _, .string content => content.map fun s => .inr (String.ofList s)
  | room, t => (readAny room t).bind fun _ => .error .misfit

end Reader

structure FieldSpec where
  name : String
  /-- Another spelling of the name. -/
  alias? : Option String := none
  /-- Whether a record that is written as an array may end before it. -/
  mayEnd : Bool := false
  deriving Repr

def FieldSpec.accepts (f : FieldSpec) (key : String) : Bool := f.name == key || f.alias? == some key

/-- A record: its fields in order, and how the value of a field by that name is taken over. -/
structure Record (α : Type) where
  fields : List FieldSpec
  take : α → String → Reader α

namespace Record

variable {α : Type}

/-- Reads members in order. A field is taken once, what is no field is passed over. -/
def readMembers (rec : Record α) (room : Nat) :
    List Member → List String → α → Except Fault (α × List String)
  | [], seen, a => .ok (a, seen)
  | (key, t) :: rest, seen, a => do
    let name := String.ofList (← key)
    match rec.fields.find? fun f => f.accepts name with
    | none =>
      passOver t
      rec.readMembers room rest seen a
    | some f =>
      if seen.contains f.name then throw .misfit
      rec.readMembers room rest (f.name :: seen) (← rec.take a f.name room t)

/-- Reads the fields in order from items. The record may not go on behind its last field. -/
def readItems (rec : Record α) (room : Nat) (ending : Option Break) :
    List FieldSpec → List Tree → α → Except Fault α
  | [], [], a => do
    checkRead ending
    return a
  | [], _ :: _, _ => .error .malformed
  | f :: fields, [], a => do
    checkRead ending
    if f.mayEnd then rec.readItems room ending fields [] a else throw .misfit
  | f :: fields, t :: rest, a => do
    rec.readItems room ending fields rest (← rec.take a f.name room t)

/-- Reads a record from an object or from an array of its fields. `required` are the fields that an
object must have. -/
def read (rec : Record α) (required : List String) (empty : α) : Reader α
  | room, .object members ending =>
    if room = 0 then .error .malformed
    else do
      let (a, seen) ← rec.readMembers (room - 1) members [] empty
      checkRead ending
      if required.all seen.contains then return a else throw .misfit
  | room, .array items ending =>
    if room = 0 then .error .malformed
    else rec.readItems (room - 1) ending rec.fields items empty
  | _, t => misfit t

end Record

/-- Reads a whole text. Nothing may come behind the document. -/
def parse {α : Type} (r : Reader α) (text : String) : Except Fault α := do
  let (tree, trailing) := document text.toList
  let a ← r depthLimit tree
  if trailing then throw .malformed else return a

end OpStubs.Json
