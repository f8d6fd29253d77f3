import OpStubs.Registry.Json
import OpStubs.Registry.Text

namespace OpStubs

inductive RegistryFormat where
  /-- The text format of protocol buffers. -/
  | text
  | json
  deriving DecidableEq, Repr

inductive RegistryError where
  | problem (line column : Nat) (message : String)
  | json (f : Json.Fault)
  | unknownElementType (name : String)
  deriving DecidableEq, Repr

namespace RegistryError

def ofText : TextFormat.ReadError → RegistryError
  | .problem p => problem p.pos.line p.pos.column p.cause.message
  | .unknownElementType name => unknownElementType name

def ofJson : Json.ReadError → RegistryError
  | .fault f => json f
  | .unknownElementType name => unknownElementType name
  | .invalidDefault text attr =>
    problem 0 0 ("invalid default '" ++ text ++ "' for attribute '" ++ attr ++ "'")

def faultMessage : Json.Fault → String
  | .malformed => "the text is not JSON"
  | .truncated => "the text ends inside a value"
  | .misfit => "the document is no registry"

def message : RegistryError → String
  | problem line column message =>
    "registry parse error at " ++ toString line ++ ":" ++ toString column ++ ": " ++ message
  | json f => "registry JSON error: " ++ faultMessage f
  | unknownElementType name => "unknown data type '" ++ name ++ "'"

end RegistryError

def Registry.read : RegistryFormat → String → Except RegistryError Registry
  | .text, s => (TextFormat.registry s).mapError .ofText
  | .json, s => (Json.registry s).mapError .ofJson

end OpStubs
