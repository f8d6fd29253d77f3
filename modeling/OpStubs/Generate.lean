import OpStubs.Lua.Print
import OpStubs.Operation.Compile
import OpStubs.Stub

namespace OpStubs

/-- What to generate, besides the registry. -/
structure Request where
  /-- The operations; all of the registry if not given. -/
  names : Option (List String) := none
  docs : Dictionary := .empty
  /-- Names that start with it are left out, unless it is empty. -/
  privateStart : String := "_"

structure Generated where
  code : String
  functions : List String
  deriving DecidableEq, Repr

inductive GenerateError where
  | lookup (e : LookupError)
  | compile (op : String) (e : Operation.UnsupportedKind)
  /-- Two operations have the same function. -/
  | collision (function first second : String)
  deriving DecidableEq, Repr

def GenerateError.message : GenerateError → String
  | lookup e => e.message
  | compile op e => "failed to compile operation '" ++ op ++ "': " ++ e.message
  | collision function first second =>
    "operations '" ++ first ++ "' and '" ++ second ++ "' both map to function '" ++ function ++ "'"

namespace Request

def isPrivate (q : Request) (name : String) : Bool :=
  q.privateStart != "" && q.privateStart.toList.isPrefixOf name.toList

/-- Inserts a name into sorted names, unless it is there. -/
def insertName (name : String) : List String → List String
  | [] => [name]
  | n :: rest =>
    if name < n then name :: n :: rest
    else if name = n then n :: rest
    else n :: insertName name rest

/-- The names of the operations to generate, sorted, each once. -/
def select (q : Request) (r : Registry) : List String :=
  ((q.names.getD (r.map (·.name))).filter fun n => !q.isPrivate n).foldr insertName []

/-- The docstring given for an operation, else what its registry entry says. -/
def docText (q : Request) (op : OpDef) : Option String :=
  match q.docs.find? op.name, op.summary, op.description with
  | some text, _, _ => some text
  | none, some summary, some description => some (summary ++ "\n\n" ++ description)
  | none, some text, none => some text
  | none, none, text => text

def compileName (q : Request) (r : Registry) (name : String) : Except GenerateError Operation := do
  let op ← (r.find name).mapError .lookup
  (Operation.compile op (.ofText? (q.docText op))).mapError (.compile op.name)

def addName (q : Request) (r : Registry) (done : List Operation) (name : String) :
    Except GenerateError (List Operation) := do
  let op ← q.compileName r name
  match done.find? fun d => d.function == op.function with
  | some first => throw (.collision op.function first.name name)
  | none => return done ++ [op]

end Request

/-- The module of the selected operations, or the first problem with one of them. -/
def generate (r : Registry) (q : Request) : Except GenerateError Generated := do
  let ops ← (q.select r).foldlM (q.addName r) []
  return ⟨(Stub.moduleOf ops).print, ops.map (·.function)⟩

end OpStubs
