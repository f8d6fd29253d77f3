namespace OpStubs

inductive FileError where
  | missing
  | notFolder
  | isFolder
  | exists
  /-- The content is no UTF-8. -/
  | notText
  | other (text : String)
  deriving DecidableEq, Repr

def FileError.message : FileError → String
  | missing => "No such file or directory (os error 2)"
  | notFolder => "Not a directory (os error 20)"
  | isFolder => "Is a directory (os error 21)"
  | «exists» => "File exists (os error 17)"
  | notText => "stream did not contain valid UTF-8"
  | other text => text

/-- What a run does with files, each named by its path. -/
class Files (m : Type → Type) where
  read : String → m (Except FileError ByteArray)
  isFile : String → m Bool
  isFolder : String → m Bool
  /-- The names of the files in a folder, in any order, each once. -/
  list : String → m (Except FileError (List String))
  /-- Makes a folder and those around it, as far as they are missing. -/
  makeFolder : String → m (Except FileError Unit)
  /-- Makes a file or replaces its content. -/
  write : String → ByteArray → m (Except FileError Unit)

namespace Files

variable {m : Type → Type} [Monad m] [Files m]

def readText (path : String) : m (Except FileError String) := do
  match ← read path with
  | .error e => return .error e
  | .ok bytes =>
    match String.fromUTF8? bytes with
    | some text => return .ok text
    | none => return .error .notText

def isThere (path : String) : m Bool := do
  if ← isFile path then return true else isFolder path

end Files

end OpStubs
