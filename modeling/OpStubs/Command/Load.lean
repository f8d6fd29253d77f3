import OpStubs.Command.Failure
import OpStubs.Json.Dictionary
import OpStubs.Text.Blank

namespace OpStubs.Command

variable {m : Type → Type} [Monad m] [Files m]

def orFail {α : Type} (failure : FileError → Failure) (x : m (Except FileError α)) :
    ExceptT Failure m α := ExceptT.mk do return (← x).mapError failure

def readInput (input : Input) (path : String) : ExceptT Failure m String :=
  orFail (.unreadable input path) (Files.readText path)

/-- Reads a config file. Its relative paths start at its folder. -/
def loadConfig (path : String) : ExceptT Failure m Config := do
  match Config.ofToml? (← readInput .config path) with
  | some c => return c.relativeTo ((Path.parent? path).getD "")
  | none => throw (.badConfig path)

/-- The config file that is named, or else the default one if it is there. -/
def discoverConfig : Option String → ExceptT Failure m Config
  | some path => loadConfig path
  | none => do
    let path := Config.defaultFile
    if ← (Files.isFile path : m Bool) then loadConfig path else return {}

def registryFormat? (path : String) : Option RegistryFormat :=
  match Path.extension? path with
  | some "pbtxt" => some .text
  | some "txt" => some .text
  | some "json" => some .json
  | _ => none

def loadRegistry (path : String) : ExceptT Failure m Registry := do
  let text ← readInput .registry path
  match registryFormat? path with
  | none => throw (.unknownRegistryFormat path)
  | some format => ExceptT.mk (pure ((Registry.read format text).mapError (.badRegistry path)))

/-- The names that a text lists, one on each line. Blank lines and comments are passed over. -/
def namesOf (text : String) : List String :=
  (((Text.lines text.toList).map Text.trim).filter fun l =>
    !l.isEmpty && l.head? != some '#').map String.ofList

def loadNames (path : String) : ExceptT Failure m (List String) := do
  return namesOf (← readInput .names path)

/-- The operation whose docstring a file of a docs folder holds: its name without extension. Other
files than `.txt` hold none. -/
def docKey? (path : String) : Option String :=
  if Path.extension? path = some "txt" then Path.stem? path else none

def docFiles (folder : String) (names : List String) : List (String × String) :=
  names.filterMap fun name =>
    let path := Path.join folder name
    (docKey? path).map fun key => (key, path)

def loadDocFiles (files : List (String × String)) : ExceptT Failure m (List (String × String)) :=
  files.mapM fun (key, path) => do return (key, ← readInput .docs path)

def docsOf [YamlReader] (extension : Option String) (text : String) : Except DocsError Dictionary :=
  match extension with
  | some "json" => (Json.dictionary text).mapError fun _ => .notJson
  | some "yaml" => (YamlReader.dictionary? text).elim (.error .notYaml) .ok
  | some "yml" => (YamlReader.dictionary? text).elim (.error .notYaml) .ok
  | _ => .error .unknownFormat

def loadDocs [YamlReader] (path : String) : ExceptT Failure m Dictionary := do
  if ← (Files.isFolder path : m Bool) then
    let names ← orFail (.unlistableDocs path) (Files.list path)
    return .ofList (← loadDocFiles (docFiles path names))
  let text ← readInput .docs path
  ExceptT.mk (pure ((docsOf (Path.extension? path) text).mapError (.badDocs path)))

def loadRequest [YamlReader] (s : Settings) : ExceptT Failure m Request := do
  let names ← match s.names with
    | some path => some <$> loadNames path
    | none => pure none
  let docs ← match s.docs with
    | some path => loadDocs path
    | none => pure .empty
  return { names, docs, privateStart := s.privateStart }

end OpStubs.Command
