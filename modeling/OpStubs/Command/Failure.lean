import OpStubs.Files
import OpStubs.Generate
import OpStubs.Registry.Read
import OpStubs.Settings

namespace OpStubs.Command

inductive Input where
  | config
  | registry
  | names
  | docs
  | output
  deriving DecidableEq, Repr

def Input.name : Input → String
  | config => "config file"
  | registry => "registry"
  | names => "names file"
  | docs => "docs file"
  | output => "output"

inductive DocsError where
  | unknownFormat
  | notJson
  | notYaml
  deriving DecidableEq, Repr

def DocsError.message : DocsError → String
  | unknownFormat => "expected a directory, .json or .yaml"
  | notJson => "expected a JSON object of strings"
  | notYaml => "expected a YAML mapping of strings"

inductive Failure where
  | unreadable (input : Input) (path : String) (e : FileError)
  | badConfig (path : String)
  | missing (setting : MissingSetting)
  | unknownRegistryFormat (path : String)
  | badRegistry (path : String) (e : RegistryError)
  | unlistableDocs (path : String) (e : FileError)
  | badDocs (path : String) (e : DocsError)
  | notGenerated (e : GenerateError)
  | outOfDate (path : String)
  | noFolder (e : FileError)
  | unwritable (path : String) (e : FileError)
  deriving DecidableEq, Repr

def Failure.message : Failure → String
  | unreadable input path e => "Failed to read " ++ input.name ++ " " ++ path ++ ": " ++ e.message
  | badConfig path =>
    "Failed to parse config file " ++ path ++ ": expected strings under known keys, each key once"
  | missing setting => setting.message
  | unknownRegistryFormat path =>
    "Unsupported registry format: " ++ path ++ " (expected .pbtxt, .txt or .json)"
  | badRegistry path e => "Failed to load registry " ++ path ++ ": " ++ e.message
  | unlistableDocs path e => "Failed to scan docs directory " ++ path ++ ": " ++ e.message
  | badDocs path e => "Failed to load docs " ++ path ++ ": " ++ e.message
  | notGenerated e => e.message
  | outOfDate path => path ++ " is out of date"
  | noFolder e => "Failed to create output directory: " ++ e.message
  | unwritable path e => "Failed to write " ++ path ++ ": " ++ e.message

/-- The operation that stands for an error. -/
def operation : GenerateError → String
  | .lookup (.unresolved name) => name
  | .lookup (.duplicate name) => name
  | .compile op _ => op
  | .collision _ _ second => second

def padEnd (width : Nat) (s : String) : String :=
  s ++ String.ofList (List.replicate (width - s.length) ' ')

def reportLine (e : GenerateError) : String := padEnd 50 (operation e) ++ "  [Failed]\n"

def Failure.report (f : Failure) : String :=
  match f with
  | notGenerated e => reportLine e ++ f.message ++ "\n"
  | _ => f.message ++ "\n"

end OpStubs.Command
