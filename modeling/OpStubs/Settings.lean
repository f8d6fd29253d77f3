import OpStubs.Path
import OpStubs.Toml

namespace OpStubs

/-- What a file or the command line says about a run. -/
structure Config where
  registry : Option String := none
  docs : Option String := none
  names : Option String := none
  output : Option String := none
  privateStart : Option String := none
  deriving DecidableEq, Repr

structure Settings where
  registry : String
  docs : Option String := none
  names : Option String := none
  output : String
  /-- Names of operations that start with it are private. -/
  privateStart : String
  deriving DecidableEq, Repr

inductive MissingSetting where
  | registry
  | output
  deriving DecidableEq, Repr

def MissingSetting.message : MissingSetting → String
  | registry => "No registry given: pass --registry or set \x60registry\x60 in the config file"
  | output => "No output given: pass --output or set \x60output\x60 in the config file"

namespace Config

/-- The file that a run looks for if none is named. -/
def defaultFile : String := "tfl-opgen.toml"

def defaultPrivateStart : String := "_"

/-- Sets one key. A key is set once. -/
def set (c : Config) (key value : String) : Option Config :=
  let once (old : Option String) (new : Config) := if old.isNone then some new else none
  match key with
  | "registry" => once c.registry { c with registry := some value }
  | "docs" => once c.docs { c with docs := some value }
  | "names" => once c.names { c with names := some value }
  | "output" => once c.output { c with output := some value }
  | "private_prefix" => once c.privateStart { c with privateStart := some value }
  | _ => none

def ofToml? (text : String) : Option Config := do
  (← Toml.strings? text).foldlM (fun c (key, value) => c.set key value) {}

/-- The config with its relative paths starting at the folder `base`. -/
def relativeTo (c : Config) (base : String) : Config :=
  { c with
    registry := c.registry.map (Path.join base)
    docs := c.docs.map (Path.join base)
    names := c.names.map (Path.join base)
    output := c.output.map (Path.join base) }

def override (file overrides : Config) : Config where
  registry := overrides.registry <|> file.registry
  docs := overrides.docs <|> file.docs
  names := overrides.names <|> file.names
  output := overrides.output <|> file.output
  privateStart := overrides.privateStart <|> file.privateStart

def settings (c : Config) : Except MissingSetting Settings :=
  match c.registry, c.output with
  | none, _ => .error .registry
  | some _, none => .error .output
  | some registry, some output => .ok {
      registry
      output
      docs := c.docs
      names := c.names
      privateStart := c.privateStart.getD defaultPrivateStart }

end Config

end OpStubs
