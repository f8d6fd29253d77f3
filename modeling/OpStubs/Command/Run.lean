import OpStubs.Command.Arguments
import OpStubs.Command.Load
import OpStubs.Diff.Print
import OpStubs.Yaml.Mapping

namespace OpStubs.Command

variable {m : Type → Type} [Monad m] [Files m]

structure Report where
  status : Nat
  stdout : String := ""
  stderr : String := ""
  deriving DecidableEq, Repr

def prepare [YamlReader] (o : Options) : ExceptT Failure m (Settings × Generated) := do
  let file ← discoverConfig o.config
  let settings ← ExceptT.mk (pure ((file.override o.overrides).settings.mapError .missing))
  let registry ← loadRegistry settings.registry
  let request ← loadRequest settings
  let generated ← ExceptT.mk (pure ((generate registry request).mapError .notGenerated))
  return (settings, generated)

/-- The text of the output file; none if there is no such file. -/
def readOutput (path : String) : ExceptT Failure m String := do
  if ← (Files.isThere path : m Bool) then readInput .output path else return ""

def check (path code : String) : ExceptT Failure m Report := do
  let existing ← readOutput path
  if existing = code then return { status := 0, stdout := path ++ " is up to date\n" }
  return {
    status := 1
    stdout := Diff.print path existing code
    stderr := (Failure.outOfDate path).report }

def writeOutput (path : String) (g : Generated) : ExceptT Failure m Report := do
  match Path.parent? path with
  | some folder => orFail .noFolder (Files.makeFolder folder)
  | none => pure ()
  orFail (.unwritable path) (Files.write path g.code.toUTF8)
  return {
    status := 0
    stdout := "generated " ++ toString g.functions.length ++ " operations -> " ++ path ++ "\n" }

def runGenerate [YamlReader] (o : Options) : ExceptT Failure m Report := do
  let (settings, generated) ← prepare o
  if o.check then check settings.output generated.code else writeOutput settings.output generated

def usage : String :=
  "Usage: tfl-opgen generate [OPTIONS]\n\n" ++
  "Options:\n" ++
  "      --config <FILE>            Config file [default: ./tfl-opgen.toml when present]\n" ++
  "      --registry <FILE>          Operation registry (.pbtxt, .txt or .json)\n" ++
  "      --docs <PATH>              Docs directory of <Op>.txt files, or a .json/.yaml map\n" ++
  "      --names <FILE>             Operation names, one per line [default: the registry's]\n" ++
  "  -o, --output <FILE>            Generated module path\n" ++
  "      --private-prefix <PREFIX>  Prefix marking private operation names [default: _]\n" ++
  "      --check                    Compare with the existing output instead of writing it\n" ++
  "  -v, --verbose                  Log at debug level\n" ++
  "  -h, --help                     Print help\n"

def version : String := "tfl-opgen 0.2.0\n"

/-- Runs the command line: 0 stands for success, 1 for a failure and 2 for wrong use. -/
def run [YamlReader] (args : List String) : m Report := do
  match Invocation.ofArguments args with
  | .help => return { status := 0, stdout := usage }
  | .version => return { status := 0, stdout := version }
  | .misuse => return { status := 2, stderr := usage }
  | .generate o =>
    match ← (runGenerate o).run with
    | .ok report => return report
    | .error failure => return { status := 1, stderr := failure.report }

end OpStubs.Command
