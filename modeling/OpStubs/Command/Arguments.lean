import OpStubs.Settings

namespace OpStubs.Command

/-- An option that takes a value. -/
inductive Key where
  | config
  | registry
  | docs
  | names
  | output
  | privateStart
  deriving DecidableEq, Repr

inductive Switch where
  | check
  | verbose
  deriving DecidableEq, Repr

inductive Item where
  | value (key : Key) (text : String)
  | switch (s : Switch)
  | help
  /-- Something that no run understands. -/
  | wrong
  deriving DecidableEq, Repr

inductive Meaning where
  | key (k : Key)
  | switch (s : Switch)
  | help
  deriving DecidableEq, Repr

def meaning? (name : String) : Option Meaning :=
  match name with
  | "config" => some (.key .config)
  | "registry" => some (.key .registry)
  | "docs" => some (.key .docs)
  | "names" => some (.key .names)
  | "output" => some (.key .output)
  | "private-prefix" => some (.key .privateStart)
  | "check" => some (.switch .check)
  | "verbose" => some (.switch .verbose)
  | "help" => some .help
  | _ => none

abbrev Said := List Item × Option Key

/-- The rest of an argument behind two dashes: a name, and perhaps a value behind an equals sign. -/
def longOption (s : List Char) : Said :=
  let (name, value) := match Text.cut '=' s with
    | some (name, value) => (name, some (String.ofList value))
    | none => (s, none)
  match meaning? (String.ofList name), value with
  | some (.key k), some v => ([.value k v], none)
  | some (.key k), none => ([], some k)
  | some (.switch s), none => ([.switch s], none)
  | some .help, none => ([.help], none)
  | _, _ => ([.wrong], none)

/-- The rest of an argument behind one dash: letters that each are an option. The value of an option
is what follows its letter, perhaps behind an equals sign. -/
def shortOptions : List Char → Said
  | [] => ([], none)
  | c :: r =>
    if c = 'v' then
      let (items, key) := shortOptions r
      (.switch .verbose :: items, key)
    else if c = 'h' then ([.help], none)
    else if c = 'o' then
      match r with
      | [] => ([], some .output)
      | d :: r' => ([.value .output (String.ofList (if d = '=' then r' else r))], none)
    else ([.wrong], none)

def said (arg : String) : Said :=
  match arg.toList with
  | '-' :: '-' :: s => longOption s
  | '-' :: c :: s => shortOptions (c :: s)
  | _ => ([.wrong], none)

/-- Whether an argument can be no value by its first character. A dash alone can be one. -/
def isOption (arg : String) : Bool := arg.toList.head? == some '-' && arg != "-"

/-- What the arguments of a run say. Behind two dashes alone nothing may come. -/
def items : List String → List Item
  | [] => []
  | arg :: rest =>
    if arg = "--" then if rest.isEmpty then [] else [.wrong]
    else
      match said arg with
      | (found, none) => found ++ items rest
      | (found, some key) =>
        match rest with
        | [] => found ++ [.wrong]
        | value :: rest =>
          if isOption value then found ++ [.wrong] else found ++ .value key value :: items rest

structure Options where
  config : Option String := none
  /-- What the arguments say in place of a config file. -/
  overrides : Config := {}
  check : Bool := false
  verbose : Bool := false
  deriving DecidableEq, Repr

inductive Refusal where
  | help
  | misuse
  deriving DecidableEq, Repr

namespace Options

def get (o : Options) : Key → Option String
  | .config => o.config
  | .registry => o.overrides.registry
  | .docs => o.overrides.docs
  | .names => o.overrides.names
  | .output => o.overrides.output
  | .privateStart => o.overrides.privateStart

def set (o : Options) (key : Key) (value : String) : Options :=
  match key with
  | .config => { o with config := some value }
  | .registry => { o with overrides := { o.overrides with registry := some value } }
  | .docs => { o with overrides := { o.overrides with docs := some value } }
  | .names => { o with overrides := { o.overrides with names := some value } }
  | .output => { o with overrides := { o.overrides with output := some value } }
  | .privateStart => { o with overrides := { o.overrides with privateStart := some value } }

/-- Takes over one thing. None is said twice, and a path is not empty. -/
def take (o : Options) : Item → Except Refusal Options
  | .value key text =>
    if (o.get key).isSome ∨ (text = "" ∧ key ≠ .privateStart) then .error .misuse
    else .ok (o.set key text)
  | .switch .check => if o.check then .error .misuse else .ok { o with check := true }
  | .switch .verbose => if o.verbose then .error .misuse else .ok { o with verbose := true }
  | .help => .error .help
  | .wrong => .error .misuse

/-- The options that arguments give. The first thing that is no option decides. -/
def ofArguments (args : List String) : Except Refusal Options := (items args).foldlM take {}

end Options

inductive Invocation where
  | generate (o : Options)
  | help
  | version
  | misuse
  deriving DecidableEq, Repr

namespace Invocation

def ofArguments : List String → Invocation
  | [] => help
  | "generate" :: rest =>
    match Options.ofArguments rest with
    | .ok o => generate o
    | .error .help => help
    | .error .misuse => misuse
  | "help" :: rest => if rest ∈ [[], ["generate"], ["help"]] then help else misuse
  | "--" :: rest => if rest.isEmpty then help else misuse
  | "--help" :: _ => help
  | "--version" :: _ => version
  | arg :: _ =>
    match arg.toList with
    | '-' :: 'h' :: _ => help
    | '-' :: 'V' :: _ => version
    | _ => misuse

end Invocation

end OpStubs.Command
