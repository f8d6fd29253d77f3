import OpStubs.Dictionary
import OpStubs.Text.Blank
import OpStubs.Text.Lines

namespace OpStubs

structure Documentation where
  body : String := ""
  args : Dictionary := .empty
  returns : String := ""
  deriving DecidableEq

namespace Documentation

def arg (d : Documentation) (name : String) : Option String := (d.args.find? name).bind fun s =>
  if s = "" then none else some s

inductive Part where
  | body
  | args
  | returns
  deriving DecidableEq, Repr

structure Entry where
  name : List Char
  fragments : List (List Char)
  deriving DecidableEq, Repr

structure Draft where
  part : Part := .body
  body : List (List Char) := []
  entries : List Entry := []
  returns : List (List Char) := []
  deriving DecidableEq, Repr

/-- Lines with no more blanks in front may be markers or start an entry. -/
def shallowIndent : Nat := 4

/-- The part of the text that a marker line opens. -/
def marker? (line : List Char) : Option Part :=
  if Text.indent line ≤ shallowIndent then
    if Text.trim line = "Args:".toList then some .args
    else if Text.trim line = "Returns:".toList then some .returns
    else none
  else none

/-- The one fragment of a text, or none of a blank text. -/
def fragment (s : List Char) : List (List Char) :=
  if Text.trim s = [] then [] else [Text.trim s]

/-- The entry that a line starts: a name, a colon and the beginning of its description. -/
def entry? (line : List Char) : Option Entry :=
  if Text.indent line ≤ shallowIndent then
    (Text.cut ':' (Text.trim line)).map fun (name, rest) => ⟨Text.trim name, fragment rest⟩
  else none

namespace Draft

/-- Adds a line that is not blank where entries stand. A line that starts none continues the last
one; before the first it is body text. -/
def addToArgs (d : Draft) (line : List Char) : Draft :=
  match entry? line with
  | some e => { d with entries := e :: d.entries }
  | none =>
    match d.entries with
    | [] => { d with body := d.body ++ [Text.trim line] }
    | e :: rest =>
      let e := { e with fragments := e.fragments ++ [Text.trim line] }
      { d with entries := e :: rest }

def addLine (d : Draft) (line : List Char) : Draft :=
  match d.part with
  | .body => { d with body := d.body ++ [line] }
  | .args => if Text.trim line = [] then d else d.addToArgs line
  | .returns =>
    if Text.trim line = [] then d else { d with returns := d.returns ++ [Text.trim line] }

def add (d : Draft) (line : List Char) : Draft :=
  match marker? line with
  | some part => { d with part }
  | none => d.addLine line

def finish (d : Draft) : Documentation where
  body := String.ofList (Text.joinWith ['\n'] d.body)
  args := .ofList <| d.entries.reverse.map fun e =>
    (String.ofList e.name, String.ofList (Text.joinWith [' '] e.fragments))
  returns := String.ofList (Text.joinWith [' '] d.returns)

end Draft

/-- Reads a text line by line, its parts being opened by markers. -/
def ofLines (lines : List (List Char)) : Documentation := (lines.foldl Draft.add {}).finish

def parse (text : String) : Documentation := ofLines (Text.pieces '\n' text.toList)

def ofText? : Option String → Documentation
  | none => ⟨"", .empty, ""⟩
  | some text => parse text

end Documentation

end OpStubs
