import OpStubs.Text.Lines

namespace OpStubs.Path

/-- The names of a path between its slashes. The first one of an absolute path is empty. -/
def segments (path : String) : List (List Char) := Text.pieces '/' path.toList

def isIdle (segment : List Char) : Bool := segment == [] || segment == ['.']

def isAbsolute (path : String) : Bool := path.toList.head? == some '/'

def join (base path : String) : String :=
  if isAbsolute path ∨ base = "" then path
  else if base.toList.getLast? = some '/' then base ++ path
  else base ++ "/" ++ path

/-- The first segment of a path, and the others from the last one that is not idle. -/
def backward (path : String) : List Char × List (List Char) :=
  match segments path with
  | [] => ([], [])
  | first :: rest => (first, rest.reverse.dropWhile isIdle)

/-- The path without its last name. Neither the empty path nor a root has one. -/
def parent? (path : String) : Option String :=
  match backward path with
  | ([], []) => none
  | (_, []) => some ""
  | (first, _ :: outer) =>
    match first, outer.dropWhile isIdle with
    | [], [] => some "/"
    | first, outer => some (String.ofList (Text.joinWith ['/'] (first :: outer.reverse)))

/-- The last name of a path, unless it leads upwards. -/
def name? (path : String) : Option (List Char) :=
  let (first, rest) := backward path
  let last := rest.headD first
  if isIdle last ∨ last = ['.', '.'] then none else some last

/-- A name up to its last dot, and what follows the dot. A dot at the start does not count. -/
def splitName (name : List Char) : List Char × Option (List Char) :=
  match name.reverse.dropWhile (· ≠ '.') with
  | [] | [_] => (name, none)
  | _ :: before => (before.reverse, some (name.reverse.takeWhile (· ≠ '.')).reverse)

def stem? (path : String) : Option String := (name? path).map fun n => String.ofList (splitName n).1

/-- The extension in lower case. -/
def extension? (path : String) : Option String :=
  ((name? path).bind fun n => (splitName n).2).map fun e => String.ofList (e.map Char.toLower)

theorem join_of_isAbsolute {base path : String} (h : isAbsolute path = true) :
    join base path = path := by
  simp [join, h]

end OpStubs.Path
