import OpStubs.Files
import OpStubs.Path

namespace OpStubs

/-- The names on the way from the root to a file or folder. -/
abbrev Location := List String

inductive Entry where
  | folder
  | file (content : ByteArray)

/-- Files and folders held in memory. The root is a folder that is always there. -/
structure Disk where
  entries : List (Location × Entry) := []
  /-- Where relative paths start. -/
  workFolder : Location := []

namespace Disk

def get? (d : Disk) (loc : Location) : Option Entry :=
  if loc = [] then some .folder else d.entries.lookup loc

def isFolderAt (d : Disk) (loc : Location) : Bool :=
  match d.get? loc with
  | some .folder => true
  | _ => false

/-- Puts an entry in the place of the one that is there, or behind the others. -/
def putEntry (loc : Location) (e : Entry) : List (Location × Entry) → List (Location × Entry)
  | [] => [(loc, e)]
  | (l, old) :: rest => if l = loc then (loc, e) :: rest else (l, old) :: putEntry loc e rest

def put (d : Disk) (loc : Location) (e : Entry) : Disk :=
  { d with entries := putEntry loc e d.entries }

theorem lookup_putEntry (loc other : Location) (e : Entry) (entries : List (Location × Entry)) :
    (putEntry loc e entries).lookup other =
      if other = loc then some e else entries.lookup other := by
  induction entries with
  | nil =>
    by_cases h : other = loc
    · simp [putEntry, h]
    · have hb : (other == loc) = false := by simp [h]
      simp [putEntry, List.lookup_cons, hb, h]
  | cons x rest ih =>
    obtain ⟨l, old⟩ := x
    rw [putEntry]
    by_cases hl : l = loc
    · subst hl
      by_cases h : other = l
      · simp [h]
      · have hb : (other == l) = false := by simp [h]
        simp [List.lookup_cons, h, hb]
    · by_cases ho : other = l
      · simp [ho, hl]
      · have hb : (other == l) = false := by simp [ho]
        simp [List.lookup_cons, hl, hb, ih]

theorem get?_put (d : Disk) {loc : Location} (e : Entry) (other : Location) (h : loc ≠ []) :
    (d.put loc e).get? other = if other = loc then some e else d.get? other := by
  unfold get? put
  by_cases ho : other = []
  · simp [ho, h.symm]
  · simp [ho, lookup_putEntry]

/-- Where some segments lead from a folder. Each but the last must lead to a folder, and the last
too if it is idle or leads upwards. -/
def walk (d : Disk) (loc : Location) : List (List Char) → Except FileError Location
  | [] => .ok loc
  | s :: rest =>
    match d.get? loc with
    | none => .error .missing
    | some (.file _) => .error .notFolder
    | some .folder =>
      if Path.isIdle s then d.walk loc rest
      else if s = ['.', '.'] then d.walk loc.dropLast rest
      else d.walk (loc ++ [String.ofList s]) rest

def origin (d : Disk) (path : String) : Location :=
  if Path.isAbsolute path then [] else d.workFolder

/-- Where a path leads. It may be that nothing is there yet. -/
def locate (d : Disk) (path : String) : Except FileError Location :=
  if path = "" then .error .missing else d.walk (d.origin path) (Path.segments path)

def find (d : Disk) (loc : Location) : Except FileError Entry :=
  match d.get? loc with
  | some e => .ok e
  | none => .error .missing

def read (d : Disk) (path : String) : Except FileError ByteArray := do
  match ← d.find (← d.locate path) with
  | .file content => return content
  | .folder => throw .isFolder

def isFile (d : Disk) (path : String) : Bool := (d.read path).isOk

def isFolder (d : Disk) (path : String) : Bool :=
  match d.locate path with
  | .ok loc => d.isFolderAt loc
  | .error _ => false

def fileIn? (loc : Location) : Location × Entry → Option String
  | (l, .file _) => if l.dropLast = loc then l.getLast? else none
  | (_, .folder) => none

def list (d : Disk) (path : String) : Except FileError (List String) := do
  let loc ← d.locate path
  match ← d.find loc with
  | .folder => return d.entries.filterMap (fileIn? loc)
  | .file _ => throw .notFolder

/-- Makes a folder where some segments lead from `start`. -/
def makeOne (d : Disk) (start : Location) (segments : List (List Char)) :
    Except FileError Disk := do
  let loc ← d.walk start segments
  if (d.get? loc).isSome then throw .exists else return d.put loc .folder

def hasFolder (d : Disk) (start : Location) (segments : List (List Char)) : Bool :=
  match d.walk start segments with
  | .ok loc => d.isFolderAt loc
  | .error _ => false

/-- Makes a folder where some segments, the last one first, lead from `start`. Folders on the way
are made if something is missing there, and stay even if that does not help. -/
def makeFolders (d : Disk) (start : Location) : List (List Char) → Except FileError Unit × Disk
  | [] => (.ok (), d)
  | s :: outer =>
    let segments := (s :: outer).reverse
    let settle (d : Disk) : Except FileError Disk → Except FileError Unit × Disk
      | .ok made => (.ok (), made)
      | .error e => (if d.hasFolder start segments then .ok () else .error e, d)
    match d.makeOne start segments with
    | .error .missing =>
      match d.makeFolders start outer with
      | (.ok (), d) => settle d (d.makeOne start segments)
      | failed => failed
    | result => settle d result

/-- Makes a folder and those around it, as far as they are missing. The empty path asks for none. -/
def makeFolder (d : Disk) (path : String) : Except FileError Unit × Disk :=
  if path = "" then (.ok (), d)
  else d.makeFolders (d.origin path) (Path.segments path).reverse

/-- Makes a file or replaces its content. A path with a slash at its end names no file. -/
def write (d : Disk) (path : String) (content : ByteArray) : Except FileError Disk := do
  let segments := Path.segments path
  if path ≠ "" ∧ segments.getLast? = some [] then
    let _ ← d.walk (d.origin path) (segments.reverse.dropWhile (· == [])).reverse
    throw .isFolder
  let loc ← d.locate path
  if d.isFolderAt loc then throw .isFolder else return d.put loc (.file content)

end Disk

instance : Files (StateM Disk) where
  read path := return (← get).read path
  isFile path := return (← get).isFile path
  isFolder path := return (← get).isFolder path
  list path := return (← get).list path
  makeFolder path := modifyGet fun d => d.makeFolder path
  write path content := modifyGet fun d =>
    match d.write path content with
    | .ok d' => (.ok (), d')
    | .error e => (.error e, d)

end OpStubs
