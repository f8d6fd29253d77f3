import OpStubs.Yaml.Line

namespace OpStubs.Yaml

inductive Chomping where
  /-- All are dropped. -/
  | strip
  /-- The first is kept. -/
  | clip
  | keep
  deriving DecidableEq, Repr

structure Header where
  /-- Whether its lines are joined. -/
  folded : Bool
  chomping : Chomping := .clip
  /-- How much further than what is around it the block is indented, if that is said. -/
  increment : Option Nat := none
  deriving DecidableEq, Repr

def chomping? (c : Char) : Option Chomping :=
  if c = '-' then some .strip else if c = '+' then some .keep else none

def increment? (c : Char) : Option Nat :=
  if c.isDigit ∧ c ≠ '0' then some (c.toNat - '0'.toNat) else none

/-- Reads what follows the sign of a block on its line. -/
def readHeader? (folded : Bool) (l : Line) : Option Header :=
  let (h, rest) : Header × Line :=
    match l with
    | [] => ({ folded }, [])
    | c :: r =>
      match chomping? c, increment? c with
      | some chomping, _ =>
        match r.head?.bind increment? with
        | some n => ({ folded, chomping, increment := some n }, r.tail)
        | none => ({ folded, chomping }, r)
      | none, some n =>
        match r.head?.bind chomping? with
        | some chomping => ({ folded, chomping, increment := some n }, r.tail)
        | none => ({ folded, increment := some n }, r)
      | none, none => ({ folded }, l)
  if isDone rest then some h else none

/-- The indentation of a block that says none: that of its first line that is not blank, or of a
blank one before it that has more spaces. Nothing may be indented by tabs. -/
def detectIndent (least : Nat) : List Line → Option Nat
  | [] => some least
  | l :: rest =>
    match l.dropWhile (· == ' ') with
    | [] => detectIndent (max least (indent l)) rest
    | c :: _ => if c = '\t' then none else some (max least (indent l))

inductive BlockLine where
  | blank
  /-- A line without the block's indentation, and whether it is ended. -/
  | text (l : Line) (ended : Bool)
  deriving DecidableEq, Repr

/-- The lines of a block and the lines behind it. The last of all lines is not ended. -/
def takeBlock (n : Nat) : List Line → Option (List BlockLine × List Line)
  | [] => some ([], [])
  | l :: rest =>
    let start := l.take n
    if l.length ≤ n ∧ indent l = l.length then
      if rest = [] then some ([], [l])
      else (takeBlock n rest).map fun (block, rest) => (.blank :: block, rest)
    else if indent start = n then
      (takeBlock n rest).map fun (block, behind) =>
        (.text (l.drop n) (!rest.isEmpty) :: block, behind)
    else if (l.dropWhile (· == ' ')).head? = some '\t' then none
    else some ([], l :: rest)

/-- The part of a block that is put together. -/
structure Built where
  content : List Char := []
  /-- Whether the last line is ended. -/
  ended : Bool := false
  blanks : Nat := 0
  /-- Whether the last line starts with a blank. -/
  indented : Bool := false
  deriving DecidableEq, Repr

def Built.push (folded : Bool) (b : Built) : BlockLine → Built
  | .blank => { b with blanks := b.blanks + 1 }
  | .text l ended =>
    let indented := l.head?.any isBlank
    let joined := folded && b.ended && !b.indented && !indented
    let between :=
      if joined then if b.blanks = 0 then [' '] else []
      else if b.ended then ['\n'] else []
    { content := b.content ++ between ++ List.replicate b.blanks '\n' ++ l, ended, indented }

def blockContent (h : Header) (block : List BlockLine) : List Char :=
  let b := block.foldl (Built.push h.folded) {}
  let last := if b.ended then ['\n'] else []
  match h.chomping with
  | .strip => b.content
  | .clip => b.content ++ last
  | .keep => b.content ++ last ++ List.replicate b.blanks '\n'

/-- Reads a block inside a mapping indented by `n`: its content and the lines behind it. -/
def readBlock? (n : Nat) (folded : Bool) (l : Line) (rest : List Line) :
    Option (List Char × List Line) := do
  let h ← readHeader? folded l
  let width ←
    match h.increment with
    | some more => some (n + more)
    | none => detectIndent (n + 1) rest
  let (block, behind) ← takeBlock width rest
  return (blockContent h block, behind)

end OpStubs.Yaml
