import OpStubs.Dictionary
import OpStubs.Yaml.Block
import OpStubs.Yaml.Quoted

namespace OpStubs.Yaml

/-- Whether a text starts as a plain scalar does, without one of the signs that mean something. -/
def startsPlain : Line → Bool
  | [] => false
  | c :: r =>
    if c = '-' ∨ c = '?' ∨ c = ':' then !(r.head?.all isBlank)
    else !(isBlank c || ",[]\x7b\x7d#&*!|>'\"%@\x60".toList.contains c)

/-- A plain key and the text behind its colon. `gap` tells whether a comment may start. -/
def cutKey? (gap : Bool) : Line → Option (Line × Line)
  | [] => none
  | c :: r =>
    if c = ':' ∧ r.head?.all isBlank then some ([], r)
    else if c = '#' ∧ gap then none
    else (cutKey? (isBlank c) r).map fun (key, rest) => (c :: key, rest)

def readKey? (l : Line) : Option (Line × Line) :=
  match l with
  | [] => none
  | c :: r =>
    if c = '"' ∨ c = '\'' then
      match readQuoted c r with
      | some (key, rest) =>
        match rest.dropWhile isBlank with
        | ':' :: value => if value.head?.all isBlank then some (key, value) else none
        | _ => none
      | none => none
    else if startsPlain l then (cutKey? false l).map fun (key, rest) => (trimEnd key, rest)
    else none

/-- The part of a plain scalar that a line holds, and whether a comment ends it. A colon that
stands like that of a key may not be in it. -/
def plainPart? (gap : Bool) : Line → Option (Line × Bool)
  | [] => some ([], false)
  | c :: r =>
    if c = ':' ∧ r.head?.all isBlank then none
    else if c = '#' ∧ gap then some ([], true)
    else (plainPart? (isBlank c) r).map fun (part, ended) => (c :: part, ended)

/-- The further lines of a plain scalar in a mapping indented by `n`, and the lines behind it.
`breaks` counts the ends of lines since its last part. No line is indented by tabs. -/
def plainRest? (n : Nat) (breaks : Nat) : List Line → Option (List Char × List Line)
  | [] => some ([], [])
  | l :: rest =>
    let tail := l.dropWhile (· == ' ')
    if indent l ≤ n ∧ tail.head? = some '\t' then none
    else
      match tail.dropWhile isBlank with
      | [] => plainRest? n (breaks + 1) rest
      | c :: r =>
        if indent l ≤ n ∨ c = '#' then some ([], l :: rest)
        else
          match plainPart? false (c :: r) with
          | none => none
          | some (part, ended) =>
            let more := if ended then some ([], rest) else plainRest? n 1 rest
            more.map fun (content, behind) =>
              (foldSpace (List.replicate breaks '\n') ++ trimEnd part ++ content, behind)

/-- A scalar that starts with the text `l`, in a mapping indented by `n`: its content and the lines
behind it. -/
def readScalar? (n : Nat) (l : Line) (rest : List Line) : Option (List Char × List Line) :=
  match l with
  | [] => none
  | c :: r =>
    if c = '|' ∨ c = '>' then readBlock? n (c = '>') r rest
    else if c = '"' ∨ c = '\'' then do
      let (content, behind) ← readQuoted c (Text.joinWith ['\n'] (r :: rest))
      match Text.pieces '\n' behind with
      | [] => none
      | l :: rest => if isDone l then some (content, rest) else none
    else if startsPlain l then do
      let (part, ended) ← plainPart? false l
      if ended then return (trimEnd part, rest)
      let (content, behind) ← plainRest? n 1 rest
      return (trimEnd part ++ content, behind)
    else none

/-- The value of a key, `l` being the text behind the colon. It may start on a later line that is
indented further than `n`, and is empty if there is none. -/
def readValue? (n : Nat) (l : Line) (rest : List Line) : Option (List Char × List Line) :=
  if isDone l then
    match rest.dropWhile isIdle with
    | [] => some ([], [])
    | next :: rest =>
      if n < indent next then readScalar? n (next.drop (indent next)) rest
      else some ([], next :: rest)
  else readScalar? n (l.dropWhile isBlank) rest

/-- Whether nothing comes behind the end of a document. -/
def isEnd (lines : List Line) : Bool :=
  lines.all fun l => isIdle l || (startsWithThree '.' l && isDone (l.drop 3))

/-- The entries of a mapping indented by `n`, up to the end of the document. -/
def readEntries? (n : Nat) (lines : List Line) : Option (List (String × String)) :=
  match lines.dropWhile isIdle with
  | [] => some []
  | l :: rest =>
    if startsWithMark l then if isEnd lines then some [] else none
    else if indent l ≠ n then none
    else
      match readKey? (l.drop n) with
      | none => none
      | some (key, value) =>
        match readValue? n value rest with
        | none => none
        | some (content, behind) =>
          if behind.length < lines.length then
            (readEntries? n behind).map ((String.ofList key, String.ofList content) :: ·)
          else none
termination_by lines.length

def readContent? (lines : List Line) : Option (List (String × String)) :=
  match lines.dropWhile isIdle with
  | [] => some []
  | l :: rest =>
    if startsWithMark l then readEntries? 0 (l :: rest)
    else if l.take 2 = ['\x7b', '\x7d'] ∧ isDone (l.drop 2) ∧ isEnd rest then some []
    else readEntries? (indent l) (l :: rest)

/-- The texts that a document holds by their keys. It is a mapping, and the values are scalars,
whatever they look like. -/
def dictionary? (text : String) : Option Dictionary :=
  let s := unifyEnds text.toList
  let s := if s.head? = some '\uFEFF' then s.tail else s
  if s.all isPrintable then
    let lines := Text.pieces '\n' s
    match lines.dropWhile isIdle with
    | [] => some .empty
    | l :: rest =>
      let content := if startsWithThree '-' l ∧ isDone (l.drop 3) then rest else l :: rest
      (readContent? content).map .ofList
  else none

instance : YamlReader := ⟨dictionary?⟩

end OpStubs.Yaml
