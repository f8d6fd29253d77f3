import OpStubs.Text.Digits
import OpStubs.Yaml.Line

namespace OpStubs.Yaml

/-- The character that a backslash and `e` stand for, `r` being what follows, and how much of `r` it
takes. -/
def escape? (e : Char) (r : List Char) : Option (Char × Nat) :=
  match e with
  | '0' => some ('\x00', 0)
  | 'a' => some ('\x07', 0)
  | 'b' => some ('\x08', 0)
  | 't' => some ('\t', 0)
  | '\t' => some ('\t', 0)
  | 'n' => some ('\n', 0)
  | 'v' => some ('\x0b', 0)
  | 'f' => some ('\x0c', 0)
  | 'r' => some ('\r', 0)
  | 'e' => some ('\x1b', 0)
  | ' ' => some (' ', 0)
  | '"' => some ('"', 0)
  | '/' => some ('/', 0)
  | '\\' => some ('\\', 0)
  | 'N' => some ('\u0085', 0)
  | '_' => some ('\u00a0', 0)
  | 'L' => some ('\u2028', 0)
  | 'P' => some ('\u2029', 0)
  | 'x' => (Text.hexChar? 2 r).map (·, 2)
  | 'u' => (Text.hexChar? 4 r).map (·, 4)
  | 'U' => (Text.hexChar? 8 r).map (·, 8)
  | _ => none

def isSpace (c : Char) : Bool := isBlank c || c == '\n'

/-- What blanks and line ends between words stand for: one line end for a space, and more for one
less. Blanks within a line stand for themselves. -/
def foldSpace (space : List Char) : List Char :=
  match space.count '\n' with
  | 0 => space
  | 1 => [' ']
  | n + 1 => List.replicate n '\n'

def prepend (s : List Char) (x : Option (List Char × List Char)) :
    Option (List Char × List Char) :=
  x.map fun (content, rest) => (s ++ content, rest)

/-- A scalar behind its opening quote: its content, and the text behind its closing quote. No mark
of a document may stand in it. -/
def readQuoted (quote : Char) : List Char → Option (List Char × List Char)
  | [] => none
  | c :: r =>
    if c = quote then
      if quote = '\'' ∧ r.head? = some '\'' then prepend [c] (readQuoted quote r.tail)
      else some ([], r)
    else if c = '\\' ∧ quote = '"' then
      match r with
      | [] => none
      | e :: r =>
        if e = '\n' then
          let space := r.takeWhile isSpace
          let rest := r.dropWhile isSpace
          if (e :: space).getLast? = some '\n' ∧ startsWithMark rest then none
          else prepend (List.replicate (space.count '\n') '\n') (readQuoted quote rest)
        else
          match escape? e r with
          | some (x, used) => prepend [x] (readQuoted quote (r.drop used))
          | none => none
    else if isSpace c then
      let space := c :: r.takeWhile isSpace
      let rest := r.dropWhile isSpace
      if space.getLast? = some '\n' ∧ startsWithMark rest then none
      else prepend (foldSpace space) (readQuoted quote rest)
    else prepend [c] (readQuoted quote r)
termination_by s => s.length
decreasing_by
  · simp +arith
  · have := (List.dropWhile_sublist isSpace (l := r)).length_le
    simp only [List.length_cons]
    omega
  · simp +arith
  · have := (List.dropWhile_sublist isSpace (l := r)).length_le
    simp only [List.length_cons]
    omega
  · simp

end OpStubs.Yaml
