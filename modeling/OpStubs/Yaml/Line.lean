import OpStubs.Text.Lines

namespace OpStubs.Yaml

abbrev Line := List Char

def isBlank (c : Char) : Bool := c == ' ' || c == '\t'

def isPrintable (c : Char) : Bool :=
  let n := c.toNat
  n == 0x09 || n == 0x0A || (0x20 ≤ n && n ≤ 0x7E) || n == 0x85 || (0xA0 ≤ n && n ≤ 0xD7FF) ||
    (0xE000 ≤ n && n ≤ 0xFFFD && n != 0xFEFF) || 0x10000 ≤ n

def indent (l : Line) : Nat := (l.takeWhile (· == ' ')).length

def trimEnd (l : Line) : Line := (l.reverse.dropWhile isBlank).reverse

/-- Whether nothing is left on a line but blanks and a comment. -/
def isDone (l : Line) : Bool :=
  match l.dropWhile isBlank with
  | [] => true
  | c :: _ => c == '#'

/-- Whether a line is empty or a comment. Tabs do not indent. -/
def isIdle (l : Line) : Bool :=
  match l.dropWhile (· == ' ') with
  | [] => true
  | c :: _ => c == '#'

def startsWithThree (c : Char) (s : List Char) : Bool :=
  s.take 3 == [c, c, c] && ((s.drop 3).head?.all fun d => isBlank d || d == '\n')

def startsWithMark (s : List Char) : Bool := startsWithThree '-' s || startsWithThree '.' s

def unifyEnds (s : List Char) : List Char :=
  (Text.joinReturns s).map fun c => if c = '\r' then '\n' else c

end OpStubs.Yaml
