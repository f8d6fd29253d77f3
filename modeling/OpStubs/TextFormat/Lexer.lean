import OpStubs.Text.Blank
import OpStubs.TextFormat.Literal

namespace OpStubs.TextFormat

def isLetter (c : Char) : Bool := ('a' ≤ c && c ≤ 'z') || ('A' ≤ c && c ≤ 'Z')

def startsIdent (c : Char) : Bool := isLetter c || c == '_'

def continuesIdent (c : Char) : Bool := isLetter c || c.isDigit || c == '_' || c == '.'

def startsNumber (c : Char) : Bool := c.isDigit || c == '.'

/-- Whether `c` continues a number whose last character is `last`. A sign does so only behind the
mark of an exponent. -/
def continuesNumber (last c : Char) : Bool :=
  isLetter c || c.isDigit || c == '.' || ((c == '-' || c == '+') && (last == 'e' || last == 'E'))

def isPunct (c : Char) : Bool := "\x7b\x7d<>[]:,;-".toList.contains c

def numberTail (last : Char) : List Char → List Char
  | [] => []
  | c :: r => if continuesNumber last c then c :: numberTail c r else []

/-- A token with its spelling, from which the rest of the text follows. -/
structure Lexeme where
  token : Token
  spelling : List Char
  deriving DecidableEq, Repr

/-- The token at the start of a text whose first character `c` is neither blank nor the start of a
comment. -/
def lexeme (c : Char) (r : List Char) : Except Cause Lexeme :=
  if c = '"' ∨ c = '\'' then
    (readLiteral c r).map fun l =>
      ⟨.str (String.ofList (Text.Utf8.decodeLossy l.bytes)), c :: l.spelling⟩
  else if startsNumber c then
    let text := c :: numberTail c r
    .ok ⟨.number (String.ofList text), text⟩
  else if startsIdent c then
    let text := c :: r.takeWhile continuesIdent
    .ok ⟨.ident (String.ofList text), text⟩
  else if isPunct c then .ok ⟨.punct c, [c]⟩
  else .error (.unexpectedCharacter c)

/-- What lies in front of the next token of a text: a blank, or a comment up to its line's end. -/
def gap : List Char → List Char
  | [] => []
  | c :: r =>
    if Text.isBlank c then [c] else if c = '#' then c :: r.takeWhile (· ≠ '\n') else []

theorem lexeme_spelling_ne_nil {c : Char} {r : List Char} {x : Lexeme} (h : lexeme c r = .ok x) :
    x.spelling ≠ [] := by
  unfold lexeme at h
  split at h
  · cases hl : readLiteral c r with
    | error => rw [hl] at h; cases h
    | ok l => rw [hl] at h; cases h; simp
  · split at h
    · cases h; simp
    · split at h
      · cases h; simp
      · split at h
        · cases h; simp
        · cases h

def scan (pos : Pos) (s : List Char) : Except Problem (List Placed) :=
  match s with
  | [] => .ok []
  | c :: r =>
    match gap (c :: r) with
    | [] =>
      match _h : lexeme c r with
      | .error cause => .error ⟨pos, cause⟩
      | .ok x =>
        let rest := (c :: r).drop x.spelling.length
        (scan (pos.afterText x.spelling) rest).map (⟨x.token, pos⟩ :: ·)
    | b :: g => scan (pos.afterText (b :: g)) ((c :: r).drop (g.length + 1))
termination_by s.length
decreasing_by
  · have := List.length_pos_iff.2 (lexeme_spelling_ne_nil _h)
    simp only [List.length_drop, List.length_cons]
    omega
  · simp only [List.length_drop, List.length_cons]
    omega

def tokens (s : List Char) : Except Problem (List Placed) := scan .start s

end OpStubs.TextFormat
