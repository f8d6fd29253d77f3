import OpStubs.Text.Display

namespace OpStubs.TextFormat

/-- A place in a text, both counts from 1. -/
structure Pos where
  line : Nat
  column : Nat
  deriving DecidableEq, Repr

namespace Pos

def start : Pos := ⟨1, 1⟩

def after (p : Pos) (c : Char) : Pos := if c = '\n' then ⟨p.line + 1, 1⟩ else ⟨p.line, p.column + 1⟩

def afterText (p : Pos) (s : List Char) : Pos := s.foldl after p

@[simp] theorem afterText_nil (p : Pos) : p.afterText [] = p := rfl

@[simp] theorem afterText_cons (p : Pos) (c : Char) (s : List Char) :
    p.afterText (c :: s) = (p.after c).afterText s := rfl

theorem afterText_append (p : Pos) (s t : List Char) :
    p.afterText (s ++ t) = (p.afterText s).afterText t := by
  simp [afterText]

end Pos

inductive Token where
  | ident (name : String)
  | str (value : String)
  | number (text : String)
  | punct (c : Char)
  deriving DecidableEq, Repr

/-- A token as messages show it. -/
def Token.show : Token → String
  | ident name => "Ident(" ++ Text.displayString name ++ ")"
  | str value => "Str(" ++ Text.displayString value ++ ")"
  | number text => "Number(" ++ Text.displayString text ++ ")"
  | punct c => "Punct(" ++ Text.displayLetter c ++ ")"

structure Placed where
  token : Token
  pos : Pos
  deriving DecidableEq, Repr

inductive Cause where
  | unexpectedCharacter (c : Char)
  | unterminatedString
  | newlineInString
  | invalidHexEscape
  | invalidOctalEscape
  | unknownEscape (c : Char)
  /-- A message is still open. -/
  | unclosed (close : Char)
  | noFieldName (found : Token)
  | noColon (field : String)
  | noListSeparator
  | noValue
  | notAValue (found : Token)
  | namelessOp
  /-- The value of a field has another form than the field asks for. -/
  | wrongForm (field expected found : String)
  | invalidInteger (text : String)
  | invalidFloat
  | invalidBool
  deriving DecidableEq, Repr

def Cause.message : Cause → String
  | unexpectedCharacter c => "unexpected character '" ++ c.toString ++ "'"
  | unterminatedString => "unterminated string literal"
  | newlineInString => "newline in string literal"
  | invalidHexEscape => "invalid hex escape"
  | invalidOctalEscape => "invalid octal escape"
  | unknownEscape c => "unknown escape '\\" ++ c.toString ++ "'"
  | unclosed close => "expected '" ++ close.toString ++ "'"
  | noFieldName found => "expected field name, found " ++ found.show
  | noColon field => "expected ':' after '" ++ field ++ "'"
  | noListSeparator => "expected ',' or ']' in list"
  | noValue => "expected value"
  | notAValue found => "expected value, found " ++ found.show
  | namelessOp => "op without a name"
  | wrongForm field expected found =>
    "'" ++ field ++ "' must be " ++ expected ++ ", found " ++ found
  | invalidInteger text => "invalid integer '" ++ text ++ "'"
  | invalidFloat => "invalid float"
  | invalidBool => "invalid bool"

structure Problem where
  pos : Pos
  cause : Cause
  deriving DecidableEq, Repr

end OpStubs.TextFormat
