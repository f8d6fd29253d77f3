import OpStubs.Text.Digits
import OpStubs.Text.Utf8
import OpStubs.TextFormat.Token

namespace OpStubs.TextFormat

def namedEscape? (c : Char) : Option UInt8 :=
  match c with
  | 'n' => some 0x0A
  | 't' => some 0x09
  | 'r' => some 0x0D
  | 'a' => some 0x07
  | 'b' => some 0x08
  | 'f' => some 0x0C
  | 'v' => some 0x0B
  | '\\' => some 0x5C
  | '\'' => some 0x27
  | '"' => some 0x22
  | '?' => some 0x3F
  | _ => none

/-- The escape of character `e`, `r` being what follows: a byte, and how much of `r` it takes. -/
def readEscape (e : Char) (r : List Char) : Except Cause (UInt8 × Nat) :=
  if e = 'x' ∨ e = 'X' then
    let digits := Text.leadingDigits Text.hexDigit? 2 r
    if digits = [] then .error .invalidHexEscape
    else .ok (UInt8.ofNat (Text.ofDigits 16 digits), digits.length)
  else
    match Text.octalDigit? e with
    | some d =>
      let digits := Text.leadingDigits Text.octalDigit? 2 r
      let value := Text.ofDigits 8 (d :: digits)
      if value ≤ 255 then .ok (UInt8.ofNat value, digits.length) else .error .invalidOctalEscape
    | none =>
      match namedEscape? e with
      | some b => .ok (b, 0)
      | none => .error (.unknownEscape e)

/-- A literal after its opening quote: its bytes, its spelling with the closing quote, and the text
behind it. -/
structure Literal where
  bytes : List UInt8
  spelling : List Char
  rest : List Char
  deriving DecidableEq, Repr

def Literal.after (l : Literal) (bytes : List UInt8) (spelling : List Char) : Literal :=
  ⟨bytes ++ l.bytes, spelling ++ l.spelling, l.rest⟩

/-- Reads a literal up to its closing quote. It must close before the end of its line. -/
def readLiteral (quote : Char) : List Char → Except Cause Literal
  | [] => .error .unterminatedString
  | c :: r =>
    if c = quote then .ok ⟨[], [c], r⟩
    else if c = '\n' then .error .newlineInString
    else if c = '\\' then
      match r with
      | [] => .error .unterminatedString
      | e :: r =>
        match readEscape e r with
        | .error cause => .error cause
        | .ok (byte, used) =>
          (readLiteral quote (r.drop used)).map (·.after [byte] (c :: e :: r.take used))
    else (readLiteral quote r).map (·.after (Text.Utf8.encodeChar c) [c])
termination_by s => s.length
decreasing_by all_goals simp +arith

end OpStubs.TextFormat
