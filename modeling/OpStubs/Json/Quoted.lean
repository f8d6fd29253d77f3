import OpStubs.Json.Token
import OpStubs.Text.Digits

namespace OpStubs.Json

inductive Piece where
  | char (c : Char)
  /-- A unit of sixteen bits, written by its number. -/
  | unit (n : Nat)
  deriving DecidableEq, Repr

/-- How a string ends: with the text behind its closing quote, or without one. -/
inductive Ending where
  | closed (rest : List Char)
  | broken (f : Fault)
  deriving DecidableEq, Repr

def hexUnit? (a b c d : Char) : Option Nat :=
  ([a, b, c, d].mapM Text.hexDigit?).map (Text.ofDigits 16)

def namedEscape? (c : Char) : Option Char :=
  match c with
  | '"' => some '"'
  | '\\' => some '\\'
  | '/' => some '/'
  | 'b' => some '\x08'
  | 'f' => some '\x0c'
  | 'n' => some '\n'
  | 'r' => some '\r'
  | 't' => some '\t'
  | _ => none

/-- Four digits are missing. If fewer than four bytes are left, the text is taken to have ended. -/
def missingDigits (r : List Char) : Fault :=
  if (String.ofList r).utf8ByteSize < 4 then .truncated else .malformed

def scanString : List Char → List Piece × Ending
  | [] => ([], .broken .truncated)
  | '"' :: r => ([], .closed r)
  | '\\' :: 'u' :: a :: b :: c :: d :: r =>
    match hexUnit? a b c d with
    | some n =>
      let (pieces, ending) := scanString r
      (.unit n :: pieces, ending)
    | none => ([], .broken .malformed)
  | '\\' :: 'u' :: r => ([], .broken (missingDigits r))
  | '\\' :: e :: r =>
    match namedEscape? e with
    | some c =>
      let (pieces, ending) := scanString r
      (.char c :: pieces, ending)
    | none => ([], .broken .malformed)
  | ['\\'] => ([], .broken .truncated)
  | c :: r =>
    if c.toNat < 0x20 then ([], .broken .malformed)
    else
      let (pieces, ending) := scanString r
      (.char c :: pieces, ending)

def isLow (n : Nat) : Bool := 0xDC00 ≤ n && n ≤ 0xDFFF

def isHigh (n : Nat) : Bool := 0xD800 ≤ n && n ≤ 0xDBFF

/-- The characters of a content. A high unit and a low one behind it are one character, and neither
stands without the other. `after` is what a high unit finds behind the last piece. -/
def joinPieces (after : Fault) : List Piece → Except Fault (List Char)
  | [] => .ok []
  | .char c :: r => (joinPieces after r).map (c :: ·)
  | .unit n :: r =>
    if isLow n then .error .malformed
    else if isHigh n then
      match r with
      | [] => .error after
      | .char _ :: _ => .error .malformed
      | .unit m :: r =>
        if isLow m then
          (joinPieces after r).map (Char.ofNat ((n - 0xD800) * 0x400 + (m - 0xDC00) + 0x10000) :: ·)
        else .error .malformed
    else (joinPieces after r).map (Char.ofNat n :: ·)

def stringToken (s : List Char) : Token × List Char :=
  match scanString s with
  | (pieces, .closed rest) => (.string (joinPieces .malformed pieces), rest)
  | (pieces, .broken f) =>
    match joinPieces f pieces with
    | .ok _ => (.broken true ⟨f, f⟩, [])
    | .error g => (.broken true ⟨g, f⟩, [])

end OpStubs.Json
