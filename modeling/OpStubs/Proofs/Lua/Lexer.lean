import Mathlib.Tactic.FinCases
import OpStubs.Number.Decimal
import OpStubs.Proofs.Lua.Syntax
import OpStubs.Proofs.Stops

namespace OpStubs.Lua

inductive Token where
  | name (text : String)
  | keyword (text : String)
  | numeral (text : String)
  /-- A quoted string by what it stands for. -/
  | string (value : String)
  | symbol (text : String)
  deriving DecidableEq, Repr

namespace Token

/-- The words of Lua that are no names. -/
def keywords : List String :=
  ["and", "break", "do", "else", "elseif", "end", "false", "for", "function", "goto", "if", "in",
   "local", "nil", "not", "or", "repeat", "return", "then", "true", "until", "while"]

/-- The longer of two symbols with the same beginning comes first. -/
def symbols : List String :=
  ["...", "..", "==", "~=", "<=", ">=", "::", "+", "-", "*", "/", "%", "^", "#", "<", ">", "=",
   "(", ")", "\x7b", "\x7d", "[", "]", ";", ":", ",", "."]

def startsName (c : Char) : Bool := c.isAlpha || c == '_'

def continuesName (c : Char) : Bool := c.isAlphanum || c == '_'

def isSpace (c : Char) : Bool := [' ', '\t', '\n', '\r', '\x0b', '\x0c'].contains c

def endsLine (c : Char) : Bool := c == '\n' || c == '\r'

/-- A word is a keyword or a name. -/
def ofWord (text : String) : Token := if text ∈ keywords then keyword text else name text

/-- Whether a text is a name of Lua. -/
def isName (text : String) : Bool :=
  match text.toList with
  | [] => false
  | c :: r => startsName c && r.all continuesName && !keywords.contains text

/-- Whether `c` continues a numeral whose last character is `last`. -/
def continuesNumeral (last c : Char) : Bool :=
  c.isAlphanum || c == '_' || c == '.' ||
    ((c == '-' || c == '+') && (last == 'e' || last == 'E'))

/-- The rest of a numeral whose last character is `last`. -/
def numeralTail (last : Char) : List Char → List Char
  | [] => []
  | c :: r => if continuesNumeral last c then c :: numeralTail c r else []

/-- The character that a backslash and another character stand for. -/
def escaped? (c : Char) : Option Char :=
  match c with
  | 'n' => some '\n'
  | 't' => some '\t'
  | 'r' => some '\r'
  | 'a' => some '\x07'
  | 'b' => some '\x08'
  | 'f' => some '\x0c'
  | 'v' => some '\x0b'
  | '\\' => some '\\'
  | '"' => some '"'
  | '\'' => some '\''
  | '\n' => some '\n'
  | _ => none

/-- What a string stands for whose opening quote was read, and how many characters it takes. It
closes on its line. Escapes by number are left out. -/
def unquote? (quote : Char) : List Char → Option (List Char × Nat)
  | [] => none
  | c :: r =>
    if c = quote then some ([], 1)
    else if endsLine c then none
    else if c = '\\' then
      match r with
      | [] => none
      | e :: r => do
        let value ← escaped? e
        let (s, used) ← unquote? quote r
        return (value :: s, used + 2)
    else do
      let (s, used) ← unquote? quote r
      return (c :: s, used + 1)

/-- Whether a text begins with a long bracket. Long strings and long comments are left out. -/
def opensLong : List Char → Bool
  | '[' :: c :: _ => c == '[' || c == '='
  | _ => false

/-- The token at the start of a text whose first character is `c`, and how much of `r` it takes. -/
def lexeme? (c : Char) (r : List Char) : Option (Token × Nat) :=
  if startsName c then
    let tail := r.takeWhile continuesName
    some (ofWord (String.ofList (c :: tail)), tail.length)
  else if c.isDigit || (c == '.' && r.head?.any Char.isDigit) then
    let tail := numeralTail c r
    if (Number.Decimal.parse? (c :: tail)).isSome then
      some (numeral (String.ofList (c :: tail)), tail.length)
    else none
  else if c = '"' ∨ c = '\'' then
    (unquote? c r).map fun (s, used) => (string (String.ofList s), used)
  else if opensLong (c :: r) then none
  else
    (symbols.find? fun s => s.toList.isPrefixOf (c :: r)).map fun s =>
      (symbol s, s.toList.length - 1)

/-- The tokens of a text, what is between them passed over: blanks, and comments to the end of
their line. -/
def scan : List Char → Option (List Token)
  | [] => some []
  | c :: r =>
    if isSpace c then scan r
    else if c = '-' ∧ r.head? = some '-' then
      if opensLong r.tail then none
      else scan (r.drop (r.takeWhile fun c => !endsLine c).length)
    else
      match lexeme? c r with
      | none => none
      | some (t, used) => (scan (r.drop used)).map (t :: ·)
termination_by s => s.length
decreasing_by all_goals simp +arith

/-- Whether reading `s ++ rest` gives the tokens `ts` and then those of `rest`. -/
def Scans (s : List Char) (ts : List Token) (rest : List Char) : Prop :=
  scan (s ++ rest) = (scan rest).map (ts ++ ·)

theorem scan_nil : scan [] = some [] := by rw [scan]

theorem scan_space {c : Char} {r : List Char} (h : isSpace c = true) : scan (c :: r) = scan r := by
  rw [scan, if_pos h]

theorem scan_lexeme {c : Char} {r : List Char} {t : Token} {used : Nat} (hs : isSpace c = false)
    (hc : ¬(c = '-' ∧ r.head? = some '-')) (h : lexeme? c r = some (t, used)) :
    scan (c :: r) = (scan (r.drop used)).map (t :: ·) := by
  rw [scan, if_neg (by simp [hs]), if_neg hc, h]

namespace Scans

theorem nil (rest : List Char) : Scans [] [] rest := by simp [Scans]

theorem append {s s' : List Char} {ts ts' : List Token} {rest : List Char}
    (h : Scans s ts (s' ++ rest)) (h' : Scans s' ts' rest) : Scans (s ++ s') (ts ++ ts') rest := by
  unfold Scans at *
  rw [List.append_assoc, h, h', Option.map_map]
  simp only [Function.comp_def, List.append_assoc]

theorem space {s rest : List Char} {ts : List Token} {c : Char} (hc : isSpace c = true)
    (h : Scans s ts rest) : Scans (c :: s) ts rest := by
  unfold Scans at *
  rw [List.cons_append, scan_space hc, h]

/-- A token that is read at the front of its text. -/
theorem of_lexeme {c : Char} {s rest : List Char} {t : Token} (hs : isSpace c = false)
    (hc : ¬(c = '-' ∧ (s ++ rest).head? = some '-'))
    (h : lexeme? c (s ++ rest) = some (t, s.length)) : Scans (c :: s) [t] rest := by
  unfold Scans
  rw [List.cons_append, scan_lexeme hs hc h, List.drop_left]
  rfl

end Scans

theorem startsName_not_space {c : Char} (h : startsName c = true) : isSpace c = false ∧ c ≠ '-' := by
  constructor
  · rw [isSpace, ← Bool.not_eq_true, List.contains_iff_mem]
    intro hm
    revert h
    fin_cases hm <;> decide
  · rintro rfl
    revert h
    decide

theorem isAlpha_iff_toNat {c : Char} :
    c.isAlpha = true ↔ (65 ≤ c.toNat ∧ c.toNat ≤ 90) ∨ (97 ≤ c.toNat ∧ c.toNat ≤ 122) := by
  change (decide (65 ≤ c.val ∧ c.val ≤ 90) || (decide (97 ≤ c.val) && decide (c.val ≤ 122))) =
    true ↔ _
  simp only [Bool.or_eq_true, Bool.and_eq_true, decide_eq_true_eq, UInt32.le_iff_toNat_le]
  rfl

/-- A character of some kind is no character of another kind. -/
theorem beq_false_of_kind {p : Char → Bool} {a c : Char} (ha : p a = false) (h : p c = true) :
    (c == a) = false := by
  rw [beq_eq_false_iff_ne]
  rintro rfl
  rw [ha] at h
  cases h

theorem startsName_of_isDigit {c : Char} (h : c.isDigit = true) :
    startsName c = false ∧ isSpace c = false ∧ c ≠ '-' := by
  have hn : 48 ≤ c.toNat ∧ c.toNat ≤ 57 := Char.isDigit_iff_toNat.1 h
  refine ⟨?_, ?_, ?_⟩
  · rw [← Bool.not_eq_true]
    intro hs
    simp only [startsName, Bool.or_eq_true, isAlpha_iff_toNat, beq_iff_eq] at hs
    rcases hs with hs | rfl
    · omega
    · exact absurd h (by decide)
  · rw [← Bool.not_eq_true, isSpace, List.contains_iff_mem]
    intro hm
    revert h
    fin_cases hm <;> decide
  · rintro rfl
    exact absurd h (by decide)

/-- A word ends where no character continues it. -/
theorem scans_word {c : Char} {s rest : List Char} (hc : startsName c = true)
    (hs : ∀ d ∈ s, continuesName d = true) (hr : Stops continuesName rest) :
    Scans (c :: s) [ofWord (String.ofList (c :: s))] rest := by
  refine .of_lexeme (startsName_not_space hc).1 (fun h => (startsName_not_space hc).2 h.1) ?_
  simp only [lexeme?, hc, if_true, takeWhile_append_of_stops hs hr]

theorem scans_name {text : String} {rest : List Char} (h : isName text = true)
    (hr : Stops continuesName rest) : Scans text.toList [name text] rest := by
  unfold isName at h
  cases ht : text.toList with
  | nil => simp [ht] at h
  | cons c r =>
    simp only [ht, Bool.and_eq_true, List.all_eq_true, Bool.not_eq_true'] at h
    have hw : ofWord text = name text := by
      rw [ofWord, if_neg (by simpa using h.2)]
    have hs := scans_word h.1.1 h.1.2 hr
    rwa [← ht, String.ofList_toList, hw, ht] at hs

theorem scans_keyword {k : String} {rest : List Char} (h : k ∈ keywords)
    (hr : Stops continuesName rest) : Scans k.toList [keyword k] rest := by
  have hshape : ∃ c r, k.toList = c :: r ∧ startsName c = true ∧ r.all continuesName = true := by
    simp only [keywords] at h
    fin_cases h <;> exact ⟨_, _, rfl, by decide, by decide⟩
  obtain ⟨c, r, ht, hc, hs⟩ := hshape
  have hw : ofWord k = keyword k := by rw [ofWord, if_pos h]
  have hscan := scans_word hc (List.all_eq_true.1 hs) hr
  rwa [← ht, String.ofList_toList, hw] at hscan

/-- Whether a character begins symbols only. -/
def isSymbolic (c : Char) : Bool :=
  !(startsName c || c.isDigit || isSpace c || c == '"' || c == '\'')

theorem lexeme_symbol {c : Char} {r : List Char} (h : isSymbolic c = true)
    (hp : ¬(c = '.' ∧ r.head?.any Char.isDigit = true)) (hl : opensLong (c :: r) = false) :
    lexeme? c r = (symbols.find? fun s => s.toList.isPrefixOf (c :: r)).map fun s =>
      (symbol s, s.toList.length - 1) := by
  simp only [isSymbolic, Bool.not_eq_true', Bool.or_eq_false_iff, beq_eq_false_iff_ne] at h
  obtain ⟨⟨⟨⟨hn, hd⟩, -⟩, hq⟩, hq'⟩ := h
  rw [lexeme?, if_neg (by simp [hn]), if_neg (by simpa [hd] using hp), if_neg (by simp [hq, hq']),
    if_neg (by simp [hl])]

/-- A symbol of one character is read where no longer symbol can be read. -/
theorem scans_symbol {c : Char} {rest : List Char} (h : isSymbolic c = true)
    (hc : ¬(c = '-' ∧ rest.head? = some '-'))
    (hp : ¬(c = '.' ∧ rest.head?.any Char.isDigit = true)) (hl : opensLong (c :: rest) = false)
    (hf : (symbols.find? fun s => s.toList.isPrefixOf (c :: rest)) = some (String.ofList [c])) :
    Scans [c] [symbol (String.ofList [c])] rest := by
  refine .of_lexeme ?_ hc ?_
  · simp only [isSymbolic, Bool.not_eq_true', Bool.or_eq_false_iff] at h
    exact h.1.1.2
  · rw [List.nil_append, lexeme_symbol h hp hl, hf]
    simp

/-- The symbols that begin no longer one. -/
def loneSymbols : List Char :=
  ['+', '*', '/', '%', '^', '#', '(', ')', '\x7b', '\x7d', ']', ';', ',']

theorem scans_lone {c : Char} (h : c ∈ loneSymbols) (rest : List Char) :
    Scans [c] [symbol (String.ofList [c])] rest := by
  have hc : isSymbolic c = true ∧ c ≠ '-' ∧ c ≠ '.' ∧ c ≠ '[' := by
    simp only [loneSymbols] at h
    fin_cases h <;> decide
  refine scans_symbol hc.1 (fun hm => hc.2.1 hm.1) (fun hm => hc.2.2.1 hm.1) ?_ ?_
  · cases rest with
    | nil => simp [opensLong]
    | cons d r => simp [opensLong, hc.2.2.2]
  · simp only [loneSymbols] at h
    fin_cases h <;> rfl

theorem scans_colon {rest : List Char} (h : Stops (· == ':') rest) :
    Scans [':'] [symbol ":"] rest := by
  refine scans_symbol rfl (by simp) (by simp) rfl ?_
  cases rest with
  | nil => rfl
  | cons d r =>
    rw [stops_cons] at h
    have hd : (':' == d) = false := by rw [BEq.comm]; exact h
    simp only [symbols, List.find?_cons]
    simp [List.isPrefixOf, hd]

theorem scans_dot {rest : List Char} (h : Stops (fun c => c == '.' || c.isDigit) rest) :
    Scans ['.'] [symbol "."] rest := by
  cases rest with
  | nil => exact scans_symbol rfl (by simp) (by simp) rfl rfl
  | cons d r =>
    rw [stops_cons, Bool.or_eq_false_iff] at h
    have hd : ('.' == d) = false := by rw [BEq.comm]; exact h.1
    refine scans_symbol rfl (by simp) (by simp [h.2]) rfl ?_
    simp only [symbols, List.find?_cons]
    simp [List.isPrefixOf, hd]

theorem scans_bracket {rest : List Char} (h : Stops (fun c => c == '[' || c == '=') rest) :
    Scans ['['] [symbol "["] rest := by
  cases rest with
  | nil => exact scans_symbol rfl (by simp) (by simp) rfl rfl
  | cons d r =>
    rw [stops_cons] at h
    refine scans_symbol rfl (by simp) (by simp) (by simpa [opensLong] using h) ?_
    simp only [symbols, List.find?_cons]
    simp [List.isPrefixOf]

theorem scans_assign {rest : List Char} (h : Stops (· == '=') rest) :
    Scans ['='] [symbol "="] rest := by
  refine scans_symbol rfl (by simp) (by simp) (by cases rest <;> rfl) ?_
  cases rest with
  | nil => rfl
  | cons d r =>
    rw [stops_cons] at h
    have hd : ('=' == d) = false := by rw [BEq.comm]; exact h
    simp only [symbols, List.find?_cons]
    simp [List.isPrefixOf, hd]

theorem scans_equals (rest : List Char) : Scans ['=', '='] [symbol "=="] rest := by
  refine .of_lexeme rfl (by simp) ?_
  rw [lexeme_symbol rfl (by simp) (by rfl)]
  simp only [symbols, List.find?_cons]
  simp [List.isPrefixOf]

theorem scans_minus {rest : List Char} (h : Stops (· == '-') rest) :
    Scans ['-'] [symbol "-"] rest := by
  have hh : ¬(rest.head? = some '-') := by
    intro hm
    have := h '-' (by rw [hm]; rfl)
    exact absurd this (by decide)
  refine scans_symbol rfl (fun hm => hh hm.2) (by simp) (by cases rest <;> rfl) ?_
  simp only [symbols, List.find?_cons]
  simp [List.isPrefixOf]

theorem unquote_close (quote : Char) (r : List Char) :
    unquote? quote (quote :: r) = some ([], 1) := by
  rw [unquote?.eq_def]
  simp

theorem unquote_plain {quote c : Char} {r s : List Char} {used : Nat} (hq : c ≠ quote)
    (he : endsLine c = false) (hb : c ≠ '\\') (h : unquote? quote r = some (s, used)) :
    unquote? quote (c :: r) = some (c :: s, used + 1) := by
  rw [unquote?.eq_def]
  simp [hq, he, hb, h]

theorem unquote_escape {quote e v : Char} {r s : List Char} {used : Nat} (hq : quote ≠ '\\')
    (he : escaped? e = some v) (h : unquote? quote r = some (s, used)) :
    unquote? quote ('\\' :: e :: r) = some (v :: s, used + 2) := by
  rw [unquote?.eq_def]
  simp [hq.symm, he, h, endsLine]

theorem unquote_escapeChar (c : Char) {r s : List Char} {used : Nat}
    (h : unquote? '"' r = some (s, used)) :
    unquote? '"' (escapeChar c ++ r) = some (c :: s, used + (escapeChar c).length) := by
  unfold escapeChar
  split_ifs with hb hq hn hr ht
  · rw [hb]
    exact unquote_escape (by decide) rfl h
  · rw [hq]
    exact unquote_escape (by decide) rfl h
  · rw [hn]
    exact unquote_escape (by decide) rfl h
  · rw [hr]
    exact unquote_escape (by decide) rfl h
  · rw [ht]
    exact unquote_escape (by decide) rfl h
  · exact unquote_plain hq (by simp [endsLine, hn, hr]) hb h

/-- Quoting and reading back. -/
theorem unquote_escapeChars (s rest : List Char) :
    unquote? '"' (escapeChars s ++ '"' :: rest) = some (s, (escapeChars s).length + 1) := by
  induction s with
  | nil => exact unquote_close '"' rest
  | cons c s ih =>
    have hcons : escapeChars (c :: s) = escapeChar c ++ escapeChars s := by
      simp [escapeChars]
    rw [hcons, List.append_assoc, unquote_escapeChar c ih, List.length_append]
    congr 2
    omega

theorem scans_quote (s : String) (rest : List Char) :
    Scans (quote s).toList [string s] rest := by
  rw [toList_quote, List.cons_append]
  refine .of_lexeme rfl (by simp) ?_
  have h := unquote_escapeChars s.toList rest
  simp only [lexeme?, startsName, List.append_assoc, List.cons_append, List.nil_append, h]
  have hquote : '"'.isAlpha = false ∧ '"'.isDigit = false := by decide
  simp [hquote]

theorem drop_takeWhile_line {s r : List Char} (h : ∀ c ∈ s, endsLine c = false) :
    (s ++ '\n' :: r).drop ((s ++ '\n' :: r).takeWhile fun c => !endsLine c).length =
      '\n' :: r := by
  rw [takeWhile_append_of_stops (fun c hc => by simp [h c hc]) (stops_cons.2 rfl), List.drop_left]

/-- A comment is passed over up to the end of its line. -/
theorem scan_comment {s r : List Char} (h : ∀ c ∈ s, endsLine c = false)
    (hl : opensLong (s ++ '\n' :: r) = false) :
    scan ('-' :: '-' :: s ++ '\n' :: r) = scan r := by
  rw [List.cons_append, List.cons_append, scan, if_neg (by decide), if_pos (by simp),
    List.tail_cons, if_neg (by simp [hl])]
  have hd := drop_takeWhile_line (s := '-' :: s) (r := r) (by simpa [endsLine] using h)
  rw [List.cons_append] at hd
  rw [hd, scan_space rfl]

end Token

end OpStubs.Lua
