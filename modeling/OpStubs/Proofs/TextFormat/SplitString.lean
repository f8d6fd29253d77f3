import OpStubs.Proofs.TextFormat.Reading
import OpStubs.Proofs.TextFormat.Severing
import OpStubs.Proofs.TextFormat.Spelling
import OpStubs.Registry.Text

namespace OpStubs.TextFormat

open Text.Utf8 (decodeLossy Severs)

/-- Whether characters are digits of some values, of which at most `count` are read. -/
structure IsDigitsBefore (digit? : Char → Option Nat) (count : Nat) (digits : List Char)
    (values : List Nat) (rest : List Char) : Prop where
  values : digits.map digit? = values.map some
  length : digits.length ≤ count
  stops : digits.length = count ∨ Stops (fun c => (digit? c).isSome) rest

/-- Whether a text is a way to write a byte between quotes in front of `rest`. -/
inductive ByteSpelled (quote : Char) : UInt8 → List Char → List Char → Prop
  | raw {c : Char} (hascii : c.toNat < 128) (hquote : c ≠ quote) (hescape : c ≠ '\\')
    (hfeed : c ≠ '\n') (rest : List Char) : ByteSpelled quote (UInt8.ofNat c.toNat) [c] rest
  | octal {first : Char} {digits rest : List Char} {value : Nat} {values : List Nat}
    (hfirst : Text.octalDigit? first = some value)
    (hdigits : IsDigitsBefore Text.octalDigit? 2 digits values rest)
    (hbyte : Text.ofDigits 8 (value :: values) ≤ 255) :
    ByteSpelled quote (UInt8.ofNat (Text.ofDigits 8 (value :: values))) ('\\' :: first :: digits) rest
  | hex {mark : Char} {digits rest : List Char} {values : List Nat} (hmark : mark = 'x' ∨ mark = 'X')
    (hdigits : IsDigitsBefore Text.hexDigit? 2 digits values rest) (hne : digits ≠ []) :
    ByteSpelled quote (UInt8.ofNat (Text.ofDigits 16 values)) ('\\' :: mark :: digits) rest

/-- Whether a text behind an opening quote is a way to write some bytes, up to the closing quote. -/
inductive BodySpelled (quote : Char) : List UInt8 → List Char → Prop
  | close : BodySpelled quote [] [quote]
  | byte {b : UInt8} {bytes : List UInt8} {s rest : List Char} (hb : ByteSpelled quote b s rest)
    (h : BodySpelled quote bytes rest) : BodySpelled quote (b :: bytes) (s ++ rest)

/-- Whether a text is literals that follow one another, each of the bytes of a piece. -/
inductive Literals : List (List UInt8) → List Char → Prop
  | one {quote : Char} {bytes : List UInt8} {body : List Char} (hq : quote = '"' ∨ quote = '\'')
    (h : BodySpelled quote bytes body) : Literals [bytes] (quote :: body)
  | more {quote : Char} {bytes : List UInt8} {body g text : List Char} {pieces : List (List UInt8)}
    (hq : quote = '"' ∨ quote = '\'') (h : BodySpelled quote bytes body) (hg : Gap g)
    (hrest : Literals pieces text) : Literals (bytes :: pieces) (quote :: body ++ (g ++ text))

theorem leadingDigits_append {digit? : Char → Option Nat} {count : Nat} {digits rest : List Char}
    {values : List Nat} (h : IsDigitsBefore digit? count digits values rest) :
    Text.leadingDigits digit? count (digits ++ rest) = values := by
  obtain ⟨hvalues, hlength, hstops⟩ := h
  induction digits generalizing count values with
  | nil =>
    have hnil : values = [] := by simpa using hvalues.symm
    rw [hnil, List.nil_append]
    cases count with
    | zero => rfl
    | succ count =>
      cases rest with
      | nil => rfl
      | cons c r =>
        have hc : digit? c = none := by
          rcases hstops with h | h
          · cases h
          · exact Option.isSome_eq_false_iff.1 (stops_cons.1 h) |> Option.isNone_iff_eq_none.1
        rw [Text.leadingDigits, hc]
  | cons c digits ih =>
    cases count with
    | zero => simp at hlength
    | succ count =>
      cases values with
      | nil => simp at hvalues
      | cons v values =>
        simp only [List.map_cons, List.cons.injEq] at hvalues
        rw [List.length_cons] at hlength hstops
        rw [List.cons_append, Text.leadingDigits, hvalues.1]
        dsimp only
        rw [ih hvalues.2 (by omega) (hstops.imp_left (by omega))]

/-- The closing quote ends the digits, whatever stands behind it. -/
theorem IsDigitsBefore.append {digit? : Char → Option Nat} {count : Nat} {digits s : List Char}
    {values : List Nat} (h : IsDigitsBefore digit? count digits values s) (hs : s ≠ [])
    (rest : List Char) : IsDigitsBefore digit? count digits values (s ++ rest) := by
  refine ⟨h.values, h.length, h.stops.imp_right fun hstops => ?_⟩
  cases s with
  | nil => exact absurd rfl hs
  | cons c r => exact stops_cons.2 (stops_cons.1 hstops)

theorem encodeChar_ascii {c : Char} (h : c.toNat < 128) :
    Text.Utf8.encodeChar c = [UInt8.ofNat c.toNat] := by
  have hle : c.val.toNat ≤ 0x7F := Nat.le_of_lt_succ h
  rw [Text.Utf8.encodeChar, String.utf8EncodeChar, if_pos hle]
  rfl

section Body
variable {quote : Char} {b : UInt8} {bytes : List UInt8} {s rest : List Char}

theorem BodySpelled.ne_nil (h : BodySpelled quote bytes s) : s ≠ [] := by
  cases h with
  | close => simp
  | byte hb _ => cases hb <;> simp

theorem readLiteral_taking {e : Char} {digits : List Char} (hq : '\\' ≠ quote)
    (h : readEscape e (digits ++ rest) = .ok (b, digits.length)) :
    readLiteral quote ('\\' :: e :: (digits ++ rest)) =
      (readLiteral quote rest).map (·.after [b] ('\\' :: e :: digits)) := by
  rw [readLiteral.eq_def]
  simp only [if_neg hq]
  rw [if_neg (by decide), if_pos trivial, h]
  simp only [List.take_left, List.drop_left]

theorem readEscape_octal {first : Char} {digits : List Char} {value : Nat} {values : List Nat}
    (hfirst : Text.octalDigit? first = some value)
    (hdigits : IsDigitsBefore Text.octalDigit? 2 digits values rest)
    (hbyte : Text.ofDigits 8 (value :: values) ≤ 255) :
    readEscape first (digits ++ rest) =
      .ok (UInt8.ofNat (Text.ofDigits 8 (value :: values)), digits.length) := by
  have hlength : digits.length = values.length := by
    simpa using congrArg List.length hdigits.values
  have hmark : ¬ (first = 'x' ∨ first = 'X') := by
    rintro (rfl | rfl) <;> cases hfirst
  rw [readEscape, if_neg hmark, hfirst]
  simp only [leadingDigits_append hdigits, if_pos hbyte, hlength]

theorem readEscape_hex {mark : Char} {digits : List Char} {values : List Nat}
    (hmark : mark = 'x' ∨ mark = 'X')
    (hdigits : IsDigitsBefore Text.hexDigit? 2 digits values rest) (hne : digits ≠ []) :
    readEscape mark (digits ++ rest) =
      .ok (UInt8.ofNat (Text.ofDigits 16 values), digits.length) := by
  have hlength : digits.length = values.length := by
    simpa using congrArg List.length hdigits.values
  have hvalues : values ≠ [] := by
    rintro rfl
    exact hne (List.length_eq_zero_iff.1 hlength)
  rw [readEscape, if_pos hmark]
  simp only [leadingDigits_append hdigits, if_neg hvalues, hlength]

theorem readLiteral_byte (hq : quote = '"' ∨ quote = '\'') (h : ByteSpelled quote b s rest)
    (hrest : rest ≠ []) (more : List Char) :
    readLiteral quote (s ++ (rest ++ more)) =
      (readLiteral quote (rest ++ more)).map (·.after [b] s) := by
  have hback : '\\' ≠ quote := by rcases hq with rfl | rfl <;> decide
  cases h with
  | raw hascii hquote hescape hfeed =>
    rw [List.singleton_append, readLiteral.eq_def]
    simp only [if_neg hquote, if_neg hfeed, if_neg hescape]
    rw [encodeChar_ascii hascii]
  | octal hfirst hdigits hbyte =>
    exact readLiteral_taking hback (readEscape_octal hfirst (hdigits.append hrest more) hbyte)
  | hex hmark hdigits hne =>
    exact readLiteral_taking hback (readEscape_hex hmark (hdigits.append hrest more) hne)

/-- A literal is read as the bytes that it writes. -/
theorem readLiteral_body (hq : quote = '"' ∨ quote = '\'') (h : BodySpelled quote bytes s)
    (rest : List Char) : readLiteral quote (s ++ rest) = .ok ⟨bytes, s, rest⟩ := by
  induction h with
  | close =>
    rw [List.singleton_append, readLiteral.eq_def]
    simp
  | byte hb hbody ih =>
    rw [List.append_assoc, readLiteral_byte hq hb hbody.ne_nil, ih]
    rfl

end Body

namespace State

/-- Reads a text that stands at `pos`. -/
def read (s : State) (pos : Pos) (text : List Char) : Except Problem State := do
  s.run (← scan pos text)

theorem read_gap {g : List Char} (h : Gap g) (s : State) (pos : Pos) (rest : List Char) :
    s.read pos (g ++ rest) = s.read (pos.afterText g) rest := by
  rw [read, scan_append_gap h, read]

theorem read_nil (s : State) (pos : Pos) : s.read pos [] = .ok s := by
  rw [read, scan_nil]
  rfl

/-- The token at the start of a text is read by a step. -/
theorem read_lexeme {s s' : State} {pos : Pos} {c : Char} {r rest : List Char} {x : Lexeme}
    (hopens : opensToken c = true) (hx : lexeme c r = .ok x) (hrest : c :: r = x.spelling ++ rest)
    (hstep : s.step ⟨x.token, pos⟩ = .ok s') :
    s.read pos (c :: r) = s'.read (pos.afterText x.spelling) rest := by
  rw [read, scan_lexeme (gap_of_opensToken hopens r) hx hrest, read]
  cases scan (pos.afterText x.spelling) rest with
  | error e => rfl
  | ok ts => exact run_cons hstep ts

theorem read_token {s s' : State} {pos : Pos} {t : Token} {spelling rest : List Char}
    (ht : t.SpelledBy spelling) (hr : Stops (t.runsInto spelling) rest)
    (hstep : s.step ⟨t, pos⟩ = .ok s') :
    s.read pos (spelling ++ rest) = s'.read (pos.afterText spelling) rest := by
  obtain ⟨c, r, rfl, hopens, hlexeme⟩ := lexeme_spelled ht hr
  exact read_lexeme hopens hlexeme rfl hstep

theorem read_literal {s s' : State} {pos : Pos} {quote : Char} {bytes : List UInt8}
    {body : List Char} (hq : quote = '"' ∨ quote = '\'') (h : BodySpelled quote bytes body)
    (hstep : s.step ⟨.str (String.ofList (decodeLossy bytes)), pos⟩ = .ok s') (rest : List Char) :
    s.read pos (quote :: body ++ rest) = s'.read (pos.afterText (quote :: body)) rest := by
  have hlexeme : lexeme quote (body ++ rest) =
      .ok ⟨.str (String.ofList (decodeLossy bytes)), quote :: body⟩ := by
    rw [lexeme, if_pos hq, readLiteral_body hq h]
    rfl
  have hopens : opensToken quote = true := by rcases hq with rfl | rfl <;> rfl
  exact read_lexeme hopens hlexeme rfl hstep

/-- Literals lengthen a string by what each is read as. -/
theorem read_literals {s : State} {p : Place} {value : String} {pieces : List (List UInt8)}
    {text : List Char} (h : Literals pieces text)
    (hstep : ∀ more pos, s.step ⟨.str more, pos⟩ = .ok (.inText p (value ++ more))) (pos : Pos)
    (rest : List Char) : s.read pos (text ++ rest) =
      (State.inText p (value ++ String.ofList (pieces.flatMap decodeLossy))).read
        (pos.afterText text) rest := by
  induction h generalizing s value pos with
  | @one quote bytes body hq hbody =>
    rw [read_literal hq hbody (hstep _ pos), List.flatMap_singleton]
  | @more quote bytes body g text pieces hq hbody hg _ ih =>
    have hnext (more : String) (pos : Pos) :
        (State.inText p (value ++ String.ofList (decodeLossy bytes))).step ⟨.str more, pos⟩ =
          .ok (.inText p (value ++ String.ofList (decodeLossy bytes) ++ more)) := rfl
    rw [List.append_assoc, List.append_assoc, read_literal hq hbody (hstep _ pos), read_gap hg,
      ih hnext, List.flatMap_cons, String.ofList_append, String.append_assoc,
      Pos.afterText_append, Pos.afterText_append]

theorem read_value {pieces : List (List UInt8)} {text : List Char} (h : Literals pieces text)
    (slot : Slot) (pos : Pos) (rest : List Char) :
    (State.at (.value slot)).read pos (text ++ rest) =
      (State.inText ⟨slot, none⟩ (String.ofList (pieces.flatMap decodeLossy))).read
        (pos.afterText text) rest := by
  have hstep (more : String) (pos : Pos) : (State.at (.value slot)).step ⟨.str more, pos⟩ =
      .ok (.inText ⟨slot, none⟩ ("" ++ more)) := by
    rw [String.empty_append]
    rfl
  rw [read_literals h hstep, String.empty_append]

end State

theorem fields_eq_read (s : List Char) :
    fields s = (State.start.read .start s).bind fun state => state.next.finish (endOf s) := by
  rw [fields, tokens, State.read]
  cases scan .start s <;> rfl

theorem fields_literals {pieces : List (List UInt8)} {text : List Char} (h : Literals pieces text)
    {name : List Char} (hname : isIdent name = true) :
    fields (name ++ ':' :: text) = .ok [⟨String.ofList name,
      .str (String.ofList (pieces.flatMap decodeLossy)), .start⟩] := by
  let slot : Slot := ⟨.text, [], String.ofList name, .start⟩
  have hident : State.start.step ⟨.ident (String.ofList name), .start⟩ = .ok (.at (.colon slot)) :=
    rfl
  have hcolon (pos : Pos) : (State.at (.colon slot)).step ⟨.punct ':', pos⟩ =
      .ok (.at (.value slot)) := rfl
  have hstops : Stops ((Token.ident (String.ofList name)).runsInto name) (':' :: text) :=
    stops_cons.2 rfl
  have hvalue := State.read_value h slot ((Pos.start.afterText name).afterText [':']) []
  rw [List.append_nil, State.read_nil] at hvalue
  rw [fields_eq_read, State.read_token (.ident name hname) hstops hident, ← List.singleton_append,
    State.read_token (.punct rfl) (fun _ _ => rfl) (hcolon _), hvalue]
  rfl

/-- Literals behind the colon of a field are read as the string that puts together what each is read
as, in a text of this field alone and wherever else it stands. It is the string of all their bytes
exactly if no cut between two literals severs a character. -/
theorem read_splitString {pieces : List (List UInt8)} {text : List Char} (h : Literals pieces text) :
    (∀ (slot : Slot) (pos : Pos) (rest : List Char),
      (State.at (.value slot)).read pos (text ++ rest) =
        (State.inText ⟨slot, none⟩ (String.ofList (pieces.flatMap decodeLossy))).read
          (pos.afterText text) rest) ∧
      (∀ name : List Char, isIdent name = true → fields (name ++ ':' :: text) =
        .ok [⟨String.ofList name, .str (String.ofList (pieces.flatMap decodeLossy)), .start⟩]) ∧
      (pieces.flatMap decodeLossy = decodeLossy pieces.flatten ↔
        ∀ before after, pieces = before ++ after → ¬ Severs before.flatten after.flatten) :=
  ⟨State.read_value h, fun _ hname => fields_literals h hname,
    Text.Utf8.flatMap_decodeLossy_eq_iff⟩

/-- A letter of two bytes, each written in a literal of its own. -/
def cutLetter : List Char := "\"\\303\" \"\\xa9\"".toList

/-- The same bytes in one literal. -/
def wholeLetter : List Char := "\"\\303\\xa9\"".toList

theorem byteSpelled_octal {rest : List Char} :
    ByteSpelled '"' 0xC3 ("\\303".toList) rest := by
  have hdigits : IsDigitsBefore Text.octalDigit? 2 ['0', '3'] [0, 3] rest :=
    ⟨rfl, by decide, .inl rfl⟩
  have hfirst : Text.octalDigit? '3' = some 3 := rfl
  exact .octal hfirst hdigits (by decide)

theorem byteSpelled_hex {rest : List Char} : ByteSpelled '"' 0xA9 ("\\xa9".toList) rest := by
  have hdigits : IsDigitsBefore Text.hexDigit? 2 ['a', '9'] [10, 9] rest :=
    ⟨rfl, by decide, .inl rfl⟩
  exact .hex (.inl rfl) hdigits (by decide)

theorem literals_cutLetter : Literals [[0xC3], [0xA9]] cutLetter :=
  .more (.inl rfl) (.byte byteSpelled_octal .close) (.blank rfl .nil)
    (.one (.inl rfl) (.byte byteSpelled_hex .close))

theorem literals_wholeLetter : Literals [[0xC3, 0xA9]] wholeLetter :=
  .one (.inl rfl) (.byte byteSpelled_octal (.byte byteSpelled_hex .close))

theorem read_splitString_cutLetter : Literals [[0xC3], [0xA9]] cutLetter ∧
    isIdent "name".toList = true ∧ fields ("name".toList ++ ':' :: cutLetter) =
      .ok [⟨"name", .str "\uFFFD\uFFFD", .start⟩] :=
  ⟨literals_cutLetter, rfl, (read_splitString literals_cutLetter).2.1 "name".toList rfl⟩

/-- Cut into two literals, a name is read as another one. -/
theorem registry_cutLetter_ne : Literals [[0xC3], [0xA9]] cutLetter ∧
    Literals [[0xC3, 0xA9]] wholeLetter ∧
    registry ("op \x7b name: " ++ String.ofList wholeLetter ++ " \x7d") = .ok [{ name := "é" }] ∧
    registry ("op \x7b name: " ++ String.ofList cutLetter ++ " \x7d") =
      .ok [{ name := "\uFFFD\uFFFD" }] := by
  refine ⟨literals_cutLetter, literals_wholeLetter, ?_, ?_⟩
  · decide +kernel
  · decide +kernel

end OpStubs.TextFormat
