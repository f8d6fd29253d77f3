import OpStubs.Proofs.Identifier
import OpStubs.Proofs.Stops
import OpStubs.Proofs.TextFormat.Utf8
import OpStubs.TextFormat.Lexer

namespace OpStubs.TextFormat

/-- How a character stands between two of `quote`. -/
def escapeChar (quote c : Char) : List Char :=
  if c = '\\' then ['\\', '\\']
  else if c = quote then ['\\', quote]
  else if c = '\n' then ['\\', 'n']
  else [c]

def isIdent (s : List Char) : Bool :=
  match s with
  | [] => false
  | c :: r => startsIdent c && r.all continuesIdent

def isNumber (s : List Char) : Bool :=
  match s with
  | [] => false
  | c :: r => startsNumber c && numberTail c r == r

/-- Whether a text is a way to write a token. -/
inductive Token.SpelledBy : Token → List Char → Prop
  | ident (name : List Char) (h : isIdent name = true) : SpelledBy (.ident (String.ofList name)) name
  | number (text : List Char) (h : isNumber text = true) :
    SpelledBy (.number (String.ofList text)) text
  | str {quote : Char} (h : quote = '"' ∨ quote = '\'') (s : String) :
    SpelledBy (.str s) (quote :: (s.toList.flatMap (escapeChar quote) ++ [quote]))
  | punct {c : Char} (h : isPunct c = true) : SpelledBy (.punct c) [c]

/-- Whether a token would run on into a character behind its spelling. -/
def Token.runsInto (t : Token) (s : List Char) (c : Char) : Bool :=
  match t with
  | .ident _ => continuesIdent c
  | .number _ => continuesNumber (s.getLastD '0') c
  | _ => false

/-- Blanks and comments, each comment up to the end of its line. -/
inductive Gap : List Char → Prop
  | nil : Gap []
  | blank {c : Char} {g : List Char} (hc : Text.isBlank c = true) (h : Gap g) : Gap (c :: g)
  | comment (line : List Char) {g : List Char} (hl : ∀ c ∈ line, c ≠ '\n') (h : Gap g) :
    Gap ('#' :: (line ++ '\n' :: g))

/-- Whether a text that stands at `pos` is a way to write some tokens at their places, with gaps
where they would run together. -/
inductive Spelled : Pos → List Placed → List Char → Prop
  | nil {pos : Pos} {g : List Char} (h : Gap g) : Spelled pos [] g
  /-- The last comment may end with the text. -/
  | comment {pos : Pos} {g line : List Char} (h : Gap g) (hl : ∀ c ∈ line, c ≠ '\n') :
    Spelled pos [] (g ++ '#' :: line)
  | cons {pos : Pos} {g s rest : List Char} {t : Token} {ts : List Placed} (hg : Gap g)
    (hs : t.SpelledBy s) (hr : Stops (t.runsInto s) rest)
    (h : Spelled ((pos.afterText g).afterText s) ts rest) :
    Spelled pos (⟨t, pos.afterText g⟩ :: ts) (g ++ (s ++ rest))

theorem scan_gap {c b : Char} {r g : List Char} (h : gap (c :: r) = b :: g) (pos : Pos) :
    scan pos (c :: r) = scan (pos.afterText (b :: g)) ((c :: r).drop (g.length + 1)) := by
  rw [scan.eq_def]
  simp only
  split
  · rename_i hnil
    rw [h] at hnil
    cases hnil
  · rename_i hcons
    rw [h] at hcons
    cases hcons
    rfl

theorem scan_lexeme {c : Char} {r rest : List Char} {x : Lexeme} (hg : gap (c :: r) = [])
    (hx : lexeme c r = .ok x) (hrest : c :: r = x.spelling ++ rest) (pos : Pos) :
    scan pos (c :: r) = (scan (pos.afterText x.spelling) rest).map (⟨x.token, pos⟩ :: ·) := by
  have hdrop : (c :: r).drop x.spelling.length = rest := by rw [hrest, List.drop_left]
  rw [scan.eq_def]
  simp only
  split
  · split
    · rename_i herror
      rw [hx] at herror
      cases herror
    · rename_i hok
      rw [hx] at hok
      cases hok
      rw [hdrop]
  · rename_i hcons
    rw [hg] at hcons
    cases hcons

theorem scan_nil (pos : Pos) : scan pos [] = .ok [] := by
  rw [scan.eq_def]

theorem scan_append_gap {g : List Char} (h : Gap g) (pos : Pos) (rest : List Char) :
    scan pos (g ++ rest) = scan (pos.afterText g) rest := by
  induction h generalizing pos with
  | nil => rfl
  | @blank c g hc _ ih =>
    have hgap : gap (c :: (g ++ rest)) = [c] := by simp [gap, hc]
    exact (scan_gap hgap pos).trans (ih _)
  | @comment line g hl _ ih =>
    have hline : ((line ++ '\n' :: g) ++ rest).takeWhile (· ≠ '\n') = line := by
      rw [List.append_assoc]
      refine takeWhile_append_of_stops ?_ (stops_cons.2 (by simp))
      intro c hc
      simpa using hl c hc
    have hgap : gap ('#' :: ((line ++ '\n' :: g) ++ rest)) = '#' :: line := by
      rw [gap, if_neg (by decide), if_pos rfl, hline]
    have hend : gap ('\n' :: (g ++ rest)) = ['\n'] := by
      simp [gap, show Text.isBlank '\n' = true from rfl]
    have hdrop : ('#' :: ((line ++ '\n' :: g) ++ rest)).drop (line.length + 1) =
        '\n' :: (g ++ rest) := by simp
    rw [List.cons_append, scan_gap hgap, hdrop, scan_gap hend]
    refine (ih _).trans ?_
    simp only [Pos.afterText_cons, Pos.afterText_append, Pos.afterText_nil]

/-- What ends with a comment is read as what stands in front of it. -/
theorem scan_comment {line : List Char} (hl : ∀ c ∈ line, c ≠ '\n') (pos : Pos) :
    scan pos ('#' :: line) = .ok [] := by
  have hline : (line ++ []).takeWhile (· ≠ '\n') = line := by
    refine takeWhile_append_of_stops ?_ (stops_nil _)
    intro c hc
    simpa using hl c hc
  rw [List.append_nil] at hline
  have hgap : gap ('#' :: line) = '#' :: line := by
    rw [gap, if_neg (by decide), if_pos rfl, hline]
  rw [scan_gap hgap, List.drop_succ_cons, List.drop_length]
  exact scan_nil _

/-- Whether a token may begin with a character. -/
def opensToken (c : Char) : Bool :=
  startsIdent c || startsNumber c || isPunct c || c == '"' || c == '\''

theorem toNat_lt_of_isLetter {c : Char} (h : isLetter c = true) : c.toNat < 128 := by
  simp only [isLetter, Char.le_def, UInt32.le_iff_toNat_le, Bool.or_eq_true, Bool.and_eq_true,
    decide_eq_true_eq] at h
  change (97 ≤ c.toNat ∧ c.toNat ≤ 122) ∨ (65 ≤ c.toNat ∧ c.toNat ≤ 90) at h
  omega

theorem toNat_lt_of_isPunct {c : Char} (h : isPunct c = true) : c.toNat < 128 := by
  have hall : ("\x7b\x7d<>[]:,;-".toList.all fun p => p.toNat < 128) = true := by decide
  exact of_decide_eq_true (List.all_eq_true.1 hall c (List.contains_iff_mem.1 h))

theorem toNat_lt_of_opensToken {c : Char} (h : opensToken c = true) : c.toNat < 128 := by
  simp only [opensToken, startsIdent, startsNumber, Bool.or_eq_true, beq_iff_eq] at h
  obtain ((((h | rfl) | h | rfl) | h) | rfl) | rfl := h
  · exact toNat_lt_of_isLetter h
  · decide
  · exact Naming.toNat_lt_of_continuesName (by simp [Lua.Token.continuesName, Char.isAlphanum, h])
  · decide
  · exact toNat_lt_of_isPunct h
  · decide
  · decide

theorem gap_of_opensToken {c : Char} (h : opensToken c = true) (r : List Char) :
    gap (c :: r) = [] := by
  have hall := Naming.ascii_induction
    (p := fun c => !opensToken c || (!Text.isBlank c && c != '#')) (by decide)
    (toNat_lt_of_opensToken h)
  simp only [h, Bool.not_true, Bool.false_or, Bool.and_eq_true, Bool.not_eq_true', bne_iff_ne] at hall
  rw [gap, hall.1, if_neg (by decide), if_neg hall.2]

/-- What a character that opens a token says about the other ways to open one. -/
theorem opens_apart {c : Char} (h : opensToken c = true) :
    (startsNumber c = true → c ≠ '"' ∧ c ≠ '\'') ∧
    (startsIdent c = true → (c ≠ '"' ∧ c ≠ '\'') ∧ startsNumber c = false) ∧
    (isPunct c = true → (c ≠ '"' ∧ c ≠ '\'') ∧ startsNumber c = false ∧ startsIdent c = false) := by
  have hall := Naming.ascii_induction
    (p := fun c => (!startsNumber c || (c != '"' && c != '\'')) &&
      (!startsIdent c || (c != '"' && c != '\'' && !startsNumber c)) &&
      (!isPunct c || (c != '"' && c != '\'' && !startsNumber c && !startsIdent c)))
    (by decide) (toNat_lt_of_opensToken h)
  simp only [Bool.and_eq_true, Bool.or_eq_true, Bool.not_eq_true', bne_iff_ne, and_assoc] at hall
  obtain ⟨hnumber, hident, hpunct⟩ := hall
  grind

theorem numberTail_append {last : Char} {r rest : List Char} (h : numberTail last r = r)
    (hr : Stops (continuesNumber (r.getLastD last)) rest) : numberTail last (r ++ rest) = r := by
  induction r generalizing last with
  | nil =>
    cases rest with
    | nil => rfl
    | cons c rest =>
      have hc : continuesNumber last c = false := stops_cons.1 hr
      rw [List.nil_append, numberTail, hc]
      rfl
  | cons c r ih =>
    rw [numberTail] at h
    split at h
    · rename_i hc
      rw [List.getLastD_cons] at hr
      rw [List.cons_append, numberTail, if_pos hc, ih (List.cons.inj h).2 hr]
    · cases h

theorem readLiteral_escape {quote e : Char} {r : List Char} {b : UInt8} (hq : '\\' ≠ quote)
    (h : readEscape e r = .ok (b, 0)) :
    readLiteral quote ('\\' :: e :: r) =
      (readLiteral quote r).map (·.after [b] ['\\', e]) := by
  rw [readLiteral.eq_def]
  simp only [if_neg hq]
  rw [if_neg (by decide), if_pos trivial, h]
  rfl

/-- A text between quotes is read back. -/
theorem readLiteral_escaped {quote : Char} (hq : quote = '"' ∨ quote = '\'') (s rest : List Char) :
    readLiteral quote (s.flatMap (escapeChar quote) ++ quote :: rest) =
      .ok ⟨s.flatMap Text.Utf8.encodeChar, s.flatMap (escapeChar quote) ++ [quote], rest⟩ := by
  have hback : '\\' ≠ quote := by rcases hq with rfl | rfl <;> decide
  have hfeed : '\n' ≠ quote := by rcases hq with rfl | rfl <;> decide
  induction s with
  | nil =>
    rw [List.flatMap_nil, List.nil_append, readLiteral.eq_def]
    simp
  | cons c s ih =>
    simp only [List.flatMap_cons, List.append_assoc]
    generalize s.flatMap (escapeChar quote) ++ quote :: rest = tail at ih ⊢
    by_cases hb : c = '\\'
    · subst hb
      have he : readEscape '\\' tail = .ok (0x5C, 0) := rfl
      rw [escapeChar, if_pos rfl]
      exact (readLiteral_escape hback he).trans (by rw [ih]; rfl)
    by_cases hc : c = quote
    · subst hc
      have he : ∃ b, readEscape c tail = .ok (b, 0) ∧ Text.Utf8.encodeChar c = [b] := by
        rcases hq with rfl | rfl
        · exact ⟨0x22, rfl, rfl⟩
        · exact ⟨0x27, rfl, rfl⟩
      obtain ⟨b, he, hbyte⟩ := he
      rw [escapeChar, if_neg hb, if_pos rfl, hbyte]
      exact (readLiteral_escape hback he).trans (by rw [ih]; rfl)
    by_cases hn : c = '\n'
    · subst hn
      have he : readEscape 'n' tail = .ok (0x0A, 0) := rfl
      rw [escapeChar, if_neg hb, if_neg hc, if_pos rfl]
      exact (readLiteral_escape hback he).trans (by rw [ih]; rfl)
    · rw [escapeChar, if_neg hb, if_neg hc, if_neg hn, List.singleton_append, readLiteral.eq_def]
      simp only [if_neg hb, if_neg hc, if_neg hn]
      rw [ih]
      rfl

/-- What a token is written as is read as the token, if it does not run into what follows. -/
theorem lexeme_spelled {t : Token} {s rest : List Char} (hs : t.SpelledBy s)
    (hr : Stops (t.runsInto s) rest) :
    ∃ c r, s = c :: r ∧ opensToken c = true ∧ lexeme c (r ++ rest) = .ok ⟨t, s⟩ := by
  cases hs with
  | ident name h =>
    cases s with
    | nil => cases h
    | cons c r =>
      simp only [isIdent, Bool.and_eq_true, List.all_eq_true] at h
      have hopens : opensToken c = true := by simp [opensToken, h.1]
      obtain ⟨hquote, hnumber⟩ := (opens_apart hopens).2.1 h.1
      refine ⟨c, r, rfl, hopens, ?_⟩
      rw [lexeme, if_neg (not_or.2 hquote), if_neg (by simp [hnumber]), if_pos h.1,
        takeWhile_append_of_stops h.2 hr]
  | number text h =>
    cases s with
    | nil => cases h
    | cons c r =>
      simp only [isNumber, Bool.and_eq_true, beq_iff_eq] at h
      have hopens : opensToken c = true := by simp [opensToken, h.1]
      have hquote := (opens_apart hopens).1 h.1
      have hstops : Stops (continuesNumber ((c :: r).getLastD '0')) rest := hr
      rw [List.getLastD_cons] at hstops
      refine ⟨c, r, rfl, hopens, ?_⟩
      rw [lexeme, if_neg (not_or.2 hquote), if_pos h.1, numberTail_append h.2 hstops]
  | @str quote hq text =>
    have hopens : opensToken quote = true := by rcases hq with rfl | rfl <;> rfl
    refine ⟨quote, _, rfl, hopens, ?_⟩
    rw [List.append_assoc, List.singleton_append, lexeme, if_pos hq, readLiteral_escaped hq]
    simp only [Except.map, Text.Utf8.decodeLossy_encode, String.ofList_toList]
  | @punct c h =>
    have hopens : opensToken c = true := by simp [opensToken, h]
    obtain ⟨hquote, hnumber, hident⟩ := (opens_apart hopens).2.2 h
    refine ⟨c, [], rfl, hopens, ?_⟩
    rw [lexeme, if_neg (not_or.2 hquote), if_neg (by simp [hnumber]), if_neg (by simp [hident]),
      if_pos h]

/-- A text that spells tokens is read as these tokens. -/
theorem scan_spelled {pos : Pos} {ts : List Placed} {s : List Char} (h : Spelled pos ts s) :
    scan pos s = .ok ts := by
  induction h with
  | @nil pos g h =>
    have := scan_append_gap h pos []
    rwa [List.append_nil, scan_nil] at this
  | @comment pos g line h hl => rw [scan_append_gap h, scan_comment hl]
  | @cons pos g s rest t ts hg hs hr _ ih =>
    obtain ⟨c, r, rfl, hopens, hlexeme⟩ := lexeme_spelled hs hr
    have hscan := scan_lexeme (gap_of_opensToken hopens (r ++ rest)) hlexeme rfl (pos.afterText g)
    rw [scan_append_gap hg, List.cons_append, hscan, ih]
    rfl

end OpStubs.TextFormat
