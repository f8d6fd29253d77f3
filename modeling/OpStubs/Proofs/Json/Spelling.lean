import OpStubs.Json.Lexer
import OpStubs.Number.Decimal
import OpStubs.Proofs.Stops

namespace OpStubs.Json

def IsDigits (s : List Char) : Prop := s ≠ [] ∧ ∀ c ∈ s, c.isDigit = true

/-- Whether digits stand before a point as JSON has them: a zero stands alone. -/
def IsWhole (s : List Char) : Prop := IsDigits s ∧ (s.head? = some '0' → s = ['0'])

instance (s : List Char) : Decidable (IsDigits s) :=
  decidable_of_iff (s ≠ [] ∧ s.all Char.isDigit = true) (by rw [IsDigits, List.all_eq_true])

instance (s : List Char) : Decidable (IsWhole s) := inferInstanceAs (Decidable (_ ∧ _))

inductive PartSpelledBy : Option (List Char) → List Char → Prop
  | absent : PartSpelledBy none []
  | digits {s : List Char} (h : IsDigits s) : PartSpelledBy (some s) ('.' :: s)

inductive SignSpelledBy : Bool → List Char → Prop
  | absent : SignSpelledBy false []
  | plus : SignSpelledBy false ['+']
  | minus : SignSpelledBy true ['-']

inductive PowerSpelledBy : Option (Bool × List Char) → List Char → Prop
  | absent : PowerSpelledBy none []
  | digits {e : Char} {negative : Bool} {sign s : List Char} (he : e = 'e' ∨ e = 'E')
    (hs : SignSpelledBy negative sign) (h : IsDigits s) :
    PowerSpelledBy (some (negative, s)) (e :: (sign ++ s))

def minusText (negative : Bool) : List Char := if negative then ['-'] else []

theorem signSpelledBy_minusText (negative : Bool) : SignSpelledBy negative (minusText negative) := by
  cases negative with
  | false => exact .absent
  | true => exact .minus

/-- Whether a text is a way to write a number. -/
inductive Numeral.SpelledBy : Numeral → List Char → Prop
  | mk (negative : Bool) {whole partText powerText : List Char} {part : Option (List Char)}
    {power : Option (Bool × List Char)} (hwhole : IsWhole whole)
    (hpart : PartSpelledBy part partText) (hpower : PowerSpelledBy power powerText) :
    SpelledBy ⟨negative, whole, part, power⟩
      (minusText negative ++ (whole ++ (partText ++ powerText)))

/-- The unit of the first half of a character behind the first plane, and that of the second. -/
def highUnit (c : Char) : Nat := 0xD800 + (c.toNat - 0x10000) / 0x400

def lowUnit (c : Char) : Nat := 0xDC00 + (c.toNat - 0x10000) % 0x400

/-- Whether a text is a way to write some characters in a string. -/
inductive Content : List Char → List Char → Prop
  | nil : Content [] []
  | plain {c : Char} {s w : List Char} (hc : 0x20 ≤ c.toNat ∧ c ≠ '"' ∧ c ≠ '\\')
    (h : Content s w) : Content (c :: s) (c :: w)
  | named {e c : Char} {s w : List Char} (he : namedEscape? e = some c) (h : Content s w) :
    Content (c :: s) ('\\' :: e :: w)
  | unit {x y z t c : Char} {s w : List Char} (hu : hexUnit? x y z t = some c.toNat)
    (h : Content s w) : Content (c :: s) ('\\' :: 'u' :: x :: y :: z :: t :: w)
  | pair {x y z t x' y' z' t' c : Char} {s w : List Char} (hc : 0x10000 ≤ c.toNat)
    (hu : hexUnit? x y z t = some (highUnit c)) (hl : hexUnit? x' y' z' t' = some (lowUnit c))
    (h : Content s w) :
    Content (c :: s) ('\\' :: 'u' :: x :: y :: z :: t :: '\\' :: 'u' :: x' :: y' :: z' :: t' :: w)

/-- Whether a text is a way to write a string piece by piece, where halves of characters may stand
alone. -/
inductive PiecesSpelledBy : List Piece → List Char → Prop
  | nil : PiecesSpelledBy [] []
  | plain {c : Char} {p : List Piece} {w : List Char}
    (hc : 0x20 ≤ c.toNat ∧ c ≠ '"' ∧ c ≠ '\\') (h : PiecesSpelledBy p w) :
    PiecesSpelledBy (.char c :: p) (c :: w)
  | named {e c : Char} {p : List Piece} {w : List Char} (he : namedEscape? e = some c)
    (h : PiecesSpelledBy p w) : PiecesSpelledBy (.char c :: p) ('\\' :: e :: w)
  | unit {x y z t : Char} {n : Nat} {p : List Piece} {w : List Char}
    (hu : hexUnit? x y z t = some n) (h : PiecesSpelledBy p w) :
    PiecesSpelledBy (.unit n :: p) ('\\' :: 'u' :: x :: y :: z :: t :: w)

/-- Whether a text is a way to write a token. -/
inductive Token.SpelledBy : Token → List Char → Prop
  | punct {c : Char} (h : isPunct c = true) : SpelledBy (.punct c) [c]
  | null : SpelledBy .null ['n', 'u', 'l', 'l']
  | yes : SpelledBy (.bool true) ['t', 'r', 'u', 'e']
  | no : SpelledBy (.bool false) ['f', 'a', 'l', 's', 'e']
  | number {n : Numeral} {s : List Char} (h : n.SpelledBy s) : SpelledBy (.number n) s
  | string {s w : List Char} (h : Content s w) : SpelledBy (.string (.ok s)) ('"' :: (w ++ ['"']))
  | halved {p : List Piece} {w : List Char} (hp : PiecesSpelledBy p w) (h : ∀ s, ¬ Content s w) :
    SpelledBy (.string (.error .malformed)) ('"' :: (w ++ ['"']))

/-- Whether a character would go on with a number. -/
def continuesNumeral (c : Char) : Bool := c.isDigit || c == '.' || c == 'e' || c == 'E'

/-- Whether a token would run on into a character behind it. -/
def Token.runsInto (t : Token) (c : Char) : Bool :=
  match t with
  | .number _ => continuesNumeral c
  | _ => false

/-- Whether a text is a way to write some tokens, with blanks where they would run together. -/
inductive Spelled : List Token → List Char → Prop
  | nil {g : List Char} (hg : ∀ c ∈ g, isBlank c = true) : Spelled [] g
  | cons {g s rest : List Char} {t : Token} {ts : List Token} (hg : ∀ c ∈ g, isBlank c = true)
    (hs : t.SpelledBy s) (hr : Stops t.runsInto rest) (h : Spelled ts rest) :
    Spelled (t :: ts) (g ++ (s ++ rest))

section
variable {s rest : List Char}

theorem dropWhile_append_of_stops {p : Char → Bool} (h : ∀ c ∈ s, p c = true)
    (hr : Stops p rest) : (s ++ rest).dropWhile p = rest := by
  rw [List.dropWhile_append_of_pos h]
  cases rest with
  | nil => rfl
  | cons c r =>
    rw [stops_cons] at hr
    simp [hr]

theorem stops_of_continues {p : Char → Bool} (h : Stops continuesNumeral rest)
    (hp : ∀ c, p c = true → continuesNumeral c = true) : Stops p rest := by
  intro c hc
  cases hpc : p c with
  | false => rfl
  | true =>
    have hcont := hp c hpc
    rw [h c hc] at hcont
    cases hcont

theorem stops_isDigit (h : Stops continuesNumeral rest) : Stops Char.isDigit rest :=
  stops_of_continues h fun c hc => by simp [continuesNumeral, hc]

theorem IsDigits.head {s : List Char} (h : IsDigits s) :
    ∃ c r, s = c :: r ∧ c.isDigit = true := by
  obtain ⟨hne, hdigits⟩ := h
  cases s with
  | nil => exact absurd rfl hne
  | cons c r => exact ⟨c, r, rfl, hdigits c (by simp)⟩

theorem readWhole_append (h : IsWhole s) (hr : Stops Char.isDigit rest) :
    readWhole (s ++ rest) = .ok (s, rest) := by
  obtain ⟨⟨hne, hdigits⟩, hzero⟩ := h
  unfold readWhole
  rw [takeWhile_append_of_stops hdigits hr, dropWhile_append_of_stops hdigits hr]
  dsimp only
  split
  · exact absurd rfl hne
  · have hone := hzero rfl
    cases hone
  · rfl

theorem readPart_append {part : Option (List Char)} (h : PartSpelledBy part s)
    (hr : Stops Char.isDigit rest) (hpoint : Stops (· == '.') rest) :
    readPart (s ++ rest) = .ok (part, rest) := by
  cases h with
  | absent =>
    rw [List.nil_append, readPart.eq_def]
    split
    · rw [stops_cons] at hpoint
      cases hpoint
    · rfl
  | digits h =>
    rw [List.cons_append, readPart, takeWhile_append_of_stops h.2 hr,
      dropWhile_append_of_stops h.2 hr, if_neg h.1]

theorem readSign_append {negative : Bool} {sign : List Char} (h : SignSpelledBy negative sign)
    (hs : IsDigits s) : readSign (sign ++ (s ++ rest)) = (negative, s ++ rest) := by
  cases h with
  | absent =>
    obtain ⟨c, r, rfl, hc⟩ := hs.head
    rw [List.nil_append, List.cons_append, readSign.eq_def]
    split
    · rename_i heq
      injection heq with hc'
      subst hc'
      cases hc
    · rename_i heq
      injection heq with hc'
      subst hc'
      cases hc
    · rfl
  | plus => rfl
  | minus => rfl

/-- Signs in front of other numbers are read in the same way. -/
theorem splitSign_append {negative : Bool} {sign : List Char} (h : SignSpelledBy negative sign)
    (hs : IsDigits s) : Number.splitSign (sign ++ (s ++ rest)) = (negative, s ++ rest) :=
  readSign_append h hs

theorem readPower_append {power : Option (Bool × List Char)} (h : PowerSpelledBy power s)
    (hr : Stops continuesNumeral rest) : readPower (s ++ rest) = .ok (power, rest) := by
  cases h with
  | absent =>
    cases rest with
    | nil => rfl
    | cons c r =>
      rw [stops_cons] at hr
      have hc : ¬(c = 'e' ∨ c = 'E') := by
        rintro (rfl | rfl) <;> cases hr
      rw [List.nil_append, readPower, if_neg hc]
  | @digits e negative sign s he hs h =>
    have hd := stops_isDigit hr
    rw [List.cons_append, readPower, if_pos he, List.append_assoc, readSign_append hs h]
    dsimp only
    rw [takeWhile_append_of_stops h.2 hd, dropWhile_append_of_stops h.2 hd, if_neg h.1]

theorem stops_powerText {power : Option (Bool × List Char)} (h : PowerSpelledBy power s)
    (hr : Stops continuesNumeral rest) (p : Char → Bool)
    (hp : ∀ c, p c = true → continuesNumeral c = true) (he : p 'e' = false) (hE : p 'E' = false) :
    Stops p (s ++ rest) := by
  cases h with
  | absent => exact stops_of_continues hr hp
  | digits hmark _ _ =>
    rw [List.cons_append, stops_cons]
    rcases hmark with rfl | rfl
    · exact he
    · exact hE

theorem readNumeral_append {n : Numeral} (h : n.SpelledBy s)
    (hr : Stops continuesNumeral rest) : readNumeral (s ++ rest) = .ok (n, rest) := by
  cases h with
  | @mk negative whole partText powerText part power hwhole hpart hpower =>
    have hpowerDigit : Stops Char.isDigit (powerText ++ rest) :=
      stops_powerText hpower hr _ (fun c hc => by simp [continuesNumeral, hc]) rfl rfl
    have hpowerPoint : Stops (· == '.') (powerText ++ rest) :=
      stops_powerText hpower hr _ (fun c hc => by simp [continuesNumeral, hc]) rfl rfl
    have hpartDigit : Stops Char.isDigit (partText ++ (powerText ++ rest)) := by
      cases hpart with
      | absent => exact hpowerDigit
      | digits _ => exact stops_cons.2 rfl
    have hunsigned : readWhole (whole ++ (partText ++ (powerText ++ rest))) =
        .ok (whole, partText ++ (powerText ++ rest)) := readWhole_append hwhole hpartDigit
    have hrest := readPart_append hpart hpowerDigit hpowerPoint
    have hend := readPower_append hpower hr
    simp only [List.append_assoc]
    unfold readNumeral
    split
    rename_i negative' s' hsign
    have hsplit : (negative', s') = (negative, whole ++ (partText ++ (powerText ++ rest))) := by
      rw [← hsign]
      cases negative with
      | true => rfl
      | false =>
        obtain ⟨c, r, rfl, hc⟩ := hwhole.1.head
        simp only [minusText, Bool.false_eq_true, if_false, List.nil_append, List.cons_append]
        split
        · rename_i heq
          injection heq with hc'
          subst hc'
          cases hc
        · rfl
    cases hsplit
    simp only [bind, Except.bind, hunsigned, hrest, hend]
    rfl

theorem scanString_plain {c : Char} (hc : 0x20 ≤ c.toNat ∧ c ≠ '"' ∧ c ≠ '\\') (r : List Char) :
    scanString (c :: r) = (.char c :: (scanString r).1, (scanString r).2) := by
  obtain ⟨hlow, hquote, hback⟩ := hc
  rw [scanString.eq_def]
  split
  · rename_i heq
    cases heq
  · rename_i heq
    cases heq
    exact absurd rfl hquote
  · rename_i heq
    cases heq
    exact absurd rfl hback
  · rename_i heq
    cases heq
    exact absurd rfl hback
  · rename_i heq
    cases heq
    exact absurd rfl hback
  · rename_i heq
    cases heq
    exact absurd rfl hback
  · rename_i heq
    cases heq
    rw [if_neg (by omega)]

theorem scanString_named {e c : Char} (he : namedEscape? e = some c) (r : List Char) :
    scanString ('\\' :: e :: r) = (.char c :: (scanString r).1, (scanString r).2) := by
  have hu : e ≠ 'u' := by
    rintro rfl
    cases he
  rw [scanString.eq_def]
  split
  · rename_i heq
    cases heq
  · rename_i heq
    cases heq
  · rename_i heq
    cases heq
    exact absurd rfl hu
  · rename_i heq
    cases heq
    exact absurd rfl hu
  · rename_i heq
    cases heq
    rw [he]
  · rename_i heq
    cases heq
  · rename_i hnamed _ heq
    cases heq
    exact (hnamed e r rfl rfl).elim

theorem scanString_unit {x y z t : Char} {n : Nat} (h : hexUnit? x y z t = some n)
    (r : List Char) : scanString ('\\' :: 'u' :: x :: y :: z :: t :: r) =
      (.unit n :: (scanString r).1, (scanString r).2) := by
  rw [scanString.eq_def]
  simp only [h]

theorem joinPieces_unit (c : Char) (after : Fault) (pieces : List Piece) :
    joinPieces after (.unit c.toNat :: pieces) = (joinPieces after pieces).map (c :: ·) := by
  have hvalid : c.toNat < 0xD800 ∨ (0xDFFF < c.toNat ∧ c.toNat < 0x110000) := c.valid
  have hlow : isLow c.toNat = false := by
    simp only [isLow, Bool.and_eq_false_iff, decide_eq_false_iff_not]
    omega
  have hhigh : isHigh c.toNat = false := by
    simp only [isHigh, Bool.and_eq_false_iff, decide_eq_false_iff_not]
    omega
  rw [joinPieces.eq_def]
  simp only [hlow, hhigh, Char.ofNat_toNat, Bool.false_eq_true, if_false]

theorem joinPieces_pair {c : Char} (hc : 0x10000 ≤ c.toNat) (after : Fault)
    (pieces : List Piece) : joinPieces after (.unit (highUnit c) :: .unit (lowUnit c) :: pieces) =
      (joinPieces after pieces).map (c :: ·) := by
  have hvalid : c.toNat < 0xD800 ∨ (0xDFFF < c.toNat ∧ c.toNat < 0x110000) := c.valid
  have hfirst : 0xD800 ≤ highUnit c ∧ highUnit c ≤ 0xDBFF := by
    unfold highUnit
    omega
  have hsecond : 0xDC00 ≤ lowUnit c ∧ lowUnit c ≤ 0xDFFF := by
    unfold lowUnit
    omega
  have hnotLow : isLow (highUnit c) = false := by
    simp only [isLow, Bool.and_eq_false_iff, decide_eq_false_iff_not]
    omega
  have hhigh : isHigh (highUnit c) = true := by simp [isHigh, hfirst]
  have hlow : isLow (lowUnit c) = true := by simp [isLow, hsecond]
  have hvalue : (highUnit c - 0xD800) * 0x400 + (lowUnit c - 0xDC00) + 0x10000 = c.toNat := by
    unfold highUnit lowUnit
    omega
  rw [joinPieces.eq_def]
  simp only [hnotLow, hhigh, hlow, hvalue, Char.ofNat_toNat, Bool.false_eq_true, if_false, if_true]

theorem hexDigit?_lt {c : Char} {d : Nat} (h : Text.hexDigit? c = some d) : d < 16 := by
  have hle {a b : Char} (h : a ≤ b) : a.toNat ≤ b.toNat := h
  unfold Text.hexDigit? at h
  split at h
  case isTrue hc =>
    cases h
    simp only [Char.isDigit, Bool.and_eq_true, decide_eq_true_eq] at hc
    have hlast := hle hc.2
    simp only [Char.reduceToNat] at hlast ⊢
    omega
  case isFalse =>
    split at h
    case isTrue hc =>
      cases h
      have hlast := hle hc.2
      simp only [Char.reduceToNat] at hlast ⊢
      omega
    case isFalse =>
      split at h
      case isTrue hc =>
        cases h
        have hlast := hle hc.2
        simp only [Char.reduceToNat] at hlast ⊢
        omega
      case isFalse => cases h

theorem hexUnit?_lt {x y z t : Char} {n : Nat} (h : hexUnit? x y z t = some n) : n < 0x10000 := by
  simp only [hexUnit?, List.mapM_cons, List.mapM_nil, Option.map_eq_some_iff, Option.bind_eq_bind,
    Option.bind_eq_some_iff, Option.pure_def, Option.some.injEq] at h
  obtain ⟨_, ⟨a, ha, _, ⟨b, hb, _, ⟨c, hc, _, ⟨d, hd, _, rfl, rfl⟩, rfl⟩, rfl⟩, rfl⟩, rfl⟩ := h
  have ha := hexDigit?_lt ha
  have hb := hexDigit?_lt hb
  have hc := hexDigit?_lt hc
  have hd := hexDigit?_lt hd
  simp only [Text.ofDigits, List.foldl_cons, List.foldl_nil]
  omega

theorem scanString_pieces {p : List Piece} {w : List Char} (h : PiecesSpelledBy p w)
    (rest : List Char) : scanString (w ++ '"' :: rest) = (p, .closed rest) := by
  induction h with
  | nil => rw [List.nil_append, scanString]
  | plain hc _ ih => rw [List.cons_append, scanString_plain hc, ih]
  | named he _ ih => rw [List.cons_append, List.cons_append, scanString_named he, ih]
  | unit hu _ ih =>
    simp only [List.cons_append]
    rw [scanString_unit hu, ih]

/-- A string is read back, whatever its escapes. -/
theorem exists_pieces {s w : List Char} (h : Content s w) :
    ∃ p, PiecesSpelledBy p w ∧ joinPieces .malformed p = .ok s := by
  induction h with
  | nil => exact ⟨[], .nil, rfl⟩
  | @plain c s w hc _ ih =>
    obtain ⟨p, hp, hjoin⟩ := ih
    refine ⟨.char c :: p, .plain hc hp, ?_⟩
    rw [joinPieces, hjoin]
    rfl
  | @named e c s w he _ ih =>
    obtain ⟨p, hp, hjoin⟩ := ih
    refine ⟨.char c :: p, .named he hp, ?_⟩
    rw [joinPieces, hjoin]
    rfl
  | @unit x y z t c s w hu _ ih =>
    obtain ⟨p, hp, hjoin⟩ := ih
    refine ⟨.unit c.toNat :: p, .unit hu hp, ?_⟩
    rw [joinPieces_unit, hjoin]
    rfl
  | @pair x y z t x' y' z' t' c s w hc hu hl _ ih =>
    obtain ⟨p, hp, hjoin⟩ := ih
    refine ⟨.unit (highUnit c) :: .unit (lowUnit c) :: p, .unit hu (.unit hl hp), ?_⟩
    rw [joinPieces_pair hc, hjoin]
    rfl

theorem map_cons_eq_ok_iff {x : Except Fault (List Char)} {c : Char} {s : List Char} :
    x.map (c :: ·) = .ok s ↔ ∃ r, x = .ok r ∧ s = c :: r := by
  cases x with
  | error e => simp [Except.map]
  | ok r => simp [Except.map, eq_comm]

theorem toNat_ofNat_of_lt {n : Nat} (h : n.isValidChar) : (Char.ofNat n).toNat = n :=
  by
  rw [Char.ofNat, dif_pos h]
  rfl

theorem content_of_pieces {p : List Piece} {w s : List Char} (h : PiecesSpelledBy p w)
    (hjoin : joinPieces .malformed p = .ok s) : Content s w := by
  fun_induction joinPieces .malformed p generalizing w s with
  | case1 =>
    cases h
    cases hjoin
    exact .nil
  | case2 c p ih =>
    obtain ⟨r, hr, rfl⟩ := map_cons_eq_ok_iff.1 hjoin
    cases h with
    | plain hc h => exact .plain hc (ih h hr)
    | named he h => exact .named he (ih h hr)
  | case3 => cases hjoin
  | case4 => cases hjoin
  | case5 => cases hjoin
  | case6 n hnotLow hhigh m p hlow ih =>
    obtain ⟨r, hr, rfl⟩ := map_cons_eq_ok_iff.1 hjoin
    cases h with
    | unit hu h => cases h with
      | unit hl h =>
        simp only [isHigh, isLow, Bool.and_eq_true, decide_eq_true_eq] at hhigh hlow
        obtain ⟨hfirst, hlast⟩ := hhigh
        have hvalid : ((n - 0xD800) * 0x400 + (m - 0xDC00) + 0x10000).isValidChar := by
          right
          omega
        have hcode := toNat_ofNat_of_lt hvalid
        generalize Char.ofNat ((n - 0xD800) * 0x400 + (m - 0xDC00) + 0x10000) = c at hcode ⊢
        have hn : n = highUnit c := by
          unfold highUnit
          omega
        have hm : m = lowUnit c := by
          unfold lowUnit
          omega
        exact .pair (by omega) (hn ▸ hu) (hm ▸ hl) (ih h hr)
  | case7 => cases hjoin
  | case8 n p hnotLow hnotHigh ih =>
    obtain ⟨r, hr, rfl⟩ := map_cons_eq_ok_iff.1 hjoin
    cases h with
    | unit hu h =>
      have hlt := hexUnit?_lt hu
      simp only [isHigh, isLow, Bool.and_eq_true, decide_eq_true_eq, not_and, Nat.not_le]
        at hnotLow hnotHigh
      refine .unit ?_ (ih h hr)
      rw [hu, toNat_ofNat_of_lt]
      unfold Nat.isValidChar
      omega

theorem joinPieces_error {p : List Piece} {f : Fault} (h : joinPieces .malformed p = .error f) :
    f = .malformed := by
  have hmap {x : Except Fault (List Char)} {c : Char} (h : x.map (c :: ·) = .error f) :
      x = .error f := by
    cases x with
    | error e => exact h
    | ok r => cases h
  fun_induction joinPieces .malformed p with
  | case1 => cases h
  | case2 c p ih => exact ih (hmap h)
  | case6 n hnotLow hhigh m p hlow ih => exact ih (hmap h)
  | case8 n p hnotLow hnotHigh ih => exact ih (hmap h)
  | _ =>
    cases h
    rfl

theorem wordToken_append (t : Token) (word rest : List Char) :
    wordToken t word (word ++ rest) = (t, rest) := by
  induction word with
  | nil => rw [List.nil_append, wordToken.eq_def]
  | cons c word ih => rw [List.cons_append, wordToken, if_pos rfl, ih]

theorem token_punct {c : Char} (h : c ∈ "[]\x7b\x7d,:".toList) (r : List Char) :
    isBlank c = false ∧ token c r = (.punct c, r) := by
  have hmem : c = '[' ∨ c = ']' ∨ c = '\x7b' ∨ c = '\x7d' ∨ c = ',' ∨ c = ':' := by
    simpa using h
  rcases hmem with rfl | rfl | rfl | rfl | rfl | rfl <;> exact ⟨rfl, rfl⟩

theorem Numeral.SpelledBy.head {n : Numeral} (h : n.SpelledBy s) :
    ∃ c r, s = c :: r ∧ (c.isDigit = true ∨ c = '-') := by
  cases h with
  | mk negative hwhole _ _ =>
    cases negative with
    | true => exact ⟨'-', _, rfl, .inr rfl⟩
    | false =>
      obtain ⟨c, r, rfl, hc⟩ := hwhole.1.head
      exact ⟨c, _, rfl, .inl hc⟩

theorem apart_of_opensNumeral {c : Char} (h : c.isDigit = true ∨ c = '-') :
    c ≠ '"' ∧ isBlank c = false := by
  have hne (d : Char) (hd : d.isDigit = false) (hminus : d ≠ '-') : c ≠ d := by
    rintro rfl
    rcases h with h | h
    · rw [hd] at h
      cases h
    · exact hminus h
  refine ⟨hne '"' rfl (by decide), ?_⟩
  simp [isBlank, hne ' ' rfl (by decide), hne '\n' rfl (by decide), hne '\t' rfl (by decide),
    hne '\r' rfl (by decide)]

/-- What a token is written as is read as the token, if it does not run into what follows. -/
theorem token_spelled {t : Token} (hs : t.SpelledBy s) (hr : Stops t.runsInto rest) :
    ∃ c r, s = c :: r ∧ isBlank c = false ∧ token c (r ++ rest) = (t, rest) := by
  cases hs with
  | @punct c h =>
    simp only [isPunct, List.contains_iff_mem] at h
    exact ⟨c, [], rfl, token_punct h rest⟩
  | null => exact ⟨'n', _, rfl, rfl, wordToken_append .null "ull".toList rest⟩
  | yes => exact ⟨'t', _, rfl, rfl, wordToken_append (.bool true) "rue".toList rest⟩
  | no => exact ⟨'f', _, rfl, rfl, wordToken_append (.bool false) "alse".toList rest⟩
  | @number n s h =>
    have hread := readNumeral_append h hr
    obtain ⟨c, r, rfl, hc⟩ := h.head
    obtain ⟨hquote, hblank⟩ := apart_of_opensNumeral hc
    refine ⟨c, r, rfl, hblank, ?_⟩
    rw [token, if_neg hquote, if_pos hc, numberToken, ← List.cons_append, hread]
  | @string s w h =>
    obtain ⟨p, hp, hjoin⟩ := exists_pieces h
    refine ⟨'"', _, rfl, rfl, ?_⟩
    rw [token, if_pos rfl, stringToken, List.append_assoc, List.singleton_append,
      scanString_pieces hp]
    simp only [hjoin]
  | @halved p w hp h =>
    refine ⟨'"', _, rfl, rfl, ?_⟩
    have hjoin : joinPieces .malformed p = .error .malformed := by
      cases hjoin : joinPieces .malformed p with
      | ok s => exact absurd (content_of_pieces hp hjoin) (h s)
      | error f => rw [joinPieces_error hjoin]
    rw [token, if_pos rfl, stringToken, List.append_assoc, List.singleton_append,
      scanString_pieces hp]
    simp only [hjoin]

theorem tokens_blanks {g : List Char} (hg : ∀ c ∈ g, isBlank c = true) (rest : List Char) :
    tokens (g ++ rest) = tokens rest := by
  induction g with
  | nil => rfl
  | cons c g ih =>
    rw [List.cons_append, tokens, if_pos (hg c (by simp))]
    exact ih fun d hd => hg d (by simp [hd])

/-- A text that spells tokens is read as these tokens. -/
theorem tokens_spelled {ts : List Token} (h : Spelled ts s) : tokens s = ts := by
  induction h with
  | @nil g hg =>
    have hnil := tokens_blanks hg []
    rwa [List.append_nil, tokens] at hnil
  | @cons g s rest t ts hg hs hr _ ih =>
    obtain ⟨c, r, rfl, hblank, htoken⟩ := token_spelled hs hr
    rw [tokens_blanks hg, List.cons_append, tokens, hblank, htoken, ih]
    rfl

end

end OpStubs.Json
