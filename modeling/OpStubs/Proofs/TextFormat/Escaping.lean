import OpStubs.Proofs.TextFormat.SplitString

namespace OpStubs.TextFormat

open Text.Utf8 (decodeLossy encodeChar)

/-- The escapes of one character, as in C. -/
def namedEscapes : List (Char × UInt8) :=
  [('a', 7), ('b', 8), ('t', 9), ('n', 10), ('v', 11), ('f', 12), ('r', 13), ('"', 34), ('\'', 39),
    ('?', 63), ('\\', 92)]

/-- Whether a text is a way to write some bytes between quotes, whatever follows it. -/
inductive Segment (quote : Char) : List UInt8 → List Char → Prop
  | raw {c : Char} (hquote : c ≠ quote) (hescape : c ≠ '\\') (hfeed : c ≠ '\n') :
    Segment quote (encodeChar c) [c]
  | named {c : Char} {b : UInt8} (h : (c, b) ∈ namedEscapes) : Segment quote [b] ['\\', c]
  | hex {mark c d : Char} {v w : Nat} (hmark : mark = 'x' ∨ mark = 'X')
    (hc : Text.hexDigit? c = some v) (hd : Text.hexDigit? d = some w) :
    Segment quote [UInt8.ofNat (16 * v + w)] ['\\', mark, c, d]
  | octal {c d e : Char} {u v w : Nat} (hc : Text.octalDigit? c = some u)
    (hd : Text.octalDigit? d = some v) (he : Text.octalDigit? e = some w)
    (hbyte : 64 * u + 8 * v + w ≤ 255) :
    Segment quote [UInt8.ofNat (64 * u + 8 * v + w)] ['\\', c, d, e]

/-- Whether a text is a way to write a byte behind which no more digits may stand. -/
inductive ShortEscape : UInt8 → List Char → (Char → Option Nat) → Prop
  | hex {mark c : Char} {v : Nat} (hmark : mark = 'x' ∨ mark = 'X')
    (hc : Text.hexDigit? c = some v) : ShortEscape (UInt8.ofNat v) ['\\', mark, c] Text.hexDigit?
  | oneOctal {c : Char} {v : Nat} (hc : Text.octalDigit? c = some v) :
    ShortEscape (UInt8.ofNat v) ['\\', c] Text.octalDigit?
  | twoOctal {c d : Char} {v w : Nat} (hc : Text.octalDigit? c = some v)
    (hd : Text.octalDigit? d = some w) :
    ShortEscape (UInt8.ofNat (8 * v + w)) ['\\', c, d] Text.octalDigit?

/-- Whether a text between quotes and in front of `rest` is a way to write some bytes. -/
inductive Content (quote : Char) : List UInt8 → List Char → List Char → Prop
  | nil {rest : List Char} : Content quote [] [] rest
  | segment {b bytes : List UInt8} {s text rest : List Char} (hs : Segment quote b s)
    (h : Content quote bytes text rest) : Content quote (b ++ bytes) (s ++ text) rest
  | short {b : UInt8} {bytes : List UInt8} {s text rest : List Char} {digit? : Char → Option Nat}
    (hs : ShortEscape b s digit?) (hstops : Stops (fun c => (digit? c).isSome) (text ++ rest))
    (h : Content quote bytes text rest) : Content quote (b :: bytes) (s ++ text) rest

/-- Whether a literal cannot go on with a text, and why. -/
inductive Fault : Cause → List Char → Prop
  | feed (rest : List Char) : Fault .newlineInString ('\n' :: rest)
  | ended : Fault .unterminatedString []
  | endedEscape : Fault .unterminatedString ['\\']
  | unknown {c : Char} (hmark : ¬(c = 'x' ∨ c = 'X')) (hdigit : Text.octalDigit? c = none)
    (hnamed : ∀ b, (c, b) ∉ namedEscapes) (rest : List Char) :
    Fault (.unknownEscape c) ('\\' :: c :: rest)
  | noDigit {mark : Char} {rest : List Char} (hmark : mark = 'x' ∨ mark = 'X')
    (hstops : Stops (fun c => (Text.hexDigit? c).isSome) rest) :
    Fault .invalidHexEscape ('\\' :: mark :: rest)
  | large {c d e : Char} {u v w : Nat} (hc : Text.octalDigit? c = some u)
    (hd : Text.octalDigit? d = some v) (he : Text.octalDigit? e = some w)
    (hbyte : 255 < 64 * u + 8 * v + w) (rest : List Char) :
    Fault .invalidOctalEscape ('\\' :: c :: d :: e :: rest)

theorem namedEscape?_eq_some_iff {c : Char} {b : UInt8} :
    namedEscape? c = some b ↔ (c, b) ∈ namedEscapes := by
  constructor
  · intro h
    unfold namedEscape? at h
    split at h <;> cases h <;> decide
  · intro h
    simp only [namedEscapes, List.mem_cons, Prod.mk.injEq, List.not_mem_nil, or_false] at h
    rcases h with ⟨rfl, rfl⟩ | ⟨rfl, rfl⟩ | ⟨rfl, rfl⟩ | ⟨rfl, rfl⟩ | ⟨rfl, rfl⟩ | ⟨rfl, rfl⟩ |
      ⟨rfl, rfl⟩ | ⟨rfl, rfl⟩ | ⟨rfl, rfl⟩ | ⟨rfl, rfl⟩ | ⟨rfl, rfl⟩ <;> rfl

/-- No escape by name is one of digits. -/
theorem apart_of_named {c : Char} {b : UInt8} (h : (c, b) ∈ namedEscapes) :
    ¬(c = 'x' ∨ c = 'X') ∧ Text.octalDigit? c = none := by
  have hall : ∀ p ∈ namedEscapes, ¬(p.1 = 'x' ∨ p.1 = 'X') ∧ Text.octalDigit? p.1 = none := by
    decide
  exact hall (c, b) h

theorem octalDigit?_le {c : Char} {v : Nat} (h : Text.octalDigit? c = some v) : v ≤ 7 := by
  unfold Text.octalDigit? at h
  split at h
  · rename_i hc
    simp only [Char.le_def, UInt32.le_iff_toNat_le] at hc
    have hhigh : c.toNat ≤ 55 := hc.2
    have hvalue : c.toNat - 48 = v := Option.some.inj h
    omega
  · cases h

theorem not_mark_of_octalDigit {c : Char} {v : Nat} (h : Text.octalDigit? c = some v) :
    ¬(c = 'x' ∨ c = 'X') := by
  rintro (rfl | rfl) <;> cases h

section Digits
variable {digit? : Char → Option Nat}

/-- The three ways in which a text begins with at most two digits. -/
theorem leadingDigits_two_cases (digit? : Char → Option Nat) (r : List Char) :
    (Text.leadingDigits digit? 2 r = [] ∧ Stops (fun c => (digit? c).isSome) r) ∨
    (∃ c v s, r = c :: s ∧ digit? c = some v ∧ Text.leadingDigits digit? 2 r = [v] ∧
      Stops (fun c => (digit? c).isSome) s) ∨
    (∃ c d v w s, r = c :: d :: s ∧ digit? c = some v ∧ digit? d = some w ∧
      Text.leadingDigits digit? 2 r = [v, w]) := by
  cases r with
  | nil => exact .inl ⟨rfl, stops_nil _⟩
  | cons c s =>
    cases hc : digit? c with
    | none =>
      refine .inl ⟨?_, stops_cons.2 (by rw [hc]; rfl)⟩
      simp [Text.leadingDigits, hc]
    | some v =>
      right
      cases s with
      | nil =>
        refine .inl ⟨c, v, [], rfl, hc, ?_, stops_nil _⟩
        simp [Text.leadingDigits, hc]
      | cons d s =>
        cases hd : digit? d with
        | none =>
          refine .inl ⟨c, v, d :: s, rfl, hc, ?_, stops_cons.2 (by rw [hd]; rfl)⟩
          simp [Text.leadingDigits, hc, hd]
        | some w =>
          refine .inr ⟨c, d, v, w, s, rfl, hc, hd, ?_⟩
          simp [Text.leadingDigits, hc, hd]

theorem isDigitsBefore_two {c d : Char} {v w : Nat} (hc : digit? c = some v)
    (hd : digit? d = some w) (rest : List Char) : IsDigitsBefore digit? 2 [c, d] [v, w] rest :=
  ⟨by simp [hc, hd], by simp, .inl rfl⟩

theorem isDigitsBefore_one {c : Char} {v : Nat} {rest : List Char} (hc : digit? c = some v)
    (hstops : Stops (fun c => (digit? c).isSome) rest) : IsDigitsBefore digit? 2 [c] [v] rest :=
  ⟨by simp [hc], by simp, .inr hstops⟩

theorem isDigitsBefore_none {rest : List Char}
    (hstops : Stops (fun c => (digit? c).isSome) rest) : IsDigitsBefore digit? 2 [] [] rest :=
  ⟨rfl, by simp, .inr hstops⟩

theorem ofDigits_two (base v w : Nat) : Text.ofDigits base [v, w] = base * v + w := by
  simp [Text.ofDigits, Nat.mul_comm]

theorem ofDigits_three (u v w : Nat) : Text.ofDigits 8 [u, v, w] = 64 * u + 8 * v + w := by
  simp only [Text.ofDigits, List.foldl_cons, List.foldl_nil]
  omega

end Digits

section Reading
variable {quote : Char} {b : UInt8} {bytes : List UInt8} {s rest : List Char}

theorem readEscape_named {c : Char} (h : (c, b) ∈ namedEscapes) (rest : List Char) :
    readEscape c rest = .ok (b, 0) := by
  obtain ⟨hmark, hdigit⟩ := apart_of_named h
  rw [readEscape, if_neg hmark, hdigit]
  simp only [namedEscape?_eq_some_iff.2 h]

/-- A segment is read as its bytes, and what follows as if the literal began there. -/
theorem readLiteral_segment (hq : quote = '"' ∨ quote = '\'') (h : Segment quote bytes s)
    (rest : List Char) :
    readLiteral quote (s ++ rest) = (readLiteral quote rest).map (·.after bytes s) := by
  have hback : '\\' ≠ quote := by rcases hq with rfl | rfl <;> decide
  cases h with
  | raw hquote hescape hfeed =>
    rw [List.singleton_append, readLiteral.eq_def]
    simp only [if_neg hquote, if_neg hfeed, if_neg hescape]
  | @named c b hc =>
    have hread : readEscape c ([] ++ rest) = .ok (b, 0) := readEscape_named hc rest
    exact readLiteral_taking hback hread
  | @hex mark c d v w hmark hc hd =>
    have hread := readEscape_hex hmark (isDigitsBefore_two hc hd rest) (by simp)
    rw [ofDigits_two] at hread
    exact readLiteral_taking hback hread
  | @octal c d e u v w hc hd he hbyte =>
    rw [← ofDigits_three] at hbyte ⊢
    exact readLiteral_taking hback (readEscape_octal hc (isDigitsBefore_two hd he rest) hbyte)

theorem readLiteral_short {digit? : Char → Option Nat} (hq : quote = '"' ∨ quote = '\'')
    (h : ShortEscape b s digit?) (hstops : Stops (fun c => (digit? c).isSome) rest) :
    readLiteral quote (s ++ rest) = (readLiteral quote rest).map (·.after [b] s) := by
  have hback : '\\' ≠ quote := by rcases hq with rfl | rfl <;> decide
  cases h with
  | @hex mark c v hmark hc =>
    have hread := readEscape_hex hmark (isDigitsBefore_one hc hstops) (by simp)
    have hvalue : Text.ofDigits 16 [v] = v := by simp [Text.ofDigits]
    rw [hvalue] at hread
    exact readLiteral_taking hback hread
  | @oneOctal c v hc =>
    have hle := octalDigit?_le hc
    have hvalue : Text.ofDigits 8 [v] = v := by simp [Text.ofDigits]
    have hread := readEscape_octal hc (isDigitsBefore_none hstops) (by rw [hvalue]; omega)
    rw [hvalue] at hread
    exact readLiteral_taking hback hread
  | @twoOctal c d v w hc hd =>
    have hv := octalDigit?_le hc
    have hw := octalDigit?_le hd
    have hread := readEscape_octal hc (isDigitsBefore_one hd hstops)
      (by rw [ofDigits_two]; omega)
    rw [ofDigits_two] at hread
    exact readLiteral_taking hback hread

theorem readLiteral_append (hq : quote = '"' ∨ quote = '\'') (h : Content quote bytes s rest) :
    readLiteral quote (s ++ rest) = (readLiteral quote rest).map (·.after bytes s) := by
  have hmap (x : Except Cause Literal) (b b' : List UInt8) (t t' : List Char) :
      (x.map (·.after b' t')).map (·.after b t) = x.map (·.after (b ++ b') (t ++ t')) := by
    cases x with
    | error cause => rfl
    | ok l => simp [Except.map, Literal.after]
  induction h with
  | nil =>
    rw [List.nil_append]
    cases readLiteral quote _ <;> rfl
  | segment hs _ ih => rw [List.append_assoc, readLiteral_segment hq hs, ih, hmap]
  | short hs hstops _ ih =>
    rw [List.append_assoc, readLiteral_short hq hs hstops, ih, hmap]
    rfl

theorem readLiteral_close (quote : Char) (rest : List Char) :
    readLiteral quote (quote :: rest) = .ok ⟨[], [quote], rest⟩ := by
  rw [readLiteral.eq_def]
  simp

/-- A closed literal is read up to its closing quote. -/
theorem readLiteral_content (hq : quote = '"' ∨ quote = '\'')
    (h : Content quote bytes s (quote :: rest)) :
    readLiteral quote (s ++ quote :: rest) = .ok ⟨bytes, s ++ [quote], rest⟩ := by
  rw [readLiteral_append hq h, readLiteral_close]
  simp [Except.map, Literal.after]

theorem readLiteral_fault {cause : Cause} (hq : quote = '"' ∨ quote = '\'')
    (h : Fault cause rest) : readLiteral quote rest = .error cause := by
  have hback : '\\' ≠ quote := by rcases hq with rfl | rfl <;> decide
  have hescape {c : Char} {r : List Char} {cause : Cause} (hread : readEscape c r = .error cause) :
      readLiteral quote ('\\' :: c :: r) = .error cause := by
    rw [readLiteral.eq_def]
    simp only [if_neg hback]
    rw [if_neg (by decide), if_pos trivial, hread]
  cases h with
  | feed rest =>
    have hfeed : '\n' ≠ quote := by rcases hq with rfl | rfl <;> decide
    rw [readLiteral.eq_def]
    simp [hfeed]
  | ended => rw [readLiteral.eq_def]
  | endedEscape =>
    rw [readLiteral.eq_def]
    simp [hback]
  | @unknown c hmark hdigit hnamed rest =>
    have hnone : namedEscape? c = none := by
      rw [Option.eq_none_iff_forall_ne_some]
      intro b hb
      exact hnamed b (namedEscape?_eq_some_iff.1 hb)
    apply hescape
    rw [readEscape, if_neg hmark, hdigit]
    simp only [hnone]
  | @noDigit mark rest hmark hstops =>
    have hdigits := leadingDigits_append (isDigitsBefore_none hstops)
    rw [List.nil_append] at hdigits
    apply hescape
    rw [readEscape, if_pos hmark]
    simp only [hdigits, if_pos]
  | @large c d e u v w hc hd he hbyte rest =>
    have hdigits := leadingDigits_append (isDigitsBefore_two hd he rest)
    have hlarge : ¬ Text.ofDigits 8 [u, v, w] ≤ 255 := by rw [ofDigits_three]; omega
    apply hescape
    rw [readEscape, if_neg (not_mark_of_octalDigit hc), hc]
    simp only [List.cons_append, List.nil_append] at hdigits
    simp only [hdigits, if_neg hlarge]

end Reading

section Completeness
variable {quote c : Char} {r : List Char}

theorem escape_of_readEscape {b : UInt8} {used : Nat} (h : readEscape c r = .ok (b, used)) :
    Segment quote [b] ('\\' :: c :: r.take used) ∨
    ∃ digit?, ShortEscape b ('\\' :: c :: r.take used) digit? ∧
      Stops (fun c => (digit? c).isSome) (r.drop used) := by
  unfold readEscape at h
  split at h
  · rename_i hmark
    rcases leadingDigits_two_cases Text.hexDigit? r with ⟨hdigits, -⟩ |
      ⟨d, v, s, rfl, hd, hdigits, hstops⟩ | ⟨d, e, v, w, s, rfl, hd, he, hdigits⟩
    · simp [hdigits] at h
    · rw [hdigits] at h
      cases h
      have hvalue : Text.ofDigits 16 [v] = v := by simp [Text.ofDigits]
      rw [hvalue]
      exact .inr ⟨_, .hex hmark hd, hstops⟩
    · rw [hdigits] at h
      cases h
      rw [ofDigits_two]
      exact .inl (.hex hmark hd he)
  · cases hc : Text.octalDigit? c with
    | some u =>
      simp only [hc] at h
      split at h
      · rename_i hbyte
        cases h
        rcases leadingDigits_two_cases Text.octalDigit? r with ⟨hdigits, hstops⟩ |
          ⟨d, v, s, rfl, hd, hdigits, hstops⟩ | ⟨d, e, v, w, s, rfl, hd, he, hdigits⟩
        · have hvalue : Text.ofDigits 8 [u] = u := by simp [Text.ofDigits]
          rw [hdigits, hvalue]
          exact .inr ⟨_, .oneOctal hc, hstops⟩
        · rw [hdigits, ofDigits_two]
          exact .inr ⟨_, .twoOctal hc hd, hstops⟩
        · rw [hdigits, ofDigits_three] at hbyte ⊢
          exact .inl (.octal hc hd he hbyte)
      · cases h
    | none =>
      simp only [hc] at h
      split at h
      · rename_i hnamed
        cases h
        exact .inl (.named (namedEscape?_eq_some_iff.1 hnamed))
      · cases h

theorem fault_of_readEscape {cause : Cause} (h : readEscape c r = .error cause) :
    Fault cause ('\\' :: c :: r) := by
  unfold readEscape at h
  split at h
  · rename_i hmark
    rcases leadingDigits_two_cases Text.hexDigit? r with ⟨hdigits, hstops⟩ |
      ⟨d, v, s, -, -, hdigits, -⟩ | ⟨d, e, v, w, s, -, -, -, hdigits⟩
    · simp only [hdigits, if_pos] at h
      cases h
      exact .noDigit hmark hstops
    · simp [hdigits] at h
    · simp [hdigits] at h
  · rename_i hmark
    cases hc : Text.octalDigit? c with
    | some u =>
      simp only [hc] at h
      split at h
      · cases h
      · rename_i hlarge
        cases h
        have hu := octalDigit?_le hc
        rcases leadingDigits_two_cases Text.octalDigit? r with ⟨hdigits, -⟩ |
          ⟨d, v, s, rfl, hd, hdigits, -⟩ | ⟨d, e, v, w, s, rfl, hd, he, hdigits⟩
        · rw [hdigits] at hlarge
          simp only [Text.ofDigits, List.foldl_cons, List.foldl_nil] at hlarge
          omega
        · have hv := octalDigit?_le hd
          rw [hdigits, ofDigits_two] at hlarge
          omega
        · rw [hdigits, ofDigits_three] at hlarge
          exact .large hc hd he (by omega) s
    | none =>
      simp only [hc] at h
      split at h
      · cases h
      · rename_i hnone
        cases h
        refine .unknown hmark hc (fun b hb => ?_) r
        rw [namedEscape?_eq_some_iff.2 hb] at hnone
        cases hnone

/-- A text behind a quote is content up to a closing quote, or content up to a fault. -/
theorem closes_or_fails (quote : Char) (r : List Char) :
    (∃ bytes s rest, r = s ++ quote :: rest ∧ Content quote bytes s (quote :: rest)) ∨
    ∃ bytes s rest cause, r = s ++ rest ∧ Content quote bytes s rest ∧ Fault cause rest := by
  have hfails {rest : List Char} {cause : Cause} (h : Fault cause rest) :
      ∃ bytes s rest' cause, rest = s ++ rest' ∧ Content quote bytes s rest' ∧ Fault cause rest' :=
    ⟨[], [], rest, cause, rfl, .nil, h⟩
  fun_induction readLiteral quote r with
  | case1 => exact .inr (hfails .ended)
  | case2 r => exact .inl ⟨[], [], r, rfl, .nil⟩
  | case3 r _ => exact .inr (hfails (.feed r))
  | case4 => exact .inr (hfails .endedEscape)
  | case5 e r cause hread => exact .inr (hfails (fault_of_readEscape hread))
  | case6 e r b used hread _ _ ih =>
    have htext {t : List Char} (ht : r.drop used = t) :
        '\\' :: e :: r = ('\\' :: e :: r.take used) ++ t := by simp [← ht]
    have hcontent {bytes : List UInt8} {s rest : List Char} (hr : r.drop used = s ++ rest)
        (h : Content quote bytes s rest) :
        Content quote (b :: bytes) (('\\' :: e :: r.take used) ++ s) rest := by
      rcases escape_of_readEscape hread with hs | ⟨digit?, hs, hstops⟩
      · exact .segment hs h
      · exact .short hs (hr ▸ hstops) h
    rcases ih with ⟨bytes, s, rest, hr, h⟩ | ⟨bytes, s, rest, cause, hr, h, hfault⟩
    · exact .inl ⟨_, _, rest, by rw [htext hr, List.append_assoc], hcontent hr h⟩
    · exact .inr ⟨_, _, rest, cause, by rw [htext hr, List.append_assoc], hcontent hr h, hfault⟩
  | case7 c r hquote hfeed hescape ih =>
    have hcontent {bytes : List UInt8} {s rest : List Char} (h : Content quote bytes s rest) :
        Content quote (encodeChar c ++ bytes) ([c] ++ s) rest :=
      .segment (.raw hquote hescape hfeed) h
    rcases ih with ⟨bytes, s, rest, rfl, h⟩ | ⟨bytes, s, rest, cause, rfl, h, hfault⟩
    · exact .inl ⟨_, _, rest, rfl, hcontent h⟩
    · exact .inr ⟨_, _, rest, cause, rfl, hcontent h, hfault⟩

end Completeness

section Literal
variable {quote : Char} {bytes : List UInt8} {s rest : List Char}

theorem opensToken_quote (hq : quote = '"' ∨ quote = '\'') : opensToken quote = true := by
  rcases hq with rfl | rfl <;> rfl

theorem lexeme_content (hq : quote = '"' ∨ quote = '\'')
    (h : Content quote bytes s (quote :: rest)) : lexeme quote (s ++ quote :: rest) =
      .ok ⟨.str (String.ofList (decodeLossy bytes)), quote :: (s ++ [quote])⟩ := by
  rw [lexeme, if_pos hq, readLiteral_content hq h]
  rfl

theorem lexeme_fault {cause : Cause} (hq : quote = '"' ∨ quote = '\'')
    (h : Content quote bytes s rest) (hfault : Fault cause rest) :
    lexeme quote (s ++ rest) = .error cause := by
  rw [lexeme, if_pos hq, readLiteral_append hq h, readLiteral_fault hq hfault]
  rfl

/-- Segments are content, whatever stands behind them. -/
theorem content_flatten {pieces : List (List UInt8)} {texts : List (List Char)}
    (h : List.Forall₂ (Segment quote) pieces texts) (rest : List Char) :
    Content quote pieces.flatten texts.flatten rest := by
  induction h with
  | nil => exact .nil
  | cons hs _ ih => exact .segment hs ih

theorem scan_error {c : Char} {r : List Char} {cause : Cause} (hg : gap (c :: r) = [])
    (h : lexeme c r = .error cause) (pos : Pos) : scan pos (c :: r) = .error ⟨pos, cause⟩ := by
  rw [scan.eq_def]
  simp only
  split
  · split
    · rename_i herror
      rw [h] at herror
      cases herror
      rfl
    · rename_i hok
      rw [h] at hok
      cases hok
  · rename_i hcons
    rw [hg] at hcons
    cases hcons

theorem scan_segments (hq : quote = '"' ∨ quote = '\'') {pieces : List (List UInt8)}
    {texts : List (List Char)} (h : List.Forall₂ (Segment quote) pieces texts) (pos : Pos)
    (rest : List Char) : scan pos (quote :: (texts.flatten ++ quote :: rest)) =
      (scan (pos.afterText (quote :: (texts.flatten ++ [quote]))) rest).map
        (⟨.str (String.ofList (decodeLossy pieces.flatten)), pos⟩ :: ·) := by
  have hgap := gap_of_opensToken (opensToken_quote hq) (texts.flatten ++ quote :: rest)
  exact scan_lexeme hgap (lexeme_content hq (content_flatten h (quote :: rest))) (by simp) pos

end Literal

/-- Characters and complete escapes in any order, between quotes and in front of any text, are the
string of their bytes, and the text is read on behind the closing quote. Where the bytes are those of
a string, it is that string. A literal is refused exactly if a fault stands in it, with the cause that
the fault has and at the place of its opening quote. -/
theorem scan_quoted {quote : Char} (hq : quote = '"' ∨ quote = '\'') (pos : Pos) :
    (∀ (pieces : List (List UInt8)) (texts : List (List Char)) (rest : List Char),
      List.Forall₂ (Segment quote) pieces texts →
        scan pos (quote :: (texts.flatten ++ quote :: rest)) =
          (scan (pos.afterText (quote :: (texts.flatten ++ [quote]))) rest).map
            (⟨.str (String.ofList (decodeLossy pieces.flatten)), pos⟩ :: ·) ∧
        ∀ s : String, pieces.flatten = s.toList.flatMap encodeChar →
          scan pos (quote :: (texts.flatten ++ quote :: rest)) =
            (scan (pos.afterText (quote :: (texts.flatten ++ [quote]))) rest).map
              (⟨.str s, pos⟩ :: ·)) ∧
    (∀ (bytes : List UInt8) (s rest : List Char) (cause : Cause), Content quote bytes s rest →
      Fault cause rest → scan pos (quote :: (s ++ rest)) = .error ⟨pos, cause⟩) ∧
    (∀ (r : List Char) (cause : Cause), lexeme quote r = .error cause ↔
      ∃ bytes s rest, r = s ++ rest ∧ Content quote bytes s rest ∧ Fault cause rest) := by
  refine ⟨fun pieces texts rest h => ⟨scan_segments hq h pos rest, fun s hs => ?_⟩,
    fun bytes s rest cause h hfault => ?_, fun r cause => ⟨fun hr => ?_, ?_⟩⟩
  · have hscan := scan_segments hq h pos rest
    rwa [hs, Text.Utf8.decodeLossy_encode, String.ofList_toList] at hscan
  · exact scan_error (gap_of_opensToken (opensToken_quote hq) _) (lexeme_fault hq h hfault) pos
  · rcases closes_or_fails quote r with ⟨bytes, s, rest, rfl, h⟩ |
      ⟨bytes, s, rest, cause', rfl, h, hfault⟩
    · rw [lexeme_content hq h] at hr
      cases hr
    · rw [lexeme_fault hq h hfault] at hr
      cases hr
      exact ⟨bytes, s, rest, rfl, h, hfault⟩
  · rintro ⟨bytes, s, rest, rfl, h, hfault⟩
    exact lexeme_fault hq h hfault

/-- The bytes of a letter and a digit behind them, in three ways to write a byte. -/
theorem segments_accented : List.Forall₂ (Segment '"') [[0xC3], [0xA9], [0x39]]
    ["\\303".toList, "\\xA9".toList, "9".toList] :=
  .cons (.octal (u := 3) (v := 0) (w := 3) rfl rfl rfl (by decide))
    (.cons (.hex (v := 10) (w := 9) (.inl rfl) rfl rfl)
      (.cons (.raw (c := '9') (by decide) (by decide) (by decide)) .nil))

theorem scan_quoted_accented :
    List.Forall₂ (Segment '"') [[0xC3], [0xA9], [0x39]]
      ["\\303".toList, "\\xA9".toList, "9".toList] ∧
    scan .start "\"\\303\\xA99\"".toList = .ok [⟨.str "é9", .start⟩] ∧
    Content '"' [0x07] "\\7".toList "\\400".toList ∧ Fault .invalidOctalEscape "\\400".toList ∧
    scan .start "\"\\7\\400".toList = .error ⟨.start, .invalidOctalEscape⟩ := by
  have hbytes : [[0xC3], [0xA9], [0x39]].flatten = "é9".toList.flatMap encodeChar := by decide
  have hcontent : Content '"' [0x07] "\\7".toList "\\400".toList :=
    .short (.oneOctal (v := 7) rfl) (stops_cons.2 rfl) .nil
  have hfault : Fault .invalidOctalEscape "\\400".toList :=
    .large (u := 4) (v := 0) (w := 0) rfl rfl rfl (by decide) []
  have hquote : '"' = '"' ∨ '"' = '\'' := .inl rfl
  have hquoted := scan_quoted hquote .start
  have hread := (hquoted.1 _ _ [] segments_accented).2 "é9" hbytes
  rw [scan_nil] at hread
  exact ⟨segments_accented, hread, hcontent, hfault, hquoted.2.1 _ _ _ _ hcontent hfault⟩

end OpStubs.TextFormat
