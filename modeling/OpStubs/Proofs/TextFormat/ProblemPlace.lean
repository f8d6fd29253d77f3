import OpStubs.Proofs.TextFormat.Layout
import OpStubs.Proofs.TextFormat.Offender
import OpStubs.Proofs.TextParts

namespace OpStubs.TextFormat

/-- Whether a place is in a text: in one of its lines, at a character or right behind the last. -/
structure Pos.IsIn (p : Pos) (s : List Char) : Prop where
  one_le_line : 1 ≤ p.line
  line_le : p.line ≤ (Text.pieces '\n' s).length
  one_le_column : 1 ≤ p.column
  column_le : ∃ l, (Text.pieces '\n' s)[p.line - 1]? = some l ∧ p.column ≤ l.length + 1

/-- The character at a place of a text. -/
def charAt? (s : List Char) (p : Pos) : Option Char :=
  (Text.pieces '\n' s)[p.line - 1]?.bind (·[p.column - 1]?)

section Range

theorem Pos.isIn_of_line {p : Pos} {s l : List Char} (hline : 1 ≤ p.line) (hcolumn : 1 ≤ p.column)
    (h : (Text.pieces '\n' s)[p.line - 1]? = some l) (hle : p.column ≤ l.length + 1) :
    p.IsIn s := by
  obtain ⟨hlt, -⟩ := List.getElem?_eq_some_iff.1 h
  exact ⟨hline, by omega, hcolumn, l, h, hle⟩

theorem line_placeBehind (front rest : List Char) :
    (Text.pieces '\n' (front ++ rest))[(placeBehind front).line - 1]? =
      some ((front.reverse.takeWhile (· ≠ '\n')).reverse ++ rest.takeWhile (· ≠ '\n')) := by
  rw [placeBehind, Nat.add_sub_cancel_left]
  exact Text.getElem?_pieces '\n' front rest

theorem isIn_placeBehind (front rest : List Char) : (placeBehind front).IsIn (front ++ rest) := by
  refine Pos.isIn_of_line (Nat.le_add_right 1 _) (Nat.le_add_right 1 _)
    (line_placeBehind front rest) ?_
  simp only [placeBehind, List.length_append, List.length_reverse]
  omega

theorem charAt?_placeBehind {c : Char} (hc : c ≠ '\n') (front r : List Char) :
    charAt? (front ++ c :: r) (placeBehind front) = some c := by
  rw [charAt?, line_placeBehind, Option.bind_some]
  simp [placeBehind, hc]

theorem isIn_endOf (s : List Char) : (endOf s).IsIn s := by
  cases hlast : (Text.lines s).getLast? with
  | none =>
    have hend : endOf s = placeBehind [] := by
      simp [endOf, List.getLast?_eq_none_iff.1 hlast, placeBehind]
    rw [hend]
    exact isIn_placeBehind [] s
  | some l =>
    have hpos : 1 ≤ (Text.lines s).length :=
      List.length_pos_iff.2 (List.ne_nil_of_mem (List.mem_of_getLast? hlast))
    have hend : endOf s = ⟨(Text.lines s).length, l.length + 1⟩ := by simp [endOf, hlast, hpos]
    rw [List.getLast?_eq_getElem?] at hlast
    obtain ⟨p, hp, hle⟩ := Text.exists_piece_of_line hlast
    rw [hend]
    exact Pos.isIn_of_line hpos (Nat.le_add_left 1 _) hp (Nat.succ_le_succ hle)

end Range

/-- Whether reading a text comes to `rest`: what is in front of it is gaps and tokens, each token as
long as it can be. -/
inductive ReadsTo (s : List Char) : List Char → List Char → Prop
  | start : ReadsTo s [] s
  | gap {front g rest : List Char} (h : ReadsTo s front (g ++ rest)) (hg : Gap g) :
    ReadsTo s (front ++ g) rest
  | token {front spelling rest : List Char} {t : Token} (h : ReadsTo s front (spelling ++ rest))
    (ht : t.StandsAs spelling rest) : ReadsTo s (front ++ spelling) rest

/-- Whether a text begins with what a problem may be found at: a token, a literal in which a fault
stands, or a character that begins neither a gap nor a token. -/
inductive Begins : Cause → List Char → Prop
  | token {t : Token} {spelling rest : List Char} {cause : Cause}
    (ht : t.StandsAs spelling rest) : Begins cause (spelling ++ rest)
  | literal {quote : Char} {bytes : List UInt8} {body rest : List Char} {cause : Cause}
    (hq : quote = '"' ∨ quote = '\'') (h : Content quote bytes body rest)
    (hfault : Fault cause rest) : Begins cause (quote :: (body ++ rest))
  | stray {c : Char} {r : List Char} (hgap : ¬ OpensGap c)
    (htoken : ∀ (t : Token) (spelling rest : List Char), t.StandsAs spelling rest →
      spelling.head? ≠ some c) : Begins (.unexpectedCharacter c) (c :: r)

section Scanning
variable {s front rest : List Char}

theorem ReadsTo.eq_append (h : ReadsTo s front rest) : s = front ++ rest := by
  induction h with
  | start => rfl
  | gap _ _ ih => rw [ih, List.append_assoc]
  | token _ _ ih => rw [ih, List.append_assoc]

theorem Begins.exists_cons {cause : Cause} (h : Begins cause s) : ∃ c r, s = c :: r ∧ c ≠ '\n' := by
  cases h with
  | token ht =>
    obtain ⟨c, r, rfl, hopens, -⟩ := lexeme_of_standsAs ht
    refine ⟨c, _, rfl, ?_⟩
    rintro rfl
    cases hopens
  | literal hq _ _ =>
    refine ⟨_, _, rfl, ?_⟩
    rcases hq with rfl | rfl <;> decide
  | stray hgap _ =>
    refine ⟨_, _, rfl, ?_⟩
    rintro rfl
    exact hgap (.inl rfl)

/-- Where no token can be read there is a reason for it. -/
theorem begins_of_lexeme {c : Char} {r : List Char} {cause : Cause} (hgap : gap (c :: r) = [])
    (h : lexeme c r = .error cause) : Begins cause (c :: r) := by
  by_cases hq : c = '"' ∨ c = '\''
  · rcases closes_or_fails c r with ⟨bytes, body, rest, rfl, hbody⟩ |
      ⟨bytes, body, rest, cause', rfl, hbody, hfault⟩
    · rw [lexeme_content hq hbody] at h
      cases h
    · rw [lexeme_fault hq hbody hfault] at h
      cases h
      exact .literal hq hbody hfault
  · rw [lexeme, if_neg hq] at h
    split at h
    · cases h
    rename_i hnumber
    split at h
    · cases h
    rename_i hident
    split at h
    · cases h
    rename_i hpunct
    cases h
    refine .stray (not_opensGap hgap) fun t spelling rest ht hhead => ?_
    obtain ⟨d, r', rfl, hopens, -⟩ := lexeme_of_standsAs ht
    cases hhead
    simp [opensToken, hnumber, hident, hpunct, not_or.1 hq] at hopens

/-- A text whose tokens cannot be read is read up to where none can. -/
theorem readsTo_of_scan_error {p : Problem} (hs : ReadsTo s front rest)
    (h : scan (placeBehind front) rest = .error p) :
    ∃ front' rest', ReadsTo s front' rest' ∧ p.pos = placeBehind front' ∧ Begins p.cause rest' := by
  induction front, rest using text_induction with
  | last front rest hlast =>
    rw [scan_lastGap hlast] at h
    cases h
  | gap front g rest hg ih =>
    rw [scan_append_gap hg, afterText_placeBehind] at h
    exact ih (hs.gap hg) h
  | refused front c r cause hgap hlexeme =>
    rw [scan_error hgap hlexeme] at h
    cases h
    exact ⟨front, c :: r, hs, rfl, begins_of_lexeme hgap hlexeme⟩
  | token front c r x rest hgap hlexeme hr hstands ih =>
    rw [scan_lexeme hgap hlexeme hr, afterText_placeBehind] at h
    rw [hr] at hs
    cases hscan : scan (placeBehind (front ++ x.spelling)) rest with
    | ok ts =>
      rw [hscan] at h
      cases h
    | error p' =>
      rw [hscan] at h
      cases h
      exact ih (hs.token hstands) hscan

/-- Reading comes to each of the tokens that a text is cut into. -/
theorem readsTo_of_mem_placed {cuts : List Cut} {last : List Char} {t : Placed}
    (hs : ReadsTo s front (joined cuts last)) (h : Fits cuts last) (ht : t ∈ placed front cuts) :
    ∃ front' spelling rest, ReadsTo s front' (spelling ++ rest) ∧ t.pos = placeBehind front' ∧
      t.token.StandsAs spelling rest := by
  induction cuts generalizing front with
  | nil => cases ht
  | cons c cuts ih =>
    obtain ⟨hgap, hstands, hfits⟩ := h
    rw [joined_cons] at hs
    have hspelling := hs.gap hgap
    rcases List.mem_cons.1 ht with rfl | ht
    · exact ⟨_, _, _, hspelling, rfl, hstands⟩
    · have hrest := hspelling.token hstands
      rw [List.append_assoc] at hrest
      exact ih hrest hfits ht

theorem readsTo_of_mem_tokens {ts : List Placed} {t : Placed} (h : tokens s = .ok ts) (ht : t ∈ ts) :
    ∃ front spelling rest, ReadsTo s front (spelling ++ rest) ∧ t.pos = placeBehind front ∧
      t.token.StandsAs spelling rest := by
  have hscan : scan (placeBehind []) s = .ok ts := h
  obtain ⟨cuts, last, rfl, hfits, rfl⟩ := exists_fits hscan
  exact readsTo_of_mem_placed .start hfits ht

end Scanning

/-- Whether tokens begin some that are read and are not read themselves. -/
def StopsShort (ts : List Placed) : Prop := Viable ts ∧ ¬ Accepted ts

section Tokens
variable {last : Pos} {ts : List Placed} {p : Problem}

/-- Leaves some places as they are and moves every other one. -/
def awayFrom (kept : List Pos) (p : Pos) : Pos := if p ∈ kept then p else ⟨p.line + 1, p.column⟩

theorem awayFrom_eq_iff {kept : List Pos} {p : Pos} : awayFrom kept p = p ↔ p ∈ kept := by
  unfold awayFrom
  split
  · rename_i hp
    exact iff_of_true rfl hp
  · rename_i hp
    refine iff_of_false (fun h => ?_) hp
    have hline := congrArg Pos.line h
    simp at hline

theorem moved_awayFrom (ts : List Placed) :
    ts.map (Placed.moved (awayFrom (ts.map (·.pos)))) = ts := by
  refine (List.map_congr_left fun t ht => ?_).trans (List.map_id ts)
  exact congrArg (Placed.mk t.token) (awayFrom_eq_iff.2 (List.mem_map_of_mem ht))

/-- Where the fields are read the place of the end does not matter. -/
theorem registryOfTokens_last {fs : List Field} (h : fieldsOfTokens last ts = .ok fs) (last' : Pos) :
    registryOfTokens last' ts = registryOfTokens last ts := by
  obtain ⟨d, rfl, rfl⟩ := exists_derivation_of_fieldsOfTokens h
  rw [registryOfTokens, registryOfTokens, fieldsOfTokens_tokens, fieldsOfTokens_tokens]

/-- What is wrong with fields that are read is found at one of the tokens: if every other place is
moved, it stays where it is. -/
theorem pos_mem_of_fields {fs : List Field} (hfields : fieldsOfTokens last ts = .ok fs)
    (h : registryOfTokens last ts = .error (.problem p)) : p.pos ∈ ts.map (·.pos) := by
  have hmoved := registryOfTokens_moved (awayFrom (ts.map (·.pos))) last ts
  rw [moved_awayFrom, registryOfTokens_last hfields, h] at hmoved
  have hp : p = p.moved (awayFrom (ts.map (·.pos))) :=
    ReadError.problem.inj (Except.error.inj hmoved)
  exact awayFrom_eq_iff.1 (congrArg Problem.pos hp).symm

theorem pos_of_registryOfTokens (h : registryOfTokens last ts = .error (.problem p)) :
    p.pos ∈ ts.map (·.pos) ∨ (p.pos = last ∧ StopsShort ts) := by
  cases hfields : fieldsOfTokens last ts with
  | ok fs => exact .inl (pos_mem_of_fields hfields h)
  | error p' =>
    rw [registryOfTokens, hfields] at h
    cases h
    rcases fieldsOfTokens_error_cases hfields with ⟨k, hk, hp, -⟩ | ⟨hp, us, -, hus⟩ |
      ⟨before, hts, -⟩
    · exact .inl (hp ▸ List.mem_map_of_mem (List.getElem_mem hk))
    · refine .inr ⟨hp, ⟨us, hus⟩, fun hread => ?_⟩
      obtain ⟨fs, hfs⟩ := (accepted_iff last).1 hread
      rw [hfields] at hfs
      cases hfs
    · exact .inl (by simp [hts, mark])

end Tokens

/-- What is wrong with a text is found at its end, where its tokens stop short, or where reading
comes to one of its tokens or to something that is none. -/
theorem registry_error_cases {text : String} {p : Problem}
    (h : registry text = .error (.problem p)) :
    (∃ ts, tokens text.toList = .ok ts ∧ StopsShort ts ∧ p.pos = endOf text.toList) ∨
    ∃ front rest, ReadsTo text.toList front rest ∧ p.pos = placeBehind front ∧
      Begins p.cause rest := by
  cases htokens : tokens text.toList with
  | error p' =>
    rw [registry, fields, htokens] at h
    cases h
    exact .inr (readsTo_of_scan_error .start htokens)
  | ok ts =>
    rw [registry_of_tokens htokens] at h
    rcases pos_of_registryOfTokens h with hmem | ⟨hend, hshort⟩
    · obtain ⟨t, ht, hpos⟩ := List.mem_map.1 hmem
      obtain ⟨front, spelling, rest, hreads, hplace, hstands⟩ := readsTo_of_mem_tokens htokens ht
      exact .inr ⟨front, spelling ++ rest, hreads, hpos.symm.trans hplace, .token hstands⟩
    · exact .inl ⟨ts, rfl, hshort, hend⟩

theorem read_problem {text : String} {line column : Nat} {message : String}
    (h : Registry.read .text text = .error (.problem line column message)) :
    ∃ cause, registry text = .error (.problem ⟨⟨line, column⟩, cause⟩) ∧ message = cause.message := by
  obtain ⟨e, he, hp⟩ := mapError_error_iff.1 h
  cases e with
  | unknownElementType name => cases hp
  | problem p =>
    cases hp
    exact ⟨p.cause, he, rfl⟩

/-- A problem is reported at a line of the text and at a column of that line, or right behind it.
Either the tokens of the text stop short and the place is its end, or reading comes to a character at
that place, and with it begins a token, or a literal that has the fault reported, or, the character
being reported as unexpected, no token at all. -/
theorem problem_place {text : String} {line column : Nat} {message : String}
    (h : Registry.read .text text = .error (.problem line column message)) :
    Pos.IsIn ⟨line, column⟩ text.toList ∧
    ((∃ ts, tokens text.toList = .ok ts ∧ StopsShort ts ∧ ⟨line, column⟩ = endOf text.toList) ∨
      ∃ front c r cause, ReadsTo text.toList front (c :: r) ∧ ⟨line, column⟩ = placeBehind front ∧
        charAt? text.toList ⟨line, column⟩ = some c ∧ Begins cause (c :: r) ∧
        message = cause.message) := by
  obtain ⟨cause, hread, hmessage⟩ := read_problem h
  rcases registry_error_cases hread with ⟨ts, htokens, hshort, hend⟩ |
    ⟨front, rest, hreads, hplace, hbegins⟩
  · have hin := isIn_endOf text.toList
    rw [← hend] at hin
    exact ⟨hin, .inl ⟨ts, htokens, hshort, hend⟩⟩
  · obtain ⟨c, r, rfl, hc⟩ := hbegins.exists_cons
    have htext := hreads.eq_append
    have hin := isIn_placeBehind front (c :: r)
    have hchar := charAt?_placeBehind hc front r
    rw [← htext, ← hplace] at hin hchar
    exact ⟨hin, .inr ⟨front, c, r, cause, hreads, hplace, hchar, hbegins, hmessage⟩⟩

/-- A field of the wrong form behind letters of two bytes, in lines that end with both characters. -/
def accentedText : String := "# é\r\nop \x7b\r\n  name: \"é\" input_arg: 'ü'\r\n\x7d\r\n"

/-- A message that is not closed. -/
def unclosedText : String := "op \x7b\r\n  name: \"é\"\n"

theorem problem_place_accentedText :
    (Registry.read .text accentedText =
        .error (.problem 3 13 "'input_arg' must be a message, found a string") ∧
      Pos.IsIn ⟨3, 13⟩ accentedText.toList ∧
      ∃ front r cause, ReadsTo accentedText.toList front ('i' :: r) ∧
        ⟨3, 13⟩ = placeBehind front ∧ Begins cause ('i' :: r)) ∧
    (Registry.read .text unclosedText = .error (.problem 2 12 "expected '\x7d'") ∧
      Pos.IsIn ⟨2, 12⟩ unclosedText.toList ∧
      ∃ ts, tokens unclosedText.toList = .ok ts ∧ StopsShort ts) := by
  have hform : Registry.read .text accentedText =
      .error (.problem 3 13 "'input_arg' must be a message, found a string") := by decide +kernel
  have hopen : Registry.read .text unclosedText = .error (.problem 2 12 "expected '\x7d'") := by
    decide +kernel
  obtain ⟨hformIn, ⟨ts, -, -, hend⟩ | ⟨front, c, r, cause, hreads, hplace, hchar, hbegins, -⟩⟩ :=
    problem_place hform
  · exact absurd hend (by decide)
  obtain ⟨hopenIn, ⟨ts, htokens, hshort, -⟩ | ⟨front', c', r', cause', -, -, hchar', -⟩⟩ :=
    problem_place hopen
  · have hletter : charAt? accentedText.toList ⟨3, 13⟩ = some 'i' := by decide
    rw [hletter] at hchar
    cases hchar
    exact ⟨⟨hform, hformIn, front, r, cause, hreads, hplace, hbegins⟩,
      hopen, hopenIn, ts, htokens, hshort⟩
  · have hnone : charAt? unclosedText.toList ⟨2, 12⟩ = none := by decide
    rw [hnone] at hchar'
    cases hchar'

end OpStubs.TextFormat
