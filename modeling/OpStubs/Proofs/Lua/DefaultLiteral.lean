import OpStubs.Proofs.Lua.PrintSafe

namespace OpStubs.Lua

open Number

theorem digitsValue_eq (s : List Char) : digitsValue s = Nat.ofDigitChars 10 s 0 := by
  rw [digitsValue, Nat.ofDigitChars_eq_foldl]

theorem isDigit_toDigits (n : Nat) : ∀ c ∈ Nat.toDigits 10 n, c.isDigit = true :=
  fun _ hc => Nat.isDigit_of_mem_toDigits (by decide) (by decide) hc

theorem isDigit_padded (width n : Nat) : ∀ c ∈ padded width n, c.isDigit = true := by
  intro c hc
  rw [padded, List.mem_append] at hc
  rcases hc with hc | hc
  · obtain rfl := (List.mem_replicate.1 hc).2
    rfl
  · exact isDigit_toDigits n c hc

theorem length_padded_pos (width n : Nat) : 0 < (padded width n).length := by
  rw [padded, List.length_append]
  have := Nat.length_toDigits_pos (b := 10) (n := n)
  omega

theorem length_padded (width n : Nat) : width ≤ (padded width n).length := by
  rw [padded, List.length_append, List.length_replicate]
  omega

theorem digitsValue_padded (width n : Nat) : digitsValue (padded width n) = n := by
  rw [digitsValue_eq, padded, Nat.ofDigitChars_append, Nat.ofDigitChars_replicate_zero,
    Nat.mul_zero, Nat.ofDigitChars_ten_toDigits]

namespace Numeral

/-- A natural number in decimal. -/
def ofNat (n : Nat) : Numeral where
  whole := Nat.toDigits 10 n
  part := []
  exponent := none
  whole_ne_nil := Nat.toDigits_ne_nil
  isDigit_whole := isDigit_toDigits n
  isDigit_part := isDigit_nil
  isDigit_exponent := isDigit_none

theorem text_ofNat (n : Nat) : (ofNat n).text = n.repr := by
  rw [Nat.repr_eq_ofList_toDigits, text, chars, pointChars, exponentChars]
  simp [ofNat]

theorem value_ofNat (n : Nat) : (ofNat n).value = ⟨n, 0⟩ := by
  simp [value, ofNat, exponentValue, digitsValue_eq, Nat.ofDigitChars_ten_toDigits]

/-- A number in scientific notation with at least `places` digits after the point. -/
def ofScientific (places : Nat) (d : ScientificForm) : Numeral where
  whole := (padded (places + 1) d.digits).take 1
  part := (padded (places + 1) d.digits).drop 1
  exponent := some (decide (d.power < 0), padded 2 d.power.natAbs)
  whole_ne_nil := by
    have := length_padded_pos (places + 1) d.digits
    rw [ne_eq, List.take_eq_nil_iff]
    rintro (h | h)
    · cases h
    · rw [h] at this
      exact absurd this (by decide)
  isDigit_whole := fun c hc => isDigit_padded _ _ c (List.mem_of_mem_take hc)
  isDigit_part := fun c hc => isDigit_padded _ _ c (List.mem_of_mem_drop hc)
  isDigit_exponent := by
    intro e he
    obtain rfl := Option.some_inj.1 he
    exact ⟨List.length_pos_iff.1 (length_padded_pos _ _), isDigit_padded _ _⟩

theorem text_ofScientific {places : Nat} (hp : 0 < places) (depth num den : Nat) :
    (ofScientific places (roundScientific depth places num den)).text =
      String.ofList (scientific depth places num den) := by
  generalize hd : roundScientific depth places num den = d
  have hpart : (padded (places + 1) d.digits).drop 1 ≠ [] := by
    have := length_padded (places + 1) d.digits
    rw [ne_eq, List.drop_eq_nil_iff]
    omega
  have hpoint : (ofScientific places d).pointChars =
      '.' :: (padded (places + 1) d.digits).drop 1 := if_neg hpart
  have hexponent : (ofScientific places d).exponentChars =
      'e' :: (if d.power < 0 then '-' else '+') :: padded 2 d.power.natAbs := by
    by_cases h : d.power < 0
    · simp [exponentChars, ofScientific, h]
    · simp [exponentChars, ofScientific, h]
  rw [scientific, hd, text, chars, hpoint, hexponent, ← List.append_assoc]
  rfl

end Numeral

namespace Literal

def ofInt (i : Int) : Literal := .numeral (decide (i < 0)) (.ofNat i.natAbs)

def ofFloat (x : Binary32) : Literal :=
  if x.isNaN then .undefined
  else if x.isInfinite then .infinity x.isNegative
  else .numeral x.isNegative
    (.ofScientific 4 (roundScientific 60 4 x.magnitude.num x.magnitude.den))

/-- The literal of a default. -/
def ofValue? : AttrKind → AttrValue → Option Literal
  | .int, .int i => some (ofInt i)
  | .bool, .bool b => some (.bool b)
  | .string, .string s => some (.string s)
  | .float, .float x => some (ofFloat x)
  | .type, .type t => some (ofInt t.code)
  | .type, .int code => (ElementType.ofCode? code).map fun _ => ofInt code
  | _, _ => none

theorem text_ofInt (i : Int) : (ofInt i).text = toString i := by
  rw [ofInt, text, Numeral.text_ofNat, Int.toString_eq_repr, Int.repr_eq_if]
  by_cases h : i < 0
  · rw [if_neg (by omega), show (-i).toNat = i.natAbs by omega, decide_eq_true h]
    rfl
  · rw [if_pos (by omega), show i.toNat = i.natAbs by omega, decide_eq_false h]
    exact String.empty_append

theorem text_ofFloat (x : Binary32) : (ofFloat x).text = Operation.floatLiteral x := by
  unfold ofFloat Operation.floatLiteral
  split
  · rfl
  · split
    · rfl
    · rw [text, Numeral.text_ofScientific (by decide)]
      rfl

theorem text_ofValue (kind : AttrKind) (value : AttrValue) :
    (ofValue? kind value).map text =
      (Operation.Default.ofValue? kind value).map (·.literal) := by
  cases kind with
  | int =>
    cases value with
    | int i => exact congrArg some (text_ofInt i)
    | _ => rfl
  | bool =>
    cases value with
    | bool b => rfl
    | _ => rfl
  | string =>
    cases value with
    | string s => rfl
    | _ => rfl
  | float =>
    cases value with
    | float x => exact congrArg some (text_ofFloat x)
    | _ => rfl
  | type =>
    cases value with
    | type t => exact congrArg some (text_ofInt t.code)
    | int code =>
      simp only [ofValue?, Operation.Default.ofValue?]
      cases ElementType.ofCode? code with
      | none => rfl
      | some t => exact congrArg some (text_ofInt code)
    | _ => rfl
  | _ => cases value <;> rfl

theorem endsLine_of_isDigit {c : Char} (h : c.isDigit = true) : Token.endsLine c = false :=
  Bool.or_eq_false_iff.2
    ⟨Token.beq_false_of_kind (by decide) h, Token.beq_false_of_kind (by decide) h⟩

theorem isLine_numeral (n : Numeral) : IsLine n.text := by
  intro c hc
  rw [Numeral.text, String.toList_ofList, Numeral.chars, List.mem_append, List.mem_append] at hc
  rcases hc with hc | hc | hc
  · exact endsLine_of_isDigit (n.isDigit_whole c hc)
  · unfold Numeral.pointChars at hc
    split at hc
    · cases hc
    · rcases List.mem_cons.1 hc with rfl | hc
      · rfl
      · exact endsLine_of_isDigit (n.isDigit_part c hc)
  · unfold Numeral.exponentChars at hc
    split at hc
    · cases hc
    · rename_i negative digits he
      rcases List.mem_cons.1 hc with rfl | hc
      · rfl
      · rcases List.mem_cons.1 hc with rfl | hc
        · cases negative <;> rfl
        · exact endsLine_of_isDigit ((n.isDigit_exponent _ he).2 c hc)

theorem endsLine_escapeChar (c : Char) : ∀ d ∈ escapeChar c, Token.endsLine d = false := by
  unfold escapeChar
  split_ifs with hb hq hn hr ht
  · simp [Token.endsLine]
  · simp [Token.endsLine]
  · simp [Token.endsLine]
  · simp [Token.endsLine]
  · simp [Token.endsLine]
  · intro d hd
    obtain rfl := List.mem_singleton.1 hd
    simp [Token.endsLine, hn, hr]

theorem isLine_quote (s : String) : IsLine (quote s) := by
  intro c hc
  rw [toList_quote, List.mem_append, List.mem_cons] at hc
  rcases hc with (rfl | hc) | hc
  · rfl
  · obtain ⟨d, -, hd⟩ := List.mem_flatMap.1 hc
    exact endsLine_escapeChar d c hd
  · obtain rfl := List.mem_singleton.1 hc
    rfl

theorem isLine_sign (negative : Bool) {text : String} (h : IsLine text) :
    IsLine (sign negative ++ text) := by
  intro c hc
  rw [String.toList_append, List.mem_append] at hc
  rcases hc with hc | hc
  · cases negative with
    | false => cases hc
    | true =>
      obtain rfl := List.mem_singleton.1 hc
      rfl
  · exact h c hc

theorem isLine_text (l : Literal) : IsLine l.text := by
  cases l with
  | nil => decide
  | bool b => cases b <;> decide
  | string s => exact isLine_quote s
  | numeral negative n => exact isLine_sign negative (isLine_numeral n)
  | infinity negative => exact isLine_sign negative (by decide)
  | undefined => decide

theorem isLine_typeLabel (t : ElementType) : IsLine (Operation.typeLabel t) := by
  have hname : (t.name.toList.all fun d => !Token.endsLine d.toLower) = true := by
    cases t <;> decide
  intro c hc
  rw [Operation.typeLabel, String.toList_append, String.toList_append, String.toList_map,
    List.mem_append, List.mem_append, List.mem_map] at hc
  rcases hc with (hc | ⟨d, hd, rfl⟩) | hc
  · obtain rfl := List.mem_singleton.1 hc
    rfl
  · simpa using List.all_eq_true.1 hname d hd
  · obtain rfl := List.mem_singleton.1 hc
    rfl

/-- A default is a literal, and its description stands on a line. -/
theorem of_default {kind : AttrKind} {value : AttrValue} {d : Operation.Default}
    (h : Operation.Default.ofValue? kind value = some d) :
    (∃ l, ofValue? kind value = some l ∧ l.text = d.literal) ∧ IsLine d.doc := by
  have htext := text_ofValue kind value
  rw [h, Option.map_some, Option.map_eq_some_iff] at htext
  obtain ⟨l, hl, hd⟩ := htext
  refine ⟨⟨l, hl, hd⟩, ?_⟩
  have hplain : d.doc = d.literal ∨ ∃ t, d.doc = Operation.typeLabel t := by
    unfold Operation.Default.ofValue? at h
    split at h
    · cases h
      exact .inl rfl
    · cases h
      exact .inl rfl
    · cases h
      exact .inl rfl
    · cases h
      exact .inl rfl
    · cases h
      exact .inr ⟨_, rfl⟩
    · obtain ⟨t, -, rfl⟩ := Option.map_eq_some_iff.1 h
      exact .inr ⟨t, rfl⟩
    · cases h
  rcases hplain with hplain | ⟨t, ht⟩
  · rw [hplain, ← hd]
    exact isLine_text l
  · rw [ht]
    exact isLine_typeLabel t

end Literal

end OpStubs.Lua
