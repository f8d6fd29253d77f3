import OpStubs.Proofs.Lua.Lexer

namespace OpStubs.Lua

/-- A decimal numeral by its digits. There is a point only where digits follow it. -/
structure Numeral where
  whole : List Char
  part : List Char
  /-- The sign and the digits of an exponent. -/
  exponent : Option (Bool × List Char)
  whole_ne_nil : whole ≠ []
  isDigit_whole : ∀ c ∈ whole, c.isDigit = true
  isDigit_part : ∀ c ∈ part, c.isDigit = true
  isDigit_exponent : ∀ e ∈ exponent, e.2 ≠ [] ∧ ∀ c ∈ e.2, c.isDigit = true

namespace Numeral

open Token

def pointChars (n : Numeral) : List Char := if n.part = [] then [] else '.' :: n.part

def exponentChars (n : Numeral) : List Char :=
  match n.exponent with
  | none => []
  | some (negative, digits) => 'e' :: (if negative then '-' else '+') :: digits

def chars (n : Numeral) : List Char := n.whole ++ (n.pointChars ++ n.exponentChars)

def text (n : Numeral) : String := String.ofList n.chars

def exponentValue (n : Numeral) : Int :=
  match n.exponent with
  | none => 0
  | some (negative, digits) =>
    if negative then -Number.digitsValue digits else Number.digitsValue digits

/-- The number that a numeral stands for. -/
def value (n : Numeral) : Number.Decimal :=
  ⟨Number.digitsValue (n.whole ++ n.part), n.exponentValue - n.part.length⟩

/-- Whether a character may follow a numeral without becoming a part of it. -/
def isInside (c : Char) : Bool := c.isAlphanum || c == '_' || c == '.' || c == '-' || c == '+'

/-- Whether each character of a text continues a numeral. -/
def Continues (last : Char) : List Char → Prop
  | [] => True
  | c :: r => continuesNumeral last c = true ∧ Continues c r

theorem continues_of_plain {s t : List Char}
    (hs : ∀ c ∈ s, c.isAlphanum = true ∨ c = '.') (ht : ∀ last, Continues last t) (last : Char) :
    Continues last (s ++ t) := by
  induction s generalizing last with
  | nil => exact ht last
  | cons c r ih =>
    refine ⟨?_, ih (fun d hd => hs d (List.mem_cons_of_mem c hd)) c⟩
    rcases hs c List.mem_cons_self with h | h <;> simp [continuesNumeral, h]

theorem isAlphanum_of_isDigit {c : Char} (h : c.isDigit = true) : c.isAlphanum = true := by
  simp [Char.isAlphanum, h]

theorem continues_digits {s : List Char} (hs : ∀ c ∈ s, c.isDigit = true) (last : Char) :
    Continues last s := by
  have h := continues_of_plain (t := []) (fun c hc => .inl (isAlphanum_of_isDigit (hs c hc)))
    (fun _ => trivial) last
  rwa [List.append_nil] at h

theorem continues_exponentChars (n : Numeral) (last : Char) : Continues last n.exponentChars := by
  unfold exponentChars
  cases he : n.exponent with
  | none => trivial
  | some e =>
    refine ⟨by simp [continuesNumeral, show 'e'.isAlphanum = true by decide], ?_, ?_⟩
    · cases e.1 <;> decide
    · exact continues_digits (n.isDigit_exponent e he).2 _

theorem continues_chars (n : Numeral) (last : Char) : Continues last n.chars := by
  refine continues_of_plain (fun c hc => .inl (isAlphanum_of_isDigit (n.isDigit_whole c hc))) ?_ last
  refine continues_of_plain (fun c hc => ?_) n.continues_exponentChars
  unfold pointChars at hc
  split at hc
  · cases hc
  · rcases List.mem_cons.1 hc with h | h
    · exact .inr h
    · exact .inl (isAlphanum_of_isDigit (n.isDigit_part c h))

theorem numeralTail_append {s rest : List Char} {last : Char} (h : Continues last s)
    (hr : Stops isInside rest) : numeralTail last (s ++ rest) = s := by
  induction s generalizing last with
  | nil =>
    cases rest with
    | nil => rfl
    | cons c r =>
      have hc := stops_cons.1 hr
      simp only [isInside, Bool.or_eq_false_iff] at hc
      simp [numeralTail, continuesNumeral, hc]
  | cons c r ih => rw [List.cons_append, numeralTail, if_pos h.1, ih h.2]

theorem takeWhile_digits {s rest : List Char} (hs : ∀ c ∈ s, c.isDigit = true)
    (hr : Stops Char.isDigit rest) :
    (s ++ rest).takeWhile Char.isDigit = s ∧ (s ++ rest).dropWhile Char.isDigit = rest := by
  have ht := takeWhile_append_of_stops hs hr
  refine ⟨ht, ?_⟩
  have := List.takeWhile_append_dropWhile (p := Char.isDigit) (l := s ++ rest)
  rw [ht] at this
  exact List.append_cancel_left this

theorem stops_exponentChars (n : Numeral) : Stops Char.isDigit n.exponentChars := by
  unfold exponentChars
  split
  · exact stops_nil _
  · exact stops_cons.2 (by decide)

theorem readExponent_eq (n : Numeral) {negative : Bool} {digits : List Char}
    (h : n.exponent = some (negative, digits)) :
    Number.Decimal.readExponent ((if negative then '-' else '+') :: digits) =
      some n.exponentValue := by
  obtain ⟨hne, hd⟩ := n.isDigit_exponent _ h
  have hall : digits.all Char.isDigit = true := List.all_eq_true.2 hd
  rw [exponentValue, h]
  cases negative <;> simp [Number.Decimal.readExponent, hne, hall]

theorem parse_chars (n : Numeral) : Number.Decimal.parse? n.chars = some n.value := by
  have hstop : Stops Char.isDigit (n.pointChars ++ n.exponentChars) := by
    unfold pointChars
    split
    · exact n.stops_exponentChars
    · exact stops_cons.2 (by decide)
  obtain ⟨hw, hd⟩ := takeWhile_digits n.isDigit_whole hstop
  obtain ⟨hpw, hpd⟩ := takeWhile_digits n.isDigit_part n.stops_exponentChars
  have hne := n.whole_ne_nil
  rw [chars, Number.Decimal.parse?]
  simp only [hw, hd]
  by_cases hp : n.part = [] <;> cases he : n.exponent with
  | none =>
    have hx : n.exponentChars = [] := by rw [exponentChars, he]
    rw [hx] at hpw hpd ⊢
    simp only [List.append_nil] at hpw hpd
    simp [pointChars, hp, hne, value, exponentValue, he, hpw, hpd]
  | some e =>
    have hx : n.exponentChars = 'e' :: (if e.1 then '-' else '+') :: e.2 := by
      rw [exponentChars, he]
    have hread := n.readExponent_eq he
    rw [hx] at hpw hpd ⊢
    simp [pointChars, hp, hne, value, hread, hpw, hpd]

/-- A numeral begins with a digit. -/
theorem stops_text (n : Numeral) {p : Char → Bool} (hp : ∀ c, c.isDigit = true → p c = false)
    (rest : List Char) : Stops p (n.text.toList ++ rest) := by
  rw [text, String.toList_ofList, chars]
  cases hw : n.whole with
  | nil => exact absurd hw n.whole_ne_nil
  | cons c w => exact stops_cons.2 (hp c (n.isDigit_whole c (by simp [hw])))

theorem isDigit_nil : ∀ c ∈ ([] : List Char), c.isDigit = true := by simp

theorem isDigit_none : ∀ e ∈ (none : Option (Bool × List Char)),
    e.2 ≠ [] ∧ ∀ c ∈ e.2, c.isDigit = true := by simp

/-- The numeral that is one digit zero. -/
def zero : Numeral where
  whole := ['0']
  part := []
  exponent := none
  whole_ne_nil := by decide
  isDigit_whole := by simp
  isDigit_part := isDigit_nil
  isDigit_exponent := isDigit_none

/-- A numeral is read as one token. -/
theorem scans_text (n : Numeral) {rest : List Char} (hr : Stops isInside rest) :
    Scans n.text.toList [numeral n.text] rest := by
  rw [text, String.toList_ofList]
  have hp := n.parse_chars
  have hc := n.continues_chars
  cases hw : n.whole with
  | nil => exact absurd hw n.whole_ne_nil
  | cons c w =>
    have hdigit : c.isDigit = true := n.isDigit_whole c (by simp [hw])
    have hchars : n.chars = c :: (w ++ (n.pointChars ++ n.exponentChars)) := by
      rw [chars, hw, List.cons_append]
    rw [hchars] at hp hc ⊢
    have htail := numeralTail_append (hc c).2 hr
    have hstart := startsName_of_isDigit hdigit
    refine .of_lexeme hstart.2.1 (fun h => hstart.2.2 h.1) ?_
    simp only [lexeme?, hstart.1, Bool.false_eq_true, if_false, hdigit, Bool.true_or, if_true,
      htail, hp, Option.isSome_some]

end Numeral

end OpStubs.Lua
