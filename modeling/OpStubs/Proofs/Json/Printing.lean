import OpStubs.Proofs.Json.Document

namespace OpStubs.Json

/-- Whether a character stands for itself in a string. -/
def isPlain (c : Char) : Bool := 0x20 ≤ c.toNat && c != '"' && c != '\\'

def escaped (c : Char) : List Char :=
  if isPlain c then [c]
  else ['\\', 'u', '0', '0', Nat.digitChar (c.toNat / 16), Nat.digitChar (c.toNat % 16)]

/-- A half of a character that stands alone is written as the first one there is. -/
def contentText : Option String → List Char
  | some s => s.toList.flatMap escaped
  | none => "\\ud800".toList

def quoted (s : Option String) : List Char := '"' :: (contentText s ++ ['"'])

def Numeral.partText (n : Numeral) : List Char :=
  match n.part with
  | none => []
  | some digits => '.' :: digits

def Numeral.powerText (n : Numeral) : List Char :=
  match n.power with
  | none => []
  | some (negative, digits) => 'e' :: (minusText negative ++ digits)

def Numeral.text (n : Numeral) : List Char :=
  minusText n.negative ++ (n.whole ++ (n.partText ++ n.powerText))

/-- Whether a number has digits where it must. -/
def Numeral.IsWritten (n : Numeral) : Prop :=
  IsWhole n.whole ∧ (∀ s ∈ n.part, IsDigits s) ∧ ∀ p ∈ n.power, IsDigits p.2

instance (n : Numeral) : Decidable n.IsWritten := inferInstanceAs (Decidable (_ ∧ _))

namespace Doc

mutual

def print (w : Numeral → List Char) : Doc → List Char
  | null => "null".toList
  | bool true => "true".toList
  | bool false => "false".toList
  | number n => w n
  | string s => quoted s
  | array [] => "[]".toList
  | array (d :: rest) => '[' :: (d.print w ++ (printBehind w rest ++ [']']))
  | object [] => "\x7b\x7d".toList
  | object ((key, d) :: rest) =>
    '\x7b' :: (quoted key ++ ':' :: (d.print w ++ (printMembersBehind w rest ++ ['\x7d'])))

def printBehind (w : Numeral → List Char) : List Doc → List Char
  | [] => []
  | d :: rest => ',' :: (d.print w ++ printBehind w rest)

def printMembersBehind (w : Numeral → List Char) : Members → List Char
  | [] => []
  | (key, d) :: rest => ',' :: (quoted key ++ ':' :: (d.print w ++ printMembersBehind w rest))

end

end Doc

theorem hexUnit?_digitChar : ∀ n < 128,
    hexUnit? '0' '0' (Nat.digitChar (n / 16)) (Nat.digitChar (n % 16)) = some n := by decide

theorem content_escaped (s : List Char) : Content s (s.flatMap escaped) := by
  induction s with
  | nil => exact .nil
  | cons c s ih =>
    rw [List.flatMap_cons, escaped]
    split
    · rename_i hplain
      simp only [isPlain, Bool.and_eq_true, decide_eq_true_eq, bne_iff_ne] at hplain
      exact .plain ⟨hplain.1.1, hplain.1.2, hplain.2⟩ ih
    · rename_i hplain
      refine .unit (hexUnit?_digitChar c.toNat ?_) ih
      simp only [isPlain, Bool.and_eq_true, decide_eq_true_eq, bne_iff_ne] at hplain
      refine Nat.lt_of_not_le fun hlarge => hplain ⟨⟨by omega, ?_⟩, ?_⟩
      · rintro rfl
        exact absurd hlarge (by decide)
      · rintro rfl
        exact absurd hlarge (by decide)

theorem not_content_half (s : List Char) : ¬ Content s "\\ud800".toList := by
  intro h
  cases h with
  | plain hc _ => exact absurd rfl hc.2.2
  | named he _ => cases he
  | @unit _ _ _ _ c _ _ hu _ =>
    have hcode : 0xD800 = c.toNat := Option.some.inj hu
    have hvalid : c.toNat < 0xD800 ∨ (0xDFFF < c.toNat ∧ c.toNat < 0x110000) := c.valid
    omega

theorem spelledBy_quoted : ∀ s : Option String, (Doc.stringToken s).SpelledBy (quoted s)
  | some s => .string (content_escaped s.toList)
  | none => .halved (.unit rfl .nil) not_content_half

theorem Numeral.IsWritten.spelledBy {n : Numeral} (h : n.IsWritten) : n.SpelledBy n.text := by
  obtain ⟨negative, whole, part, power⟩ := n
  obtain ⟨hw, hp, he⟩ := h
  have hpart : PartSpelledBy part (Numeral.partText ⟨negative, whole, part, power⟩) := by
    cases part with
    | none => exact .absent
    | some s => exact .digits (hp s rfl)
  have hpower : PowerSpelledBy power (Numeral.powerText ⟨negative, whole, part, power⟩) := by
    cases power with
    | none => exact .absent
    | some p =>
      obtain ⟨sign, s⟩ := p
      exact .digits (.inl rfl) (signSpelledBy_minusText sign) (he _ rfl)
  exact .mk negative hw hpart hpower

section
variable {ts : List Token} {rest : List Char}

theorem spelled_cons {t : Token} {s : List Char} (hs : t.SpelledBy s)
    (hr : Stops t.runsInto rest) (h : Spelled ts rest) : Spelled (t :: ts) (s ++ rest) :=
  .cons (g := []) (by simp) hs hr h

theorem spelled_punct {c : Char} (hc : isPunct c = true) (h : Spelled ts rest) :
    Spelled (.punct c :: ts) (c :: rest) :=
  spelled_cons (s := [c]) (.punct hc) (fun _ _ => rfl) h

theorem spelled_quoted (s : Option String) (h : Spelled ts rest) :
    Spelled (Doc.stringToken s :: ts) (quoted s ++ rest) :=
  spelled_cons (spelledBy_quoted s) (fun _ _ => rfl) h

end

section
variable {w : Numeral → List Char}

mutual

/-- What a document is printed as spells it, in front of whatever does not go on with a number. -/
theorem spelled_print (d : Doc) {ts : List Token} {rest : List Char}
    (hd : ∀ n ∈ d.numerals, n.SpelledBy (w n))
    (hr : Stops continuesNumeral rest) (h : Spelled ts rest) :
    Spelled (d.tokens ++ ts) (d.print w ++ rest) := by
  match d with
  | .null =>
    rw [Doc.tokens, Doc.print]
    exact spelled_cons .null (fun _ _ => rfl) h
  | .bool true =>
    rw [Doc.tokens, Doc.print]
    exact spelled_cons .yes (fun _ _ => rfl) h
  | .bool false =>
    rw [Doc.tokens, Doc.print]
    exact spelled_cons .no (fun _ _ => rfl) h
  | .number n =>
    rw [Doc.tokens, Doc.print]
    exact spelled_cons (.number (hd n (by simp [Doc.numerals]))) hr h
  | .string s =>
    rw [Doc.tokens, Doc.print]
    exact spelled_quoted s h
  | .array [] =>
    rw [Doc.tokens, Doc.print]
    exact spelled_punct rfl (spelled_punct rfl h)
  | .array (d :: items) =>
    simp only [Doc.numerals, Doc.numeralsOfItems, List.mem_append] at hd
    simp only [Doc.tokens, Doc.print, List.cons_append, List.append_assoc, List.nil_append]
    have hclose : Spelled (.punct ']' :: ts) (']' :: rest) := spelled_punct rfl h
    obtain ⟨hstop, hbehind⟩ := spelled_printBehind items (fun n hn => hd n (.inr hn))
      (stops_cons.2 rfl) hclose
    exact spelled_punct rfl (spelled_print d (fun n hn => hd n (.inl hn)) hstop hbehind)
  | .object [] =>
    rw [Doc.tokens, Doc.print]
    exact spelled_punct rfl (spelled_punct rfl h)
  | .object ((key, d) :: ms) =>
    simp only [Doc.numerals, Doc.numeralsOfMembers, List.mem_append] at hd
    simp only [Doc.tokens, Doc.print, List.cons_append, List.append_assoc, List.nil_append]
    have hclose : Spelled (.punct '\x7d' :: ts) ('\x7d' :: rest) := spelled_punct rfl h
    obtain ⟨hstop, hbehind⟩ := spelled_printMembersBehind ms (fun n hn => hd n (.inr hn))
      (stops_cons.2 rfl) hclose
    have hvalue := spelled_print d (fun n hn => hd n (.inl hn)) hstop hbehind
    exact spelled_punct rfl (spelled_quoted key (spelled_punct rfl hvalue))

theorem spelled_printBehind (items : List Doc) {ts : List Token} {rest : List Char}
    (hd : ∀ n ∈ Doc.numeralsOfItems items, n.SpelledBy (w n))
    (hr : Stops continuesNumeral rest) (h : Spelled ts rest) :
    Stops continuesNumeral (Doc.printBehind w items ++ rest) ∧
      Spelled (Doc.tokensBehind items ++ ts) (Doc.printBehind w items ++ rest) := by
  match items with
  | [] =>
    rw [Doc.tokensBehind, Doc.printBehind]
    exact ⟨hr, h⟩
  | d :: items =>
    simp only [Doc.numeralsOfItems, List.mem_append] at hd
    simp only [Doc.tokensBehind, Doc.printBehind, List.cons_append, List.append_assoc]
    obtain ⟨hstop, hbehind⟩ := spelled_printBehind items (fun n hn => hd n (.inr hn)) hr h
    have hitem := spelled_print d (fun n hn => hd n (.inl hn)) hstop hbehind
    exact ⟨stops_cons.2 rfl, spelled_punct rfl hitem⟩

theorem spelled_printMembersBehind (ms : Members) {ts : List Token}
    {rest : List Char} (hd : ∀ n ∈ Doc.numeralsOfMembers ms, n.SpelledBy (w n))
    (hr : Stops continuesNumeral rest) (h : Spelled ts rest) :
    Stops continuesNumeral (Doc.printMembersBehind w ms ++ rest) ∧
      Spelled (Doc.memberTokensBehind ms ++ ts) (Doc.printMembersBehind w ms ++ rest) := by
  match ms with
  | [] =>
    rw [Doc.memberTokensBehind, Doc.printMembersBehind]
    exact ⟨hr, h⟩
  | (key, d) :: ms =>
    simp only [Doc.numeralsOfMembers, List.mem_append] at hd
    simp only [Doc.memberTokensBehind, Doc.printMembersBehind, List.cons_append, List.append_assoc]
    obtain ⟨hstop, hbehind⟩ := spelled_printMembersBehind ms (fun n hn => hd n (.inr hn)) hr h
    have hvalue := spelled_print d (fun n hn => hd n (.inl hn)) hstop hbehind
    exact ⟨stops_cons.2 rfl,
      spelled_punct rfl (spelled_quoted key (spelled_punct rfl hvalue))⟩

end

/-- Every document whose numbers can be written has a text. -/
theorem spelled_doc (d : Doc) (hd : ∀ n ∈ d.numerals, n.SpelledBy (w n)) :
    Spelled d.tokens (d.print w) := by
  have h := spelled_print d hd (stops_nil _) (.nil (g := []) (by simp))
  rwa [List.append_nil, List.append_nil] at h

end

end OpStubs.Json
