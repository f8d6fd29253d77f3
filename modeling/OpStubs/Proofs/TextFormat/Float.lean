import Mathlib.Tactic.Linarith
import OpStubs.Proofs.Json.Float
import OpStubs.Proofs.Identifier
import OpStubs.Proofs.Json.Spelling
import OpStubs.Proofs.TextFormat.Spelling
import OpStubs.Registry.Text

namespace OpStubs.Number

theorem xor_signBit {m : ℕ} (h : m < 2 ^ 32) : m ^^^ 2 ^ 31 = (2 ^ 31 + m) % 2 ^ 32 := by
  have hlow := Nat.xor_mod_two_pow (a := m) (b := 2 ^ 31) (n := 31)
  have hhigh := Nat.xor_div_two_pow (a := m) (b := 2 ^ 31) (n := 31)
  have hbit : m / 2 ^ 31 = 0 ∨ m / 2 ^ 31 = 1 := by omega
  have hzero : m % 2 ^ 31 ^^^ 2 ^ 31 % 2 ^ 31 = m % 2 ^ 31 := by
    rw [Nat.mod_self, Nat.xor_zero]
  rcases hbit with hbit | hbit
  · have hflip : m / 2 ^ 31 ^^^ 2 ^ 31 / 2 ^ 31 = 1 := by rw [hbit]; rfl
    omega
  · have hflip : m / 2 ^ 31 ^^^ 2 ^ 31 / 2 ^ 31 = 0 := by rw [hbit]; rfl
    omega

/-- A float is negated by its sign bit. -/
theorem Binary32.negate_ofMagnitude (v : Option Magnitude) :
    (ofMagnitude false v).negate = ofMagnitude true v := by
  have hflip (k : ℕ) :
      UInt32.ofNat (signBit false + k) ^^^ 0x80000000 = UInt32.ofNat (signBit true + k) := by
    apply UInt32.toNat.inj
    have hxor := xor_signBit (Nat.mod_lt k (by norm_num : 0 < 2 ^ 32))
    simp only [signBit, UInt32.toNat_xor, UInt32.toNat_ofNat', Bool.false_eq_true, if_false, if_true,
      Nat.zero_add]
    have hsign : UInt32.toNat 2147483648 = 2 ^ 31 := rfl
    rw [hsign, hxor]
    omega
  exact congrArg Binary32.mk (hflip _)

end OpStubs.Number

namespace OpStubs.Json

section
variable {s : List Char}

theorem toLower_of_isDigit {c : Char} (h : c.isDigit = true) : c.toLower = c := by
  have hlt : c.toNat < 128 := Naming.toNat_lt_of_continuesName
    (by simp [Lua.Token.continuesName, Char.isAlphanum, h])
  have hall := Naming.ascii_induction (p := fun c => !c.isDigit || c.toLower == c) (by decide) hlt
  simpa [h] using hall

theorem IsDigits.map_toLower (h : IsDigits s) : s.map Char.toLower = s := by
  rw [List.map_congr_left fun c hc => toLower_of_isDigit (h.2 c hc), List.map_id']

theorem PartSpelledBy.map_toLower {part : Option (List Char)} (h : PartSpelledBy part s) :
    s.map Char.toLower = s := by
  cases h with
  | absent => rfl
  | digits h => rw [List.map_cons, h.map_toLower]; rfl

theorem PowerSpelledBy.map_toLower {power : Option (Bool × List Char)}
    (h : PowerSpelledBy power s) : PowerSpelledBy power (s.map Char.toLower) := by
  cases h with
  | absent => exact .absent
  | @digits e negative sign s he hs h =>
    have hsign : sign.map Char.toLower = sign := by cases hs <;> rfl
    rw [List.map_cons, List.map_append, hsign, h.map_toLower]
    rcases he with rfl | rfl
    · exact .digits (.inl rfl) hs h
    · exact .digits (.inl rfl) hs h

theorem readExponent_append {negative : Bool} {sign : List Char} (hs : SignSpelledBy negative sign)
    (h : IsDigits s) : Number.Decimal.readExponent (sign ++ s) =
      some (signed negative (Number.digitsValue s)) := by
  have hread : readSign (sign ++ (s ++ [])) = (negative, s ++ []) := readSign_append hs h
  have hall : s.all Char.isDigit = true := List.all_eq_true.2 h.2
  have hdef (t : List Char) : Number.Decimal.readExponent t =
      if (readSign t).2 = [] ∨ ¬(readSign t).2.all Char.isDigit then none
      else if (readSign t).1 then some (-(Number.digitsValue (readSign t).2 : Int))
      else some (Number.digitsValue (readSign t).2 : Int) := rfl
  rw [List.append_nil] at hread
  rw [hdef, hread, if_neg (by simp [h.1, hall]), signed]
  split <;> rfl

/-- Digits, a part and an exponent are read as the decimal that they stand for. -/
theorem parse?_unsigned {whole partText powerText : List Char} {part : Option (List Char)}
    {power : Option (Bool × List Char)} (hwhole : IsDigits whole)
    (hpart : PartSpelledBy part partText) (hpower : PowerSpelledBy power powerText)
    (negative : Bool) :
    Number.Decimal.parse? (whole ++ (partText ++ powerText)) =
      some (Numeral.decimal ⟨negative, whole, part, power⟩) := by
  have hpowerDigit : Stops Char.isDigit powerText := by
    have hstops : Stops Char.isDigit (powerText ++ []) := stops_powerText hpower (stops_nil _)
      Char.isDigit (fun c hc => by simp [continuesNumeral, hc]) rfl rfl
    rwa [List.append_nil] at hstops
  have hpartDigit : Stops Char.isDigit (partText ++ powerText) := by
    cases hpart with
    | absent => exact hpowerDigit
    | digits _ => exact stops_cons.2 rfl
  rw [Number.Decimal.parse?]
  simp only [takeWhile_append_of_stops hwhole.2 hpartDigit,
    dropWhile_append_of_stops hwhole.2 hpartDigit]
  cases hpart with
  | absent =>
    cases hpower with
    | absent => simp [hwhole.1, Numeral.decimal, Numeral.exponent]
    | digits he hs h =>
      rcases he with rfl | rfl <;>
        simp [hwhole.1, readExponent_append hs h, Numeral.decimal, Numeral.exponent, signed]
  | digits hpart =>
    simp only [List.cons_append, takeWhile_append_of_stops hpart.2 hpowerDigit,
      dropWhile_append_of_stops hpart.2 hpowerDigit]
    cases hpower with
    | absent => simp [hwhole.1, Numeral.decimal, Numeral.exponent]
    | digits he hs h =>
      rcases he with rfl | rfl <;>
        simp [hwhole.1, readExponent_append hs h, Numeral.decimal, Numeral.exponent, signed]

/-- Whether a text ends with a digit. -/
def EndsDigit (s : List Char) : Prop := ∃ before d, s = before ++ [d] ∧ d.isDigit = true

theorem EndsDigit.append (h : EndsDigit s) (before : List Char) : EndsDigit (before ++ s) := by
  obtain ⟨r, d, rfl, hd⟩ := h
  exact ⟨before ++ r, d, by rw [List.append_assoc], hd⟩

theorem IsDigits.endsDigit (h : IsDigits s) : EndsDigit s := by
  obtain ⟨hne, hdigits⟩ := h
  exact ⟨s.dropLast, s.getLast hne, (List.dropLast_append_getLast hne).symm,
    hdigits _ (List.getLast_mem hne)⟩

theorem endsDigit_unsigned {whole partText powerText : List Char} {part : Option (List Char)}
    {power : Option (Bool × List Char)} (hwhole : IsDigits whole)
    (hpart : PartSpelledBy part partText) (hpower : PowerSpelledBy power powerText) :
    EndsDigit (whole ++ (partText ++ powerText)) := by
  cases hpower with
  | absent =>
    rw [List.append_nil]
    cases hpart with
    | absent =>
      rw [List.append_nil]
      exact hwhole.endsDigit
    | digits h => exact (h.endsDigit.append ['.']).append whole
  | @digits e _ sign _ _ _ h =>
    exact (((h.endsDigit.append sign).append [e]).append partText).append whole

end

end OpStubs.Json

namespace OpStubs.TextFormat

open Json Number

theorem toBinary32_negate (d : Decimal) : (d.toBinary32 false).negate = d.toBinary32 true := by
  unfold Decimal.toBinary32
  split
  · exact Binary32.negate_ofMagnitude _
  · split
    · exact Binary32.negate_ofMagnitude _
    · exact Binary32.negate_ofMagnitude _

theorem ne_of_isDigit {c : Char} (h : c.isDigit = true) {d : Char} (hd : d.isDigit = false) :
    c ≠ d := by
  rintro rfl
  rw [h] at hd
  cases hd

theorem dropWhile_reverse_endsDigit {s : List Char} (h : EndsDigit s) :
    (s.reverse.dropWhile (· == 'f')).reverse = s := by
  obtain ⟨before, d, rfl, hd⟩ := h
  have hf : (d == 'f') = false := by simpa using ne_of_isDigit hd rfl
  rw [List.reverse_append, List.reverse_singleton, List.singleton_append, List.dropWhile_cons, hf]
  simp

/-- What begins with a digit is read as a decimal without a sign. -/
theorem parse?_digit {c : Char} (hc : c.isDigit = true) (r : List Char) :
    Binary32.parse? (c :: r) = (Decimal.parse? (c :: r)).map (Decimal.toBinary32 false) := by
  have hdigits : Json.IsDigits [c] := ⟨List.cons_ne_nil c [], List.forall_mem_singleton.2 hc⟩
  have hsplit : splitSign (c :: r) = (false, c :: r) := Json.splitSign_append .absent hdigits
  have hi : c ≠ 'i' := ne_of_isDigit hc rfl
  have hn : c ≠ 'n' := ne_of_isDigit hc rfl
  rw [Binary32.parse?, hsplit]
  simp [toLower_of_isDigit hc, hi, hn]

/-- A number is read as the nearest float. -/
theorem float?_spelled {n : Json.Numeral} {s : List Char} (h : n.SpelledBy s) :
    Entry.float? s = some n.nearest := by
  cases h with
  | @mk negative whole partText powerText part power hwhole hpart hpower =>
    obtain ⟨c, r, rfl, hc⟩ := hwhole.1.head
    have hlower : (c :: r ++ (partText ++ powerText)).map Char.toLower =
        c :: r ++ (partText ++ powerText.map Char.toLower) := by
      rw [List.map_append, List.map_append, hwhole.1.map_toLower, hpart.map_toLower]
    have hparse := parse?_unsigned hwhole.1 hpart hpower.map_toLower negative
    have hend := endsDigit_unsigned hwhole.1 hpart hpower.map_toLower
    simp only [List.cons_append] at hlower hparse hend
    have hi : c ≠ 'i' := ne_of_isDigit hc rfl
    have hn : c ≠ 'n' := ne_of_isDigit hc rfl
    have hmagnitude : (Binary32.parse? (List.dropWhile (· == 'f')
        (c :: (r ++ (partText ++ powerText.map Char.toLower))).reverse).reverse) =
        some ((Json.Numeral.decimal ⟨negative, c :: r, part, power⟩).toBinary32 false) := by
      rw [dropWhile_reverse_endsDigit hend, parse?_digit hc, hparse]
      rfl
    rw [Entry.float?.eq_def]
    split
    rename_i negative' body hsplit
    have hbody : (negative', body) = (negative, c :: (r ++ (partText ++ powerText))) := by
      rw [← hsplit]
      cases negative with
      | true => rfl
      | false =>
        simp only [minusText, Bool.false_eq_true, if_false, List.nil_append, List.cons_append]
        split
        · rename_i heq
          exact absurd (List.cons.inj heq).1 (ne_of_isDigit hc rfl)
        · rfl
    cases hbody
    simp only [hlower]
    rw [if_neg (by simp [hi]), if_neg (by simp [hn]), hmagnitude, Option.map_some,
      Json.Numeral.nearest]
    cases negative with
    | true => exact congrArg some (toBinary32_negate _)
    | false => rfl

theorem numberTail_plain {a b : List Char} {last : Char}
    (ha : ∀ c ∈ a, c.isDigit = true ∨ c = '.') (hb : ∀ last, numberTail last b = b) :
    numberTail last (a ++ b) = a ++ b := by
  induction a generalizing last with
  | nil => exact hb last
  | cons c a ih =>
    have hc : continuesNumber last c = true := by
      rcases ha c (by simp) with h | rfl <;> simp [continuesNumber, *]
    rw [List.cons_append, numberTail, if_pos hc, ih fun d hd => ha d (by simp [hd])]

theorem numberTail_digits {s : List Char} (h : IsDigits s) (last : Char) :
    numberTail last s = s := by
  have hplain : numberTail last (s ++ []) = s ++ [] :=
    numberTail_plain (fun c hc => .inl (h.2 c hc)) fun _ => rfl
  rwa [List.append_nil] at hplain

theorem numberTail_power {power : Option (Bool × List Char)} {s : List Char}
    (h : PowerSpelledBy power s) (last : Char) : numberTail last s = s := by
  cases h with
  | absent => rfl
  | @digits e negative sign s he hs h =>
    have hmark : continuesNumber last e = true := by
      rcases he with rfl | rfl <;> simp [continuesNumber, isLetter]
    have hsign (c : Char) (hc : c = '-' ∨ c = '+') : continuesNumber e c = true := by
      rcases he with rfl | rfl <;> rcases hc with rfl | rfl <;> rfl
    rw [numberTail, if_pos hmark]
    cases hs with
    | absent => rw [List.nil_append, numberTail_digits h]
    | plus =>
      rw [List.singleton_append, numberTail, if_pos (hsign _ (.inr rfl)), numberTail_digits h]
    | minus =>
      rw [List.singleton_append, numberTail, if_pos (hsign _ (.inl rfl)), numberTail_digits h]

/-- A number without its sign is one token. -/
theorem isNumber_unsigned {whole partText powerText : List Char} {part : Option (List Char)}
    {power : Option (Bool × List Char)} (hwhole : IsDigits whole)
    (hpart : PartSpelledBy part partText) (hpower : PowerSpelledBy power powerText) :
    isNumber (whole ++ (partText ++ powerText)) = true := by
  obtain ⟨c, r, rfl, hc⟩ := hwhole.head
  have hplain : ∀ d ∈ r ++ partText, d.isDigit = true ∨ d = '.' := by
    intro d hd
    rcases List.mem_append.1 hd with hd | hd
    · exact .inl (hwhole.2 d (by simp [hd]))
    · cases hpart with
      | absent => cases hd
      | digits h =>
        rcases List.mem_cons.1 hd with rfl | hd
        · exact .inr rfl
        · exact .inl (h.2 d hd)
  have htail : numberTail c (r ++ partText ++ powerText) = r ++ partText ++ powerText :=
    numberTail_plain hplain (numberTail_power hpower)
  rw [List.append_assoc] at htail
  simp [isNumber, startsNumber, hc, htail]

end OpStubs.TextFormat
