import OpStubs.Proofs.Json.Numeral
import OpStubs.Proofs.Json.Spelling
import OpStubs.Proofs.Lua.DefaultLiteral

namespace OpStubs.Number

open Json (IsDigits SignSpelledBy minusText signed)

theorem isDigits_toDigits (n : Nat) : IsDigits (Nat.toDigits 10 n) :=
  ⟨Nat.toDigits_ne_nil, Lua.isDigit_toDigits n⟩

theorem digitsValue_toDigits (n : Nat) : digitsValue (Nat.toDigits 10 n) = n := by
  rw [Lua.digitsValue_eq, Nat.ofDigitChars_ten_toDigits]

theorem toList_toString (i : Int) :
    (toString i).toList = minusText (decide (i < 0)) ++ Nat.toDigits 10 i.natAbs := by
  cases i with
  | ofNat n =>
    change n.repr.toList = _
    simp [minusText]
  | negSucc n =>
    change ("-" ++ (n + 1).repr).toList = _
    simp [minusText, Int.negSucc_lt_zero]

theorem signed_natAbs (i : Int) : signed (decide (i < 0)) i.natAbs = i := by
  unfold signed
  split <;> simp only [decide_eq_true_eq] at * <;> omega

theorem parseInt64?_append {negative : Bool} {sign digits : List Char}
    (hs : SignSpelledBy negative sign) (h : IsDigits digits) :
    parseInt64? (sign ++ digits) =
      if fits64 (signed negative (digitsValue digits)) then
        some (signed negative (digitsValue digits))
      else none := by
  have hsplit : splitSign (sign ++ (digits ++ [])) = (negative, digits ++ []) :=
    Json.splitSign_append hs h
  have hall : digits.all Char.isDigit = true := List.all_eq_true.2 h.2
  rw [List.append_nil] at hsplit
  simp only [parseInt64?, hsplit, h.1, hall, not_true, or_self, if_false]
  rfl

/-- The decimal of an integer is read if the integer has 64 bits. -/
theorem parseInt64?_toString (i : Int) :
    parseInt64? (toString i).toList = if fits64 i then some i else none := by
  rw [toList_toString, parseInt64?_append (Json.signSpelledBy_minusText _) (isDigits_toDigits _),
    digitsValue_toDigits, signed_natAbs]

end OpStubs.Number
