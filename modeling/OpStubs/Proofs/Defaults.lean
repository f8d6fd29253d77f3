import Mathlib.Tactic.Ring
import OpStubs.Proofs.Contract
import OpStubs.Proofs.Lua.Evaluation
import OpStubs.Proofs.Number.Scientific

namespace OpStubs.Number

theorem lt_pow_digitCount (n : Nat) : n < 10 ^ digitCount n := by
  rw [digitCount_eq]
  exact Nat.lt_pow_succ_log_self (by decide) n

theorem roundHalfEven_le {num den m : Nat} (hden : 0 < den) (h : num < m * den) :
    roundHalfEven num den ≤ m := by
  have hnear := (roundHalfEven_near num den hden).1
  by_contra hlt
  have hmul : (m + 1) * den ≤ roundHalfEven num den * den := Nat.mul_le_mul_right den (by omega)
  rw [Nat.add_mul, Nat.one_mul] at hmul
  omega

/-- A quotient that is shifted up or down to `places` digits has no more of them. -/
theorem lt_of_lt_pow {num den depth k : Nat} (places : Nat) (h : num * 10 ^ depth < 10 ^ k * den) :
    num * 10 ^ (places + depth - k) < 10 ^ places * (den * 10 ^ (k - (places + depth))) := by
  have hpos : 0 < 10 ^ depth := Nat.pow_pos (by decide)
  apply Nat.lt_of_mul_lt_mul_right (a := 10 ^ depth)
  by_cases hk : k ≤ places + depth
  · have hsplit : 10 ^ places * 10 ^ depth = 10 ^ k * 10 ^ (places + depth - k) := by
      rw [← pow_add, ← pow_add, Nat.add_sub_cancel' hk]
    have hmul := Nat.mul_lt_mul_of_pos_right h (Nat.pow_pos (n := places + depth - k) (a := 10)
      (by decide))
    rw [Nat.sub_eq_zero_of_le hk, pow_zero, Nat.mul_one]
    calc num * 10 ^ (places + depth - k) * 10 ^ depth
        = num * 10 ^ depth * 10 ^ (places + depth - k) := by ring
      _ < 10 ^ k * den * 10 ^ (places + depth - k) := hmul
      _ = 10 ^ k * 10 ^ (places + depth - k) * den := by ring
      _ = 10 ^ places * den * 10 ^ depth := by rw [← hsplit]; ring
  · have hsplit : 10 ^ places * 10 ^ depth * 10 ^ (k - (places + depth)) = 10 ^ k := by
      rw [← pow_add, ← pow_add, Nat.add_sub_cancel' (by omega)]
    rw [Nat.sub_eq_zero_of_le (by omega), pow_zero, Nat.mul_one]
    calc num * 10 ^ depth < 10 ^ k * den := h
      _ = 10 ^ places * (den * 10 ^ (k - (places + depth))) * 10 ^ depth := by
        rw [← hsplit]; ring

theorem digits_roundScientific (depth places num : Nat) {den : Nat} (hden : 0 < den) :
    (roundScientific depth places num den).digits < 10 ^ (places + 1) := by
  have hpos : 0 < 10 ^ (places + 1) := Nat.pow_pos (by decide)
  have hstep : 10 ^ places < 10 ^ (places + 1) := by
    rw [pow_succ]
    have := Nat.pow_pos (n := places) (a := 10) (by decide)
    omega
  unfold roundScientific
  by_cases hnum : num = 0
  · rw [if_pos hnum]
    exact hpos
  · rw [if_neg hnum]
    have hquot := (Nat.div_lt_iff_lt_mul hden).1 (lt_pow_digitCount (num * Nat.pow 10 depth / den))
    set k := digitCount (num * Nat.pow 10 depth / den) with hk
    have hup : ((places : Int) - floorLog10 depth num den).toNat = places + 1 + depth - k := by
      rw [floorLog10, ← hk]
      omega
    have hdown : (-((places : Int) - floorLog10 depth num den)).toNat =
        k - (places + 1 + depth) := by
      rw [floorLog10, ← hk]
      omega
    have hle := roundHalfEven_le (Nat.mul_pos hden (Nat.pow_pos (by decide)))
      (lt_of_lt_pow (places + 1) hquot)
    simp only [hup, hdown]
    split
    · exact hstep
    · rename_i hne
      exact Nat.lt_of_le_of_ne hle hne

end OpStubs.Number

namespace OpStubs.Lua

open Number

theorem rational_eq (d : Decimal) : rational d = d.digits * 10 ^ d.exponent := by
  rw [rational, Rat.mkRat_eq_div]
  exact ratio_eq_mul_zpow (by decide) d.digits d.exponent

namespace Numeral

theorem value_ofScientific {places : Nat} {d : ScientificForm}
    (hd : d.digits < 10 ^ (places + 1)) :
    (ofScientific places d).value = ⟨d.digits, d.power - places⟩ := by
  have hlen : (padded (places + 1) d.digits).length = places + 1 := by
    have hdigits := (Nat.length_toDigits_le_iff (b := 10) (by decide)
      (Nat.succ_pos places)).2 hd
    rw [padded, List.length_append, List.length_replicate]
    omega
  have hexponent : (ofScientific places d).exponentValue = d.power := by
    simp only [exponentValue, ofScientific, digitsValue_padded, decide_eq_true_eq]
    split
    · omega
    · omega
  have hdigits : digitsValue ((ofScientific places d).whole ++ (ofScientific places d).part) =
      d.digits := by
    rw [ofScientific, List.take_append_drop, digitsValue_padded]
  rw [value, hexponent, hdigits]
  simp [ofScientific, hlen]

end Numeral

namespace Literal

theorem value_ofInt (i : Int) : (ofInt i).value = .number i := by
  rw [ofInt, value, Numeral.value_ofNat, rational_natural]
  by_cases h : i < 0
  · have hi : i = -(i.natAbs : Int) := by omega
    rw [if_pos (decide_eq_true h)]
    conv_rhs => rw [hi, Int.cast_neg, Int.cast_natCast]
  · have hi : i = (i.natAbs : Int) := by omega
    rw [if_neg (by simpa using h)]
    conv_rhs => rw [hi, Int.cast_natCast]

theorem value_ofFloat (x : Binary32) : (ofFloat x).value = floatValue x := by
  unfold ofFloat floatValue
  by_cases hn : x.isNaN = true
  · rw [if_pos hn, if_pos hn, value]
  · rw [if_neg hn, if_neg hn]
    by_cases hi : x.isInfinite = true
    · rw [if_pos hi, if_pos hi, value]
    · rw [if_neg hi, if_neg hi]
      have hden : 0 < x.magnitude.den := Nat.pow_pos (by decide)
      rw [value, Numeral.value_ofScientific (digits_roundScientific 60 4 _ hden), rational_eq]
      rfl

end Literal

end OpStubs.Lua
