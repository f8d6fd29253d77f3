import OpStubs.Proofs.Json.Numeral
import OpStubs.Proofs.Number.Scientific

namespace OpStubs.Number

/-- The rational number that a decimal stands for. -/
def Decimal.value (d : Decimal) : ℚ := d.digits * 10 ^ d.exponent

theorem Decimal.den_pos (d : Decimal) : 0 < d.den := Nat.pow_pos (by decide)

theorem Decimal.num_div_den (d : Decimal) : (d.num : ℚ) / d.den = d.value :=
  ratio_eq_mul_zpow (by decide) d.digits d.exponent

theorem digitCount_le {k : ℕ} (hk : 0 < k) {n : ℕ} (h : n < 10 ^ k) : digitCount n ≤ k := by
  rw [digitCount_eq]
  rcases Nat.eq_zero_or_pos n with rfl | hn
  · rwa [Nat.log_zero_right]
  · exact Nat.log_lt_of_lt_pow hn.ne' h

theorem BinaryFormat.nearest_zero (f : BinaryFormat) : f.nearest 0 = some ⟨0, f.least⟩ := if_pos rfl

/-- The 32-bit float nearest to a decimal whose leading digit is not far from the point. -/
theorem Decimal.toBinary32_eq (negative : Bool) {d : Decimal}
    (h : d.digits = 0 ∨ -60 ≤ d.order ∧ d.order ≤ 60) :
    d.toBinary32 negative = Binary32.ofMagnitude negative (binary32.nearest d.value) := by
  rw [Decimal.toBinary32]
  by_cases hzero : d.digits = 0
  · have hvalue : d.value = 0 := by simp [Decimal.value, hzero]
    rw [if_pos (.inl hzero), hvalue, BinaryFormat.nearest_zero]
    rfl
  · obtain ⟨hlow, hhigh⟩ := h.resolve_left hzero
    rw [if_neg (by omega), if_neg (by omega), Binary32.ofFraction,
      BinaryFormat.round_eq _ _ d.den_pos, d.num_div_den]

end OpStubs.Number

namespace OpStubs.Json

open Number

def addDigit (n : ℕ) (c : Char) : ℕ := 10 * n + (c.toNat - '0'.toNat)

theorem le_foldl_addDigit (s : List Char) (n : ℕ) : n ≤ s.foldl addDigit n := by
  induction s generalizing n with
  | nil => exact le_rfl
  | cons c s ih =>
    have := ih (addDigit n c)
    rw [List.foldl_cons]
    rw [addDigit] at this ⊢
    omega

/-- Digits that fit into 64 bits are all kept. -/
theorem keepDigits_eq {s : List Char} {n : ℕ} (h : s.foldl addDigit n < 2 ^ 64) :
    keepDigits n s = (s.foldl addDigit n, 0) := by
  induction s generalizing n with
  | nil => rfl
  | cons c s ih =>
    have hle := le_foldl_addDigit s (addDigit n c)
    rw [List.foldl_cons] at h
    have hnext : addDigit n c < 0x10000000000000000 := by omega
    rw [keepDigits]
    change (if addDigit n c < 0x10000000000000000 then keepDigits (addDigit n c) s else _) = _
    rw [if_pos hnext, ih h, List.foldl_cons]

theorem Numeral.significand_eq {n : Numeral} (h : n.decimal.digits < 2 ^ 64) :
    n.significand.1 = n.decimal.digits ∧ n.significand.2 + n.exponent = n.decimal.exponent := by
  have happend : n.decimal.digits = (n.part.getD []).foldl addDigit (n.whole.foldl addDigit 0) := by
    rw [← List.foldl_append]
    rfl
  have hwhole : n.whole.foldl addDigit 0 < 2 ^ 64 :=
    lt_of_le_of_lt (le_foldl_addDigit _ _) (happend ▸ h)
  rw [happend] at h ⊢
  rw [significand, keepDigits_eq hwhole, decimal]
  cases hp : n.part with
  | none => simp
  | some part =>
    rw [hp] at h
    simp only [Option.getD_some] at h ⊢
    rw [keepDigits_eq h]
    simp
    omega

/-- A float that holds a number exactly. -/
theorem value_getD_round {a c : ℕ} {j : ℤ} (hc : 0 < c) (hlt : c < 2 ^ 53) (hlow : 0 ≤ j)
    (hhigh : j ≤ 971) (ha : (a : ℚ) = c * 2 ^ j) : ((binary64.round a 1).getD ⟨0, 0⟩).value = a := by
  obtain ⟨v, hv, hvalue⟩ := BinaryFormat.nearest_exact (f := binary64) hc hlt
    (by simp only [binary64]; omega) hhigh
  rw [binary64.round_eq a Nat.one_pos, Nat.cast_one, div_one, ha, hv]
  exact hvalue

theorem value_floatOf {n : ℕ} (h : n < 2 ^ 53) : (Numeral.floatOf n).value = n := by
  rcases Nat.eq_zero_or_pos n with rfl | hn
  · rw [Numeral.floatOf, binary64.round_eq 0 Nat.one_pos, Nat.cast_zero, zero_div,
      BinaryFormat.nearest_zero]
    simp [Magnitude.value]
  · exact value_getD_round hn h le_rfl (by norm_num) (by simp)

theorem value_powerOfTen {k : ℕ} (h : 5 ^ k < 2 ^ 53) : (powerOfTen k).value = 10 ^ k := by
  have hk : k < 23 := by
    refine Nat.lt_of_not_le fun hk => ?_
    have := Nat.pow_le_pow_right (by decide : 0 < 5) hk
    omega
  have hten : ((10 ^ k : ℕ) : ℚ) = (5 ^ k : ℕ) * 2 ^ (k : ℤ) := by
    push_cast
    rw [zpow_natCast, ← mul_pow]
    norm_num
  have hvalue := value_getD_round (Nat.pow_pos (by decide)) h (Int.natCast_nonneg k) (by omega) hten
  rw [Nat.cast_pow, Nat.cast_ofNat] at hvalue
  exact hvalue

theorem product_eq (a b : Magnitude) : product a b = binary64.nearest (a.value * b.value) := by
  rw [product, binary64.round_eq _ (Nat.mul_pos a.den_pos b.den_pos), ← a.num_div_den,
    ← b.num_div_den, div_mul_div_comm]
  push_cast
  rfl

theorem quotient_eq (a : Magnitude) {b : Magnitude} (hb : b.value ≠ 0) :
    quotient a b = binary64.nearest (a.value / b.value) := by
  have hnum : 0 < b.num := by
    refine Nat.pos_of_ne_zero fun hzero => hb ?_
    rw [← b.num_div_den, hzero, Nat.cast_zero, zero_div]
  rw [quotient, binary64.round_eq _ (Nat.mul_pos a.den_pos hnum), ← a.num_div_den,
    ← b.num_div_den, div_div_div_eq]
  push_cast
  rfl

/-- Digits are scaled exactly before they are rounded, if the power of ten is one that a float of
64 bits holds. -/
theorem scale_eq {digits : ℕ} {e : ℤ} (hdigits : digits < 2 ^ 53) (hlow : -12 ≤ e)
    (hhigh : 5 ^ e.toNat < 2 ^ 53) :
    scale (Numeral.floatOf digits) e = binary64.nearest (digits * 10 ^ e) := by
  rw [scale]
  dsimp only
  split
  case isTrue hneg =>
    obtain ⟨k, hk⟩ := Int.eq_ofNat_of_zero_le (by omega : 0 ≤ -e)
    have he : e = -k := by omega
    have hplaces : e.natAbs = k := by omega
    have hpow : 5 ^ k < 2 ^ 53 :=
      lt_of_le_of_lt (Nat.pow_le_pow_right (by decide) (by omega : k ≤ 12)) (by norm_num)
    have hten := value_powerOfTen hpow
    have hsteps : (k - 1) / greatestStep = 0 := Nat.div_eq_of_lt (by simp only [greatestStep]; omega)
    have hne : (powerOfTen k).value ≠ 0 := by
      rw [hten]
      positivity
    rw [hplaces, hsteps, Nat.mul_zero, Nat.sub_zero, scaleDown, quotient_eq _ hne, hten,
      value_floatOf hdigits, he, zpow_neg, zpow_natCast, div_eq_mul_inv]
  case isFalse hneg =>
    obtain ⟨k, rfl⟩ := Int.eq_ofNat_of_zero_le (by omega : 0 ≤ e)
    rw [Int.toNat_natCast] at hhigh
    have hk : k < 23 := by
      refine Nat.lt_of_not_le fun hk => ?_
      have := Nat.pow_le_pow_right (by decide : 0 < 5) hk
      omega
    rw [if_pos (by rw [greatestStep]; omega), Int.natAbs_natCast, product_eq,
      value_powerOfTen hhigh, value_floatOf hdigits, zpow_natCast]

namespace Numeral

/-- The 32-bit float nearest to a numeral. -/
def nearest (n : Numeral) : Binary32 := n.decimal.toBinary32 n.negative

section
variable {n : Numeral}

/-- Whether the digits of a numeral and its power of ten are floats of 64 bits. -/
def IsExact (n : Numeral) : Prop :=
  -12 ≤ n.decimal.exponent ∧ n.decimal.exponent ≤ 22 ∧
    n.decimal.digits * 5 ^ n.decimal.exponent.toNat < 2 ^ 53

/-- Whether a numeral is an integer of 64 bits or such a number. -/
def IsShort (n : Numeral) : Prop :=
  (n.part = none ∧ n.power = none ∧ n.decimal.digits ≤ 2 ^ 63) ∨ n.IsExact

theorem IsExact.digits_lt (h : n.IsExact) : n.decimal.digits < 2 ^ 53 :=
  lt_of_le_of_lt (Nat.le_mul_of_pos_right _ (Nat.pow_pos (by decide))) h.2.2

theorem IsExact.order (h : n.IsExact) : -60 ≤ n.decimal.order ∧ n.decimal.order ≤ 60 := by
  have hcount := digitCount_le (by decide : 0 < 16) (lt_trans h.digits_lt (by norm_num))
  obtain ⟨hlow, hhigh, _⟩ := h
  rw [Decimal.order]
  omega

/-- The float of 64 bits that is nearest to such a number narrows to the nearest of 32 bits. -/
theorem IsExact.nearest_twice (h : n.IsExact) :
    ∃ v, binary64.nearest n.decimal.value = some v ∧
      binary32.nearest v.value = binary32.nearest n.decimal.value := by
  rcases Nat.eq_zero_or_pos n.decimal.digits with hzero | hpos
  · have hvalue : n.decimal.value = 0 := by simp [Decimal.value, hzero]
    rw [hvalue]
    exact ⟨⟨0, binary64.least⟩, BinaryFormat.nearest_zero _, by simp [Magnitude.value]⟩
  · have hdigits := h.digits_lt
    obtain ⟨hlow, hhigh, hlt⟩ := h
    rcases Int.le_total 0 n.decimal.exponent with he | he
    · obtain ⟨k, hk⟩ := Int.eq_ofNat_of_zero_le he
      rw [hk, Int.toNat_natCast] at hlt
      have hvalue : n.decimal.value = (n.decimal.digits * 5 ^ k : ℕ) * 2 ^ (k : ℤ) := by
        rw [Decimal.value, hk]
        push_cast
        rw [zpow_natCast, zpow_natCast, mul_assoc, ← mul_pow]
        norm_num
      obtain ⟨v, hv, hv'⟩ := BinaryFormat.nearest_exact (f := binary64)
        (Nat.mul_pos hpos (Nat.pow_pos (by decide))) hlt (j := k)
        (by simp only [binary64]; omega) (by simp only [binary64]; omega)
      rw [hvalue]
      exact ⟨v, hv, by rw [hv']⟩
    · obtain ⟨k, hk⟩ := Int.eq_ofNat_of_zero_le (by omega : 0 ≤ -n.decimal.exponent)
      have hplaces : k ≤ 12 := by omega
      have hvalue : n.decimal.value = n.decimal.digits / 10 ^ k := by
        have he : n.decimal.exponent = -k := by omega
        rw [Decimal.value, he, zpow_neg, zpow_natCast, div_eq_mul_inv]
      have hx : 0 < n.decimal.value := by
        rw [hvalue]
        positivity
      have hbelow := zpow_log_le hx
      have habove := lt_zpow_log_succ n.decimal.value
      have hten : (0 : ℚ) < 10 ^ k := by positivity
      have hleast : -126 ≤ Int.log 2 n.decimal.value := by
        refine (Int.zpow_le_iff_le_log (by norm_num) hx).1 ?_
        rw [hvalue, le_div_iff₀ hten]
        have hone : (1 : ℚ) ≤ n.decimal.digits := by exact_mod_cast hpos
        have hpow : (10 : ℚ) ^ k ≤ 10 ^ 12 := pow_le_pow_right₀ (by norm_num) hplaces
        norm_num
        linarith
      have hgreatest : Int.log 2 n.decimal.value < 53 := by
        refine (Int.lt_zpow_iff_log_lt (by norm_num) hx).1 ?_
        rw [hvalue, div_lt_iff₀ hten]
        have hdigits' : (n.decimal.digits : ℚ) < 2 ^ 53 := by exact_mod_cast hdigits
        have hpow : (1 : ℚ) ≤ 10 ^ k := one_le_pow₀ (by norm_num)
        norm_num
        linarith
      exact Number.nearest_twice hbelow habove hleast (by omega)
        (eq_of_halfway hdigits hplaces hvalue hbelow)

theorem toBinary32_float (negative : Bool) (v : Magnitude) :
    (Num.float negative v).toBinary32 =
      Binary32.ofMagnitude negative (binary32.nearest v.value) := by
  rw [Num.toBinary32, Binary32.ofFraction, binary32.round_eq _ v.den_pos, v.num_div_den]

theorem IsExact.nearest_eq (h : n.IsExact) :
    n.nearest = Binary32.ofMagnitude n.negative (binary32.nearest n.decimal.value) :=
  Decimal.toBinary32_eq _ (.inr h.order)

/-- Such a number is read as a float that narrows to the nearest one. -/
theorem IsExact.float (h : n.IsExact) : ∃ v, n.float = .ok v ∧ v.toBinary32 = n.nearest := by
  obtain ⟨v, hv, hnarrow⟩ := h.nearest_twice
  have hdigits := h.digits_lt
  obtain ⟨hkept, hexponent⟩ := significand_eq (lt_trans hdigits (by norm_num))
  have hpow : 5 ^ n.decimal.exponent.toNat < 2 ^ 53 :=
    lt_of_le_of_lt (Nat.pow_le_pow_right (by decide) (by have := h.2.1; omega : _ ≤ 22))
      (by norm_num)
  have hscale := scale_eq hdigits h.1 hpow
  refine ⟨.float n.negative v, ?_, ?_⟩
  · rw [Numeral.float]
    simp only [hkept, hexponent, hscale]
    rw [← Decimal.value, hv]
  · rw [toBinary32_float, hnarrow, h.nearest_eq]

/-- An integer without point and exponent is read as itself if it is one of 64 bits. A zero keeps
its sign. -/
theorem value_of_integer (hpart : n.part = none) (hpower : n.power = none)
    (h : n.decimal.digits ≤ 2 ^ 63) : ∃ v, n.value = .ok v ∧ v.toBinary32 = n.nearest := by
  have hdecimal : n.decimal = ⟨digitsValue n.whole, 0⟩ := by
    simp [decimal, exponent, hpart, hpower]
  rw [hdecimal] at h
  dsimp only at h
  have horder : -60 ≤ Decimal.order ⟨digitsValue n.whole, 0⟩ ∧
      Decimal.order ⟨digitsValue n.whole, 0⟩ ≤ 60 := by
    have hcount := digitCount_le (by decide : 0 < 19) (lt_of_le_of_lt h (by norm_num))
    simp only [Decimal.order]
    omega
  have hnearest : n.nearest = Binary32.ofFraction n.negative (digitsValue n.whole) 1 := by
    rw [nearest, hdecimal, Decimal.toBinary32_eq _ (.inr horder), Binary32.ofFraction,
      binary32.round_eq _ Nat.one_pos]
    simp [Decimal.value]
  rw [value, hpart, hpower, if_pos ⟨rfl, rfl⟩, hnearest]
  cases hn : n.negative with
  | false =>
    rw [if_neg Bool.false_ne_true, if_pos (by omega)]
    have hsign : ¬(digitsValue n.whole : ℤ) < 0 := by omega
    refine ⟨_, rfl, ?_⟩
    simp [Num.toBinary32, hsign]
  | true =>
    rcases Nat.eq_zero_or_pos (digitsValue n.whole) with hzero | hpos
    · have hexact : n.IsExact := by simp [IsExact, hdecimal, hzero]
      obtain ⟨v, hv, hv'⟩ := hexact.float
      rw [if_pos rfl, if_neg (by omega), ← hn, ← hnearest]
      exact ⟨v, hv, hv'⟩
    · rw [if_pos rfl, if_pos (by omega)]
      refine ⟨_, rfl, ?_⟩
      simp [Num.toBinary32, hpos]

/-- A short number is read as one that narrows to the nearest float of 32 bits. -/
theorem IsShort.value (h : n.IsShort) : ∃ v, n.value = .ok v ∧ v.toBinary32 = n.nearest := by
  by_cases hinteger : n.part = none ∧ n.power = none
  · have hdigits : n.decimal.digits ≤ 2 ^ 63 := by
      rcases h with h | h
      · exact h.2.2
      · have := h.digits_lt
        omega
    exact value_of_integer hinteger.1 hinteger.2 hdigits
  · have hexact : n.IsExact := h.resolve_left fun h => hinteger ⟨h.1, h.2.1⟩
    have hfloat : n.value = n.float := by
      rw [Numeral.value, if_neg (by simpa using hinteger)]
    rw [hfloat]
    exact hexact.float

end

end Numeral

end OpStubs.Json
