import OpStubs.Proofs.Json.Float

namespace OpStubs.Number

section
variable {x : ℚ}

/-- The float of 64 bits nearest to a number is as near as its mantissa is long. -/
theorem nearest_near (hx : 1 ≤ x) (hfit : x * (1 + 1 / 2 ^ 53) < 2 ^ 1024) :
    ∃ v, binary64.nearest x = some v ∧ |x - v.value| ≤ x / 2 ^ 53 := by
  have hpos : 0 < x := by linarith
  have hlow := zpow_log_le hpos
  have hhigh := lt_zpow_log_succ x
  generalize Int.log 2 x = e at hlow hhigh
  have he : 0 ≤ e := by
    by_contra hneg
    have hle : (2 : ℚ) ^ (e + 1) ≤ 2 ^ (0 : ℤ) := zpow_le_zpow_right₀ (by norm_num) (by omega)
    rw [zpow_zero] at hle
    linarith
  have hunit : (0 : ℚ) < 2 ^ (e - 52) := zpow_pos (by norm_num) _
  have hnearest := BinaryFormat.nearest_of_le (f := binary64) (q := 52) hlow hhigh.le rfl
    (by simp only [binary64]; omega)
  have hround := (isNearestEven_nearestEven (div_nonneg hpos.le hunit.le)).abs_le
  push_cast at hnearest
  generalize nearestEven (x / 2 ^ (e - 52)) = m at hnearest hround
  have hdist : |x - m * 2 ^ (e - 52)| ≤ x / 2 ^ 53 := by
    have hscale : x - m * 2 ^ (e - 52) = (x / 2 ^ (e - 52) - m) * 2 ^ (e - 52) := by
      rw [sub_mul, div_mul_cancel₀ _ hunit.ne']
    have hhalf : 1 / 2 * (2 : ℚ) ^ (e - 52) = 2 ^ e / 2 ^ 53 := by
      rw [zpow_sub₀ (by norm_num)]
      norm_num
      ring
    calc |x - m * 2 ^ (e - 52)| = |x / 2 ^ (e - 52) - m| * 2 ^ (e - 52) := by
          rw [hscale, abs_mul, abs_of_pos hunit]
      _ ≤ 1 / 2 * 2 ^ (e - 52) := by gcongr
      _ ≤ x / 2 ^ 53 := by rw [hhalf]; gcongr
  have hlt : (m : ℚ) * 2 ^ (e - 52) < 2 ^ (1024 : ℤ) := by
    have hle := (abs_le.1 hdist).1
    calc (m : ℚ) * 2 ^ (e - 52) ≤ x + x / 2 ^ 53 := by linarith
      _ = x * (1 + 1 / 2 ^ 53) := by ring
      _ < 2 ^ (1024 : ℤ) := by exact_mod_cast hfit
  have hexp : e < 1024 := by
    have hone : x ≤ x * (1 + 1 / 2 ^ 53) := le_mul_of_one_le_right hpos.le (by norm_num)
    have hlt' : (2 : ℚ) ^ e < 2 ^ (1024 : ℤ) :=
      lt_of_le_of_lt (le_trans hlow hone) (by exact_mod_cast hfit)
    exact (zpow_lt_zpow_iff_right₀ (by norm_num)).1 hlt'
  by_cases hm : m = 2 ^ 53
  · have hcarry : (2 : ℚ) ^ (e + 1) < 2 ^ (1024 : ℤ) := by
      have hpow : ((2 ^ 53 : ℕ) : ℚ) * 2 ^ (e - 52) = 2 ^ (e + 1) := by
        have hplaces : ((53 : ℕ) : ℤ) + (e - 52) = e + 1 := by
          push_cast
          ring
        rw [Nat.cast_pow, Nat.cast_ofNat, ← zpow_natCast, ← zpow_add₀ (by norm_num), hplaces]
      rwa [hm, hpow] at hlt
    have hexp' := (zpow_lt_zpow_iff_right₀ (by norm_num : (1 : ℚ) < 2)).1 hcarry
    obtain ⟨v, hv, hvalue⟩ := BinaryFormat.pack_value (f := binary64) (by decide) (m := m)
      (e := e - 52) (by simp only [binary64]; omega)
    exact ⟨v, hnearest.trans hv, by rwa [hvalue]⟩
  · have hv := BinaryFormat.pack_eq (f := binary64) (m := m) (e := e - 52) hm
      (by simp only [binary64]; omega)
    exact ⟨_, hnearest.trans hv, hdist⟩

/-- The nearest float of a number that is not large is at most twice the number. -/
theorem nearest_le_twice (hx : 0 ≤ x) (hfit : x < 2 ^ 128) :
    ∃ v, binary64.nearest x = some v ∧ v.value ≤ 2 * x := by
  rcases hx.eq_or_lt with rfl | hpos
  · exact ⟨_, BinaryFormat.nearest_zero _, by simp [Magnitude.value]⟩
  · have hlog : Int.log 2 x < 128 := by
      refine (Int.lt_zpow_iff_log_lt (by norm_num) hpos).1 ?_
      exact_mod_cast hfit
    rw [BinaryFormat.nearest, if_neg hpos.ne']
    dsimp only
    generalize he : max (Int.log 2 x - (binary64.precision - 1)) binary64.least = e
    have hgreatest : e < binary64.greatest := by
      simp only [binary64] at he ⊢
      omega
    have hunit : (0 : ℚ) < 2 ^ e := zpow_pos (by norm_num) _
    have hquot : 0 ≤ x / 2 ^ e := div_nonneg hx hunit.le
    obtain ⟨v, hv, hvalue⟩ := BinaryFormat.pack_value (f := binary64) (by decide)
      (m := nearestEven (x / 2 ^ e)) hgreatest
    refine ⟨v, hv, ?_⟩
    have htwice : (nearestEven (x / 2 ^ e) : ℚ) ≤ 2 * (x / 2 ^ e) := by
      have hround := (abs_le.1 (isNearestEven_nearestEven hquot).abs_le).1
      rcases Nat.eq_zero_or_pos (nearestEven (x / 2 ^ e)) with hzero | hone
      · rw [hzero]
        push_cast
        linarith
      · have hone' : (1 : ℚ) ≤ nearestEven (x / 2 ^ e) := by exact_mod_cast hone
        linarith
    calc v.value = nearestEven (x / 2 ^ e) * 2 ^ e := hvalue
      _ ≤ 2 * (x / 2 ^ e) * 2 ^ e := by gcongr
      _ = 2 * x := by rw [mul_assoc, div_mul_cancel₀ _ hunit.ne']

end

end OpStubs.Number

namespace OpStubs.Json

open Number

/-- How much larger than a number its nearest float of 64 bits can be. -/
def excess : ℚ := 1 + 1 / 2 ^ 53

theorem one_le_excess : 1 ≤ excess := by norm_num [excess]

theorem excess_le_two : excess ≤ 2 := by norm_num [excess]

theorem excess_pos : 0 < excess := by norm_num [excess]

/-- The greatest number that the reader is sure to take. -/
def greatestNumber : ℕ := 17976931348623153 * 10 ^ 292

/-- Three roundings leave the greatest number below what floats end at. -/
theorem greatestNumber_fits : greatestNumber * excess ^ 3 < 2 ^ 1024 := by
  have hten : (10 : ℚ) ^ 292 = (10 ^ 146) ^ 2 := by rw [← pow_mul]
  have htwo : (2 : ℚ) ^ 1024 = (2 ^ 256) ^ 4 := by rw [← pow_mul]
  rw [greatestNumber, Nat.cast_mul, Nat.cast_pow, Nat.cast_ofNat, Nat.cast_ofNat, hten, htwo]
  norm_num [excess]

theorem greatestNumber_bounds :
    (10 : ℚ) ^ 308 ≤ greatestNumber ∧ (greatestNumber : ℚ) < 10 ^ 309 := by
  have hsplit (k : ℕ) : (10 : ℚ) ^ (292 + k) = 10 ^ k * 10 ^ 292 := by rw [pow_add, mul_comm]
  rw [greatestNumber, Nat.cast_mul, Nat.cast_pow, Nat.cast_ofNat, Nat.cast_ofNat, hsplit 16,
    hsplit 17]
  constructor
  · gcongr
    norm_num
  · gcongr
    norm_num

theorem value_nonneg (v : Magnitude) : 0 ≤ v.value :=
  mul_nonneg v.mantissa.cast_nonneg (zpow_pos (by norm_num : (0 : ℚ) < 2) _).le

theorem value_round_bounds {a : ℕ} (ha : 0 < a) (hfit : a * excess < 2 ^ 1024) :
    a / 2 ≤ ((binary64.round a 1).getD ⟨0, 0⟩).value ∧
      ((binary64.round a 1).getD ⟨0, 0⟩).value ≤ a * excess := by
  have hone : (1 : ℚ) ≤ a := by exact_mod_cast ha
  obtain ⟨v, hv, hnear⟩ := nearest_near hone hfit
  rw [binary64.round_eq a Nat.one_pos, Nat.cast_one, div_one, hv, Option.getD_some]
  obtain ⟨hlow, hhigh⟩ := abs_le.1 hnear
  have hsplit : (a : ℚ) * excess = a + a / 2 ^ 53 := by
    rw [excess]
    ring
  have hhalf : (a : ℚ) / 2 ^ 53 ≤ a / 2 := by
    gcongr
    norm_num
  rw [hsplit]
  constructor
  · linarith
  · linarith

theorem powerOfTen_bounds {k : ℕ} (hk : k ≤ greatestStep) :
    10 ^ k / 2 ≤ (powerOfTen k).value ∧ (powerOfTen k).value ≤ 10 ^ k * excess := by
  have hpow : ((10 ^ k : ℕ) : ℚ) ≤ greatestNumber := by
    rw [Nat.cast_pow, Nat.cast_ofNat]
    exact le_trans (pow_le_pow_right₀ (by norm_num) hk) greatestNumber_bounds.1
  have hfit : ((10 ^ k : ℕ) : ℚ) * excess < 2 ^ 1024 := by
    have hthree : excess ≤ excess ^ 3 := le_self_pow₀ one_le_excess (by decide)
    refine lt_of_le_of_lt ?_ greatestNumber_fits
    exact mul_le_mul hpow hthree excess_pos.le (Nat.cast_nonneg _)
  have hbounds := value_round_bounds (Nat.pow_pos (by decide)) hfit
  rw [Nat.cast_pow, Nat.cast_ofNat] at hbounds
  exact hbounds

theorem value_floatOf_le {n : ℕ} (h : n < 2 ^ 64) : (Numeral.floatOf n).value ≤ n * excess := by
  rcases Nat.eq_zero_or_pos n with rfl | hn
  · rw [value_floatOf (by norm_num), Nat.cast_zero, zero_mul]
  · refine (value_round_bounds hn ?_).2
    have hlt : (n : ℚ) ≤ 2 ^ 64 := by exact_mod_cast h.le
    calc (n : ℚ) * excess ≤ 2 ^ 64 * 2 := mul_le_mul hlt excess_le_two excess_pos.le (by norm_num)
      _ = 2 ^ 65 := by norm_num
      _ < 2 ^ 1024 := pow_lt_pow_right₀ (by norm_num) (by norm_num)

/-- Division by `b` halves a number `2 * b` times at least, and rounding doubles it at most. -/
theorem exists_quotient {v b : Magnitude} {c : ℚ} (hc : 0 < c) (hb : c ≤ b.value)
    (hfit : v.value / c < 2 ^ 128) : ∃ w, quotient v b = some w ∧ w.value ≤ 2 * (v.value / c) := by
  have hpos : 0 < b.value := lt_of_lt_of_le hc hb
  have hsmall : v.value / b.value ≤ v.value / c := div_le_div_of_nonneg_left (value_nonneg v) hc hb
  obtain ⟨w, hw, hle⟩ := nearest_le_twice (div_nonneg (value_nonneg v) hpos.le)
    (lt_of_le_of_lt hsmall hfit)
  refine ⟨w, by rw [quotient_eq v hpos.ne', hw], ?_⟩
  linarith

/-- To divide a number that is not large leads past no float. -/
theorem exists_scaleDown {step last : Magnitude} (hstep : 2 ≤ step.value)
    (hlast : 1 / 2 ≤ last.value) (steps : ℕ) {v : Magnitude} (hv : v.value ≤ 2 ^ 65) :
    ∃ w, scaleDown step last steps v = some w := by
  induction steps generalizing v with
  | zero =>
    have hfit : v.value / (1 / 2) < 2 ^ 128 := by
      calc v.value / (1 / 2) = v.value * 2 := by ring
        _ ≤ 2 ^ 65 * 2 := by linarith
        _ < 2 ^ 128 := by norm_num
    obtain ⟨w, hw, -⟩ := exists_quotient (by norm_num) hlast hfit
    exact ⟨w, hw⟩
  | succ steps ih =>
    rw [scaleDown]
    split
    · exact ⟨v, rfl⟩
    · have hfit : v.value / 2 < 2 ^ 128 := by
        calc v.value / 2 ≤ 2 ^ 65 / 2 := by linarith
          _ < 2 ^ 128 := by norm_num
      obtain ⟨w, hw, hle⟩ := exists_quotient (by norm_num) hstep hfit
      rw [hw, Option.bind_some]
      exact ih (by linarith)

/-- A number up to the greatest one is scaled. -/
theorem exists_scale {digits : ℕ} {e : ℤ} (hdigits : digits < 2 ^ 64)
    (h : (digits : ℚ) * 10 ^ e ≤ greatestNumber) :
    ∃ v, scale (Numeral.floatOf digits) e = some v := by
  have hfloat := value_floatOf_le hdigits
  rw [scale]
  dsimp only
  split
  case isTrue hneg =>
    have hstep := Nat.div_add_mod (e.natAbs - 1) greatestStep
    have hmod := Nat.mod_lt (e.natAbs - 1) (by decide : 0 < greatestStep)
    have hlt : (digits : ℚ) ≤ 2 ^ 64 := by exact_mod_cast hdigits.le
    have hlarge : 2 ≤ (powerOfTen greatestStep).value := by
      have hten : (10 : ℚ) ^ 1 ≤ 10 ^ greatestStep :=
        pow_le_pow_right₀ (by norm_num) (by decide : 1 ≤ greatestStep)
      refine le_trans ?_ (powerOfTen_bounds le_rfl).1
      rw [le_div_iff₀ (by norm_num)]
      exact le_trans (by norm_num) hten
    refine exists_scaleDown hlarge (le_trans ?_ (powerOfTen_bounds (by omega)).1) _ ?_
    · gcongr
      exact one_le_pow₀ (by norm_num)
    calc (Numeral.floatOf digits).value ≤ digits * excess := hfloat
      _ ≤ 2 ^ 64 * 2 := mul_le_mul hlt excess_le_two excess_pos.le (by norm_num)
      _ = 2 ^ 65 := by norm_num
  case isFalse hneg =>
    obtain ⟨k, rfl⟩ := Int.eq_ofNat_of_zero_le (by omega : 0 ≤ e)
    rw [zpow_natCast] at h
    rw [Int.natAbs_natCast]
    split
    case isTrue hk =>
      have hx : (Numeral.floatOf digits).value * (powerOfTen k).value ≤
          greatestNumber * excess ^ 2 := by
        have hexcess := excess_pos
        calc (Numeral.floatOf digits).value * (powerOfTen k).value
            ≤ digits * excess * (10 ^ k * excess) :=
              mul_le_mul hfloat (powerOfTen_bounds hk).2 (value_nonneg _) (by positivity)
          _ = digits * 10 ^ k * excess ^ 2 := by ring
          _ ≤ greatestNumber * excess ^ 2 := by gcongr
      have hnonneg : 0 ≤ (Numeral.floatOf digits).value * (powerOfTen k).value :=
        mul_nonneg (value_nonneg _) (value_nonneg _)
      rw [product_eq]
      generalize (Numeral.floatOf digits).value * (powerOfTen k).value = x at hx hnonneg
      rcases le_total 1 x with hone | hone
      · have hfit : x * excess < 2 ^ 1024 := by
          calc x * excess ≤ greatestNumber * excess ^ 2 * excess :=
                mul_le_mul_of_nonneg_right hx excess_pos.le
            _ = greatestNumber * excess ^ 3 := by ring
            _ < 2 ^ 1024 := greatestNumber_fits
        obtain ⟨v, hv, -⟩ := nearest_near hone hfit
        exact ⟨v, hv⟩
      · obtain ⟨v, hv, -⟩ := nearest_le_twice hnonneg (lt_of_le_of_lt hone (by norm_num))
        exact ⟨v, hv⟩
    case isFalse hk =>
      have hzero : digits = 0 := by
        by_contra hne
        have hone : (1 : ℚ) ≤ digits := by exact_mod_cast Nat.one_le_iff_ne_zero.2 hne
        have hpow : (10 : ℚ) ^ 309 ≤ 10 ^ k :=
          pow_le_pow_right₀ (by norm_num) (Nat.lt_of_not_le hk)
        have hle : (10 : ℚ) ^ k ≤ digits * 10 ^ k := le_mul_of_one_le_left (by positivity) hone
        exact absurd greatestNumber_bounds.2 (not_lt.2 (le_trans hpow (le_trans hle h)))
      subst hzero
      exact ⟨Numeral.floatOf 0, if_pos rfl⟩

/-- Digits stand for at least as much as those in front of them. -/
theorem pow_le_foldl_addDigit (s : List Char) (n : ℕ) : n * 10 ^ s.length ≤ s.foldl addDigit n := by
  induction s generalizing n with
  | nil => simp
  | cons c s ih =>
    have hnext : 10 * n ≤ addDigit n c := Nat.le_add_right _ _
    calc n * 10 ^ (s.length + 1) = 10 * n * 10 ^ s.length := by ring
      _ ≤ addDigit n c * 10 ^ s.length := Nat.mul_le_mul_right _ hnext
      _ ≤ s.foldl addDigit (addDigit n c) := ih _

theorem foldl_addDigit_mono (s : List Char) {m n : ℕ} (h : m ≤ n) :
    s.foldl addDigit m ≤ s.foldl addDigit n := by
  induction s generalizing m n with
  | nil => exact h
  | cons c s ih => exact ih (Nat.add_le_add_right (Nat.mul_le_mul_left 10 h) _)

/-- What is kept of some digits has 64 bits, and what they stand for has more if one is left out. -/
theorem keepDigits_spec (s : List Char) {n : ℕ} (hn : n < 2 ^ 64) {kept left : ℕ}
    (h : keepDigits n s = (kept, left)) :
    kept < 2 ^ 64 ∧ left ≤ s.length ∧ kept * 10 ^ left ≤ s.foldl addDigit n ∧
      (left = s.length → kept = n) ∧ (left ≠ 0 → 2 ^ 64 * 10 ^ (left - 1) ≤ s.foldl addDigit n) := by
  induction s generalizing n with
  | nil =>
    cases h
    exact ⟨hn, le_rfl, by simp, fun _ => rfl, fun h => absurd rfl h⟩
  | cons c s ih =>
    change (if addDigit n c < 0x10000000000000000 then keepDigits (addDigit n c) s
      else (n, s.length + 1)) = _ at h
    split at h
    · rename_i hnext
      obtain ⟨hkept, hleft, hle, -, hpast⟩ := ih hnext h
      refine ⟨hkept, Nat.le_succ_of_le hleft, hle, fun hall => ?_, hpast⟩
      rw [List.length_cons] at hall
      omega
    · rename_i hnext
      cases h
      refine ⟨hn, le_rfl, pow_le_foldl_addDigit (c :: s) kept, fun _ => rfl, fun _ => ?_⟩
      have hlarge : 2 ^ 64 ≤ addDigit kept c := Nat.le_of_not_lt hnext
      exact le_trans (Nat.mul_le_mul_right _ hlarge) (pow_le_foldl_addDigit s _)

/-- Digits before and behind a point that are kept stand for no more than all digits. -/
theorem keepDigits_twice_le {w p : List Char} {whole left all more : ℕ}
    (hwhole : keepDigits 0 w = (whole, left)) (hall : keepDigits whole p = (all, more)) :
    all < 2 ^ 64 ∧ more ≤ p.length ∧ all * 10 ^ (left + more) ≤ (w ++ p).foldl addDigit 0 := by
  obtain ⟨hkept, -, hle, -, hpast⟩ := keepDigits_spec w (by norm_num) hwhole
  obtain ⟨hkept', hmore, hle', hnone, -⟩ := keepDigits_spec p hkept hall
  refine ⟨hkept', hmore, ?_⟩
  rw [List.foldl_append]
  generalize w.foldl addDigit 0 = before at hle hpast
  have hshift : before * 10 ^ p.length ≤ p.foldl addDigit before := pow_le_foldl_addDigit p before
  by_cases hleft : left = 0
  · subst hleft
    have hmono := foldl_addDigit_mono p (by simpa using hle : whole ≤ before)
    rw [Nat.zero_add]
    exact le_trans hle' hmono
  by_cases hend : more = p.length
  · rw [hnone hend, pow_add, ← mul_assoc, hend]
    exact le_trans (Nat.mul_le_mul_right _ hle) hshift
  · have hpow : 10 ^ (left + more) ≤ 10 ^ (left - 1) * 10 ^ p.length := by
      rw [← pow_add]
      exact Nat.pow_le_pow_right (by decide) (by omega)
    calc all * 10 ^ (left + more) ≤ 2 ^ 64 * (10 ^ (left - 1) * 10 ^ p.length) :=
          Nat.mul_le_mul hkept'.le hpow
      _ = 2 ^ 64 * 10 ^ (left - 1) * 10 ^ p.length := by ring
      _ ≤ before * 10 ^ p.length := Nat.mul_le_mul_right _ (hpast hleft)
      _ ≤ p.foldl addDigit before := hshift

namespace Numeral

/-- The digits that a float is made of stand for no more than all digits. -/
theorem significand_le (n : Numeral) : n.significand.1 < 2 ^ 64 ∧
    (n.significand.1 : ℚ) * 10 ^ (n.significand.2 + n.exponent) ≤ n.decimal.value := by
  have hscale {kept shift digits : ℕ} (h : kept * 10 ^ shift ≤ digits) (e : ℤ) :
      (kept : ℚ) * 10 ^ (shift + e) ≤ digits * 10 ^ e := by
    have hq : (kept : ℚ) * 10 ^ shift ≤ digits := by exact_mod_cast h
    rw [zpow_add₀ (by norm_num), zpow_natCast, ← mul_assoc]
    gcongr
  rcases hwhole : keepDigits 0 n.whole with ⟨whole, left⟩
  rw [significand, hwhole, decimal, Decimal.value]
  cases hpart : n.part with
  | none =>
    obtain ⟨hkept, -, hle, -⟩ := keepDigits_spec n.whole (by norm_num) hwhole
    refine ⟨hkept, ?_⟩
    have hvalue : (whole : ℚ) * 10 ^ (left + n.exponent) ≤ digitsValue n.whole * 10 ^ n.exponent :=
      hscale hle n.exponent
    simpa using hvalue
  | some part =>
    rcases hall : keepDigits whole part with ⟨all, more⟩
    obtain ⟨hkept, hmore, hle⟩ := keepDigits_twice_le hwhole hall
    dsimp only [Option.getD_some]
    rw [hall]
    refine ⟨hkept, ?_⟩
    have hexp : (left - (part.length - more : ℕ) : ℤ) + n.exponent =
        ((left + more : ℕ) : ℤ) + (n.exponent - part.length) := by
      push_cast [hmore]
      ring
    rw [hexp]
    exact hscale hle _

/-- Whether a numeral is no larger than the greatest number, whatever its sign. -/
def IsBounded (n : Numeral) : Prop := n.decimal.num ≤ greatestNumber * n.decimal.den

theorem IsBounded.exists_value {n : Numeral} (h : n.IsBounded) : ∃ v, n.value = .ok v := by
  obtain ⟨hdigits, hle⟩ := n.significand_le
  have hbound : n.decimal.value ≤ greatestNumber := by
    have hden : (0 : ℚ) < n.decimal.den := by exact_mod_cast n.decimal.den_pos
    rw [← Decimal.num_div_den, div_le_iff₀ hden]
    exact_mod_cast h
  have hfloat : ∃ v, n.float = .ok v := by
    obtain ⟨v, hv⟩ := exists_scale hdigits (le_trans hle hbound)
    refine ⟨.float n.negative v, ?_⟩
    rw [float]
    simp only [hv]
  rw [value]
  dsimp only
  split
  · split
    · split
      · exact ⟨_, rfl⟩
      · exact hfloat
    · split
      · exact ⟨_, rfl⟩
      · exact hfloat
  · exact hfloat

end Numeral

end OpStubs.Json
