import Mathlib.Data.Nat.Log
import OpStubs.Number.Scientific
import OpStubs.Proofs.Number.Nearest

namespace OpStubs.Number

theorem digitCount_eq (n : ℕ) : digitCount n = Nat.log 10 n + 1 := by
  induction n using Nat.strongRecOn with
  | ind n ih =>
    rw [digitCount]
    by_cases h : n < 10
    · rw [if_pos h, Nat.log_of_lt h]
    · have hpos : 0 < Nat.log 10 n := Nat.log_pos (by decide) (by omega)
      rw [if_neg h, ih (n / 10) (by omega), Nat.log_div_base]
      omega

/-- The greatest power of ten up to a quotient that is not too small. -/
theorem floorLog10_eq {depth a b : ℕ} (hb : 0 < b) (h : b ≤ a * 10 ^ depth) :
    floorLog10 depth a b = Int.log 10 ((a : ℚ) / b) := by
  have hbq : (0 : ℚ) < b := by exact_mod_cast hb
  have hten : (0 : ℚ) < 10 ^ depth := by positivity
  have ha : 0 < a := Nat.pos_of_mul_pos_right (lt_of_lt_of_le hb h)
  have hx : (0 : ℚ) < a / b := by positivity
  have hcast : (10 : ℚ) = (10 : ℕ) := by norm_num
  have hshift (l : ℤ) : (10 : ℚ) ^ (l - depth) = 10 ^ l / 10 ^ depth := by
    rw [zpow_sub₀ (by norm_num), zpow_natCast]
  rw [floorLog10, digitCount_eq]
  have hpos : a * Nat.pow 10 depth / b ≠ 0 := (Nat.div_pos h hb).ne'
  have hquotlow := (Nat.le_div_iff_mul_le hb).1 (Nat.pow_log_le_self 10 hpos)
  have hquothigh := (Nat.div_lt_iff_lt_mul hb).1
    (Nat.lt_pow_succ_log_self (b := 10) (by decide) (a * Nat.pow 10 depth / b))
  generalize Nat.log 10 (a * Nat.pow 10 depth / b) = l at hquotlow hquothigh ⊢
  have hlow : (10 : ℚ) ^ ((l : ℤ) - depth) ≤ a / b := by
    rw [hshift, zpow_natCast, div_le_div_iff₀ hten hbq]
    exact_mod_cast hquotlow
  have hhigh : (a : ℚ) / b < 10 ^ (((l + 1 : ℕ) : ℤ) - depth) := by
    rw [hshift, zpow_natCast, div_lt_div_iff₀ hbq hten]
    exact_mod_cast hquothigh
  rw [hcast] at hlow hhigh
  have hle := (Int.zpow_le_iff_le_log (by decide) hx).1 hlow
  have hlt := (Int.lt_zpow_iff_log_lt (by decide) hx).1 hhigh
  omega

/-- No integer is nearer than a nearest one, and another one is as near only if that is even. -/
theorem IsNearestEven.le_int {z : ℚ} {m : ℕ} (h : IsNearestEven z m) (n : ℤ) :
    |z - m| ≤ |z - n| ∧ (|z - m| = |z - n| → (n : ℚ) = m ∨ m % 2 = 0) := by
  by_cases hn : (m : ℤ) = n
  · subst hn
    exact ⟨le_of_eq (by norm_cast), fun _ => .inl (by norm_cast)⟩
  · have hint : (1 : ℤ) ≤ |(m : ℤ) - n| := Int.one_le_abs (sub_ne_zero.2 hn)
    have hone : (1 : ℚ) ≤ |(m : ℚ) - n| := by exact_mod_cast hint
    have hdist : |(m : ℚ) - n| ≤ |z - m| + |z - n| := by
      rw [abs_sub_comm z (m : ℚ)]
      exact abs_sub_le _ _ _
    rcases h with h | ⟨h, heven⟩
    · exact ⟨by linarith, fun heq => absurd heq (by linarith)⟩
    · exact ⟨by linarith, fun _ => .inr heven⟩

/-- No decimal with so many digits is nearer to `x` than `y`, whose digits are `digits`; if another
one is as near, the last digit of `y` is even. -/
def IsNearestDecimal (count : ℕ) (x y : ℚ) (digits : ℕ) : Prop :=
  ∀ m k : ℤ, |m| < 10 ^ count →
    |x - y| ≤ |x - m * 10 ^ k| ∧ (|x - y| = |x - m * 10 ^ k| → m * 10 ^ k = y ∨ digits % 2 = 0)

namespace IsNearestDecimal

variable {count : ℕ} {x y x' y' : ℚ} {digits digits' : ℕ}

theorem zero (count digits : ℕ) : IsNearestDecimal count 0 0 digits := by
  intro m k _
  have hzero : |(0 : ℚ) - 0| = 0 := by norm_num
  rw [hzero]
  refine ⟨abs_nonneg _, fun heq => .inl ?_⟩
  have := abs_eq_zero.1 heq.symm
  linarith

theorem neg (h : IsNearestDecimal count x y digits) :
    IsNearestDecimal count (-x) (-y) digits := by
  intro m k hm
  obtain ⟨hle, heven⟩ := h (-m) k (by rwa [abs_neg])
  have hdist (z : ℚ) : |-x - -z| = |x - z| := by rw [neg_sub_neg, abs_sub_comm]
  have hneg : (m : ℚ) * 10 ^ k = -(((-m : ℤ) : ℚ) * 10 ^ k) := by
    push_cast
    ring
  rw [hneg, hdist, hdist, neg_inj]
  exact ⟨hle, heven⟩

/-- The nearest decimal to the greater of two numbers is not the smaller one. -/
theorem mono (h : IsNearestDecimal count x y digits) (h' : IsNearestDecimal count x' y' digits')
    {m k m' k' : ℤ} (hy : y = m * 10 ^ k) (hy' : y' = m' * 10 ^ k') (hm : |m| < 10 ^ count)
    (hm' : |m'| < 10 ^ count) (hlt : x < x') : y ≤ y' := by
  by_contra hgt
  have hdist := (h m' k' hm').1
  have hdist' := (h' m k hm).1
  rw [← hy'] at hdist
  rw [← hy] at hdist'
  have hmid : y + y' ≤ 2 * x := by
    by_contra hlow
    have hneg : x - y < 0 := by linarith
    rcases abs_cases (x - y) with ⟨hx, _⟩ | ⟨hx, _⟩ <;>
      rcases abs_cases (x - y') with ⟨hx', _⟩ | ⟨hx', _⟩ <;> linarith
  have hmid' : 2 * x' ≤ y + y' := by
    by_contra hhigh
    rcases abs_cases (x' - y) with ⟨hx, _⟩ | ⟨hx, _⟩ <;>
      rcases abs_cases (x' - y') with ⟨hx', _⟩ | ⟨hx', _⟩ <;> linarith
  linarith

end IsNearestDecimal

namespace ScientificForm

/-- The rational number that a form stands for, given how many digits are after the leading one. -/
def value (places : ℕ) (d : ScientificForm) : ℚ := d.digits * 10 ^ (d.power - places)

/-- What a unit of the last digit of a rational counts. -/
def unit (places : ℕ) (x : ℚ) : ℚ := 10 ^ (Int.log 10 x - places)

/-- The form nearest to a rational that is not negative. -/
def nearest (places : ℕ) (x : ℚ) : ScientificForm :=
  if x = 0 then ⟨0, 0⟩
  else
    let m := nearestEven (x / unit places x)
    if m = 10 ^ (places + 1) then ⟨10 ^ places, Int.log 10 x + 1⟩ else ⟨m, Int.log 10 x⟩

end ScientificForm

/-- What is written of a fraction depends on the rational number alone. -/
theorem roundScientific_eq {depth a b : ℕ} (places : ℕ) (hb : 0 < b)
    (h : a = 0 ∨ b ≤ a * 10 ^ depth) :
    roundScientific depth places a b = .nearest places ((a : ℚ) / b) := by
  rcases Nat.eq_zero_or_pos a with rfl | ha
  · simp [roundScientific, ScientificForm.nearest]
  · have hbq : (0 : ℚ) < b := by exact_mod_cast hb
    have hx : (a : ℚ) / b ≠ 0 := by positivity
    have hm (e : ℤ) : roundHalfEven (a * Nat.pow 10 ((places : ℤ) - e).toNat)
        (b * Nat.pow 10 (-((places : ℤ) - e)).toNat) =
          nearestEven ((a : ℚ) / b / 10 ^ (e - places)) := by
      have hden : 0 < b * Nat.pow 10 (e - places).toNat := Nat.mul_pos hb (Nat.pow_pos (by decide))
      rw [← neg_sub e, neg_neg, roundHalfEven_eq _ hden, scaled_ratio (by decide),
        Nat.cast_ofNat]
    rw [roundScientific, ScientificForm.nearest, if_neg ha.ne', if_neg hx]
    simp only [hm, floorLog10_eq hb (h.resolve_left ha.ne')]
    rfl

namespace ScientificForm

section
variable {places : ℕ} {x : ℚ}

theorem unit_pos (places : ℕ) (x : ℚ) : 0 < unit places x := zpow_pos (by norm_num) _

theorem pow_mul_unit (n places : ℕ) (x : ℚ) :
    (10 ^ n : ℕ) * unit places x = 10 ^ (Int.log 10 x + n - places) := by
  rw [unit, add_sub_right_comm, zpow_add₀ (by norm_num), zpow_natCast, mul_comm]
  push_cast
  rfl

theorem le_div_unit (hx : 0 < x) : ((10 ^ places : ℕ) : ℚ) ≤ x / unit places x := by
  rw [le_div_iff₀ (unit_pos places x), pow_mul_unit, add_sub_cancel_right]
  exact_mod_cast Int.zpow_log_le_self (b := 10) (by decide) hx

theorem div_unit_lt (x : ℚ) : x / unit places x < (10 ^ (places + 1) : ℕ) := by
  have hsucc : Int.log 10 x + (places + 1 : ℕ) - places = Int.log 10 x + 1 := by
    push_cast
    ring
  rw [div_lt_iff₀ (unit_pos places x), pow_mul_unit, hsucc]
  exact_mod_cast Int.lt_zpow_succ_log_self (b := 10) (by decide) x

theorem isNearestEven_unit (hx : 0 < x) :
    IsNearestEven (x / unit places x) (nearestEven (x / unit places x)) :=
  isNearestEven_nearestEven (div_pos hx (unit_pos places x)).le

theorem nearest_zero (places : ℕ) : nearest places 0 = ⟨0, 0⟩ := if_pos rfl

/-- The digits are the rounded ones, or these are one digit more. -/
theorem nearest_cases (places : ℕ) (hx : 0 < x) :
    (nearestEven (x / unit places x) = 10 ^ (places + 1) ∧
      nearest places x = ⟨10 ^ places, Int.log 10 x + 1⟩) ∨
    (nearestEven (x / unit places x) < 10 ^ (places + 1) ∧
      nearest places x = ⟨nearestEven (x / unit places x), Int.log 10 x⟩) := by
  have hle : nearestEven (x / unit places x) ≤ 10 ^ (places + 1) :=
    nearestEven_le (div_pos hx (unit_pos places x)).le (div_unit_lt x).le
  rw [nearest, if_neg hx.ne']
  rcases hle.eq_or_lt with heq | hlt
  · exact .inl ⟨heq, if_pos heq⟩
  · exact .inr ⟨hlt, if_neg hlt.ne⟩

/-- A form that is not zero has its leading digit, and all its digits. -/
theorem digits_nearest (places : ℕ) (hx : 0 < x) :
    10 ^ places ≤ (nearest places x).digits ∧ (nearest places x).digits < 10 ^ (places + 1) := by
  rcases nearest_cases places hx with ⟨_, h⟩ | ⟨hlt, h⟩
  · rw [h]
    exact ⟨le_rfl, Nat.pow_lt_pow_right (by decide) (by omega)⟩
  · rw [h]
    exact ⟨le_nearestEven (le_div_unit hx), hlt⟩

theorem power_nearest (places : ℕ) (hx : 0 < x) :
    Int.log 10 x ≤ (nearest places x).power ∧ (nearest places x).power ≤ Int.log 10 x + 1 := by
  rcases nearest_cases places hx with ⟨_, h⟩ | ⟨_, h⟩ <;> rw [h] <;> simp

/-- One digit more does not change the number. -/
theorem value_nearest (places : ℕ) (hx : 0 < x) :
    (nearest places x).value places = nearestEven (x / unit places x) * unit places x := by
  rcases nearest_cases places hx with ⟨hcarry, h⟩ | ⟨_, h⟩
  · have hplace : Int.log 10 x + 1 - places = Int.log 10 x - places + 1 := by ring
    rw [h, hcarry, value, unit, hplace, zpow_add_one₀ (by norm_num)]
    push_cast
    ring
  · rw [h, value, unit]

/-- Nor does it make an even last digit odd. -/
theorem even_nearest (hplaces : 0 < places) (hx : 0 < x)
    (h : nearestEven (x / unit places x) % 2 = 0) : (nearest places x).digits % 2 = 0 := by
  rcases nearest_cases places hx with ⟨_, hform⟩ | ⟨_, hform⟩
  · obtain ⟨n, rfl⟩ := Nat.exists_eq_add_one.2 hplaces
    rw [hform]
    exact Nat.mod_eq_zero_of_dvd (Dvd.dvd.mul_left (by decide) (10 ^ n))
  · rw [hform]
    exact h

/-- No multiple of the unit is nearer. -/
theorem nearest_le_multiple (hplaces : 0 < places) (hx : 0 < x) (n : ℤ) :
    |x - (nearest places x).value places| ≤ |x - n * unit places x| ∧
      (|x - (nearest places x).value places| = |x - n * unit places x| →
        n * unit places x = (nearest places x).value places ∨
          (nearest places x).digits % 2 = 0) := by
  have hunit := unit_pos places x
  have hdist (z : ℚ) : |x - z * unit places x| = |x / unit places x - z| * unit places x := by
    rw [← abs_of_pos hunit, ← abs_mul, abs_of_pos hunit, sub_mul, div_mul_cancel₀ _ hunit.ne']
  obtain ⟨hle, heven⟩ := (isNearestEven_unit hx).le_int n
  rw [value_nearest places hx, hdist, hdist, mul_left_inj' hunit.ne', mul_left_inj' hunit.ne']
  exact ⟨mul_le_mul_of_nonneg_right hle hunit.le,
    fun heq => (heven heq).imp_right (even_nearest hplaces hx)⟩

/-- A decimal whose last digit stands for less than the unit is below the number and its leading
digit. -/
theorem lt_leading {m k : ℤ} (hm : |m| < 10 ^ (places + 1)) (hk : k < Int.log 10 x - places) :
    (m : ℚ) * 10 ^ k < (10 ^ places : ℕ) * unit places x := by
  have hpos : (0 : ℚ) < 10 ^ k := zpow_pos (by norm_num) _
  have hmq : (m : ℚ) < 10 ^ (places + 1) := by
    exact_mod_cast lt_of_le_of_lt (le_abs_self m) hm
  calc (m : ℚ) * 10 ^ k < 10 ^ (places + 1) * 10 ^ k := by gcongr
    _ = 10 ^ ((places + 1 : ℕ) + k) := by rw [zpow_add₀ (by norm_num), zpow_natCast]
    _ ≤ 10 ^ (Int.log 10 x + places - places) :=
      zpow_le_zpow_right₀ (by norm_num) (by push_cast; omega)
    _ = (10 ^ places : ℕ) * unit places x := (pow_mul_unit places places x).symm

/-- The form that is written is the nearest decimal. -/
theorem isNearestDecimal_nearest (hplaces : 0 < places) (hx : 0 ≤ x) :
    IsNearestDecimal (places + 1) x ((nearest places x).value places)
      (nearest places x).digits := by
  rcases hx.eq_or_lt with rfl | hx
  · rw [nearest_zero, value, Nat.cast_zero, zero_mul]
    exact .zero _ _
  · intro m k hm
    rcases le_or_gt (Int.log 10 x - places) k with hk | hk
    · obtain ⟨n, hn⟩ := Int.eq_ofNat_of_zero_le (Int.sub_nonneg_of_le hk)
      have hmultiple : (m : ℚ) * 10 ^ k = (m * 10 ^ n : ℤ) * unit places x := by
        have hsplit : k = n + (Int.log 10 x - places) := by omega
        rw [unit, hsplit, zpow_add₀ (by norm_num), zpow_natCast]
        push_cast
        ring
      rw [hmultiple]
      exact nearest_le_multiple hplaces hx _
    · have hlead := (nearest_le_multiple hplaces hx ((10 ^ places : ℕ) : ℤ)).1
      have hlt := lt_leading hm hk
      have hle : (10 ^ places : ℕ) * unit places x ≤ x :=
        (le_div_iff₀ (unit_pos places x)).1 (le_div_unit hx)
      rw [Int.cast_natCast, abs_of_nonneg (sub_nonneg.2 hle)] at hlead
      have hfar : |x - (nearest places x).value places| < |x - m * 10 ^ k| := by
        rw [abs_of_pos (by linarith : 0 < x - m * 10 ^ k)]
        linarith
      exact ⟨hfar.le, fun heq => absurd heq hfar.ne⟩

end

end ScientificForm

/-- The digits one after the other, of which there may be more than the width. -/
theorem padded_succ {width : ℕ} (hwidth : 0 < width) (n : ℕ) :
    padded (width + 1) n = padded width (n / 10) ++ [Nat.digitChar (n % 10)] := by
  rw [padded, padded]
  rcases Nat.lt_or_ge n 10 with h | h
  · obtain ⟨w, rfl⟩ := Nat.exists_eq_add_one.2 hwidth
    rw [Nat.toDigits_of_lt_base h, Nat.div_eq_of_lt h, Nat.toDigits_of_lt_base (by decide),
      Nat.mod_eq_of_lt h]
    simp [List.replicate_succ']
  · rw [Nat.toDigits_of_base_le (by decide) h]
    simp

/-- The digit of `n` that counts `10 ^ place`. -/
def digitAt (n place : ℕ) : Char := Nat.digitChar (n / 10 ^ place % 10)

theorem isDigit_digitAt (n place : ℕ) : (digitAt n place).isDigit = true := by
  rw [digitAt, Nat.isDigit_digitChar, decide_eq_true (Nat.mod_lt _ (by decide))]

theorem digitAt_zero (n : ℕ) : digitAt n 0 = Nat.digitChar (n % 10) := by
  rw [digitAt, Nat.pow_zero, Nat.div_one]

theorem digitAt_succ (n place : ℕ) : digitAt n (place + 1) = digitAt (n / 10) place := by
  rw [digitAt, digitAt, Nat.pow_succ', Nat.div_div_eq_div_mul]

/-- A number that is not too wide is written with its digits. -/
theorem padded_eq {width n : ℕ} (hwidth : 0 < width) (h : n < 10 ^ width) :
    padded width n = (List.range width).reverse.map (digitAt n) := by
  induction width, hwidth using Nat.le_induction generalizing n with
  | base =>
    have hn : n < 10 := h
    rw [padded, Nat.toDigits_of_lt_base hn]
    simp [digitAt_zero, Nat.mod_eq_of_lt hn]
  | succ width hwidth ih =>
    have hdiv : n / 10 < 10 ^ width := by
      rw [Nat.pow_succ] at h
      omega
    rw [padded_succ hwidth, ih hdiv, List.range_succ_eq_map]
    simp [digitAt_succ, digitAt_zero]

end OpStubs.Number
