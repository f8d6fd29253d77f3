import Mathlib.Algebra.Order.Field.Power
import Mathlib.Data.Int.Log
import Mathlib.Data.Rat.Floor
import Mathlib.Tactic.FieldSimp
import Mathlib.Tactic.Linarith
import Mathlib.Tactic.NormNum
import Mathlib.Tactic.Positivity
import Mathlib.Tactic.Ring
import OpStubs.Number.Decimal

namespace OpStubs.Number

/-- The integer nearest to a rational that is not negative; of two the even one. -/
def nearestEven (x : ℚ) : ℕ := roundHalfEven x.num.natAbs x.den

theorem roundHalfEven_mul (num den : ℕ) {c : ℕ} (hc : 0 < c) :
    roundHalfEven (num * c) (den * c) = roundHalfEven num den := by
  have htwice : 2 * (num % den * c) = 2 * (num % den) * c := by ring
  unfold roundHalfEven
  simp only [Nat.mul_div_mul_right _ _ hc, Nat.mul_mod_mul_right, htwice,
    Nat.mul_lt_mul_right hc]

theorem roundHalfEven_of_ratio {a b c d : ℕ} (hb : 0 < b) (hd : 0 < d) (h : a * d = c * b) :
    roundHalfEven a b = roundHalfEven c d := by
  calc roundHalfEven a b = roundHalfEven (a * d) (b * d) := (roundHalfEven_mul a b hd).symm
    _ = roundHalfEven (c * b) (d * b) := by rw [h, Nat.mul_comm b d]
    _ = roundHalfEven c d := roundHalfEven_mul c d hb

theorem roundHalfEven_eq (a : ℕ) {b : ℕ} (hb : 0 < b) :
    roundHalfEven a b = nearestEven ((a : ℚ) / b) := by
  have hbq : (0 : ℚ) < b := by exact_mod_cast hb
  have hnonneg : 0 ≤ (a : ℚ) / b := by positivity
  have hden := Rat.den_pos ((a : ℚ) / b)
  have hdenq : (0 : ℚ) < ((a : ℚ) / b).den := by exact_mod_cast hden
  refine roundHalfEven_of_ratio hb hden ?_
  have hnum : (((a : ℚ) / b).num.natAbs : ℤ) = ((a : ℚ) / b).num :=
    Int.natAbs_of_nonneg (Rat.num_nonneg.2 hnonneg)
  have hratio : (((a : ℚ) / b).num : ℚ) / ((a : ℚ) / b).den = a / b := Rat.num_div_den _
  rw [div_eq_div_iff hdenq.ne' hbq.ne', ← hnum] at hratio
  exact_mod_cast hratio.symm

/-- A nearest integer is nearer than half a unit, or it is even. -/
def IsNearestEven (x : ℚ) (m : ℕ) : Prop := |x - m| < 1 / 2 ∨ (|x - m| = 1 / 2 ∧ m % 2 = 0)

theorem IsNearestEven.abs_le {x : ℚ} {m : ℕ} (h : IsNearestEven x m) : |x - m| ≤ 1 / 2 := by
  rcases h with h | h
  · exact h.le
  · exact h.1.le

theorem isNearestEven_nearestEven {x : ℚ} (hx : 0 ≤ x) : IsNearestEven x (nearestEven x) := by
  have hden := Rat.den_pos x
  have hdenq : (0 : ℚ) < x.den := by exact_mod_cast hden
  have habs : (x.num.natAbs : ℤ) = x.num := Int.natAbs_of_nonneg (Rat.num_nonneg.2 hx)
  have hnum : (x.num.natAbs : ℚ) = x * x.den := by
    calc (x.num.natAbs : ℚ) = ((x.num.natAbs : ℤ) : ℚ) := (Int.cast_natCast _).symm
      _ = x.num := by rw [habs]
      _ = x * x.den := (Rat.mul_den_eq_num x).symm
  have hsplit : ((x.den * (x.num.natAbs / x.den) + x.num.natAbs % x.den : ℕ) : ℚ) = x * x.den := by
    rw [Nat.div_add_mod, hnum]
  rw [nearestEven, roundHalfEven]
  generalize x.num.natAbs / x.den = q at hsplit ⊢
  have htlt := Nat.mod_lt x.num.natAbs hden
  generalize x.num.natAbs % x.den = t at hsplit htlt ⊢
  have hpart : x - q = t / x.den := by
    field_simp
    push_cast at hsplit
    linarith
  have hhalf : (t : ℚ) / x.den < 1 / 2 ↔ 2 * t < x.den := by
    rw [div_lt_div_iff₀ hdenq (by norm_num), one_mul, mul_comm]
    exact_mod_cast Iff.rfl
  have hhalf' : 1 / 2 < (t : ℚ) / x.den ↔ x.den < 2 * t := by
    rw [div_lt_div_iff₀ (by norm_num) hdenq, one_mul, mul_comm]
    exact_mod_cast Iff.rfl
  have hnonneg : 0 ≤ (t : ℚ) / x.den := by positivity
  have hlt : (t : ℚ) / x.den < 1 := by
    rw [div_lt_one hdenq]
    exact_mod_cast htlt
  have hdown : |x - q| = t / x.den := by
    rw [hpart, abs_of_nonneg hnonneg]
  have hup : |x - (q + 1 : ℕ)| = 1 - t / x.den := by
    have hrest : x - (q + 1 : ℕ) = t / x.den - 1 := by
      push_cast
      linarith
    rw [hrest, abs_of_nonpos (by linarith), neg_sub]
  split
  case isTrue h =>
    exact .inl (by rw [hdown]; exact hhalf.2 h)
  case isFalse h =>
    split
    case isTrue h' =>
      have := hhalf'.2 h'
      exact .inl (by rw [hup]; linarith)
    case isFalse h' =>
      have htie : (t : ℚ) / x.den = 1 / 2 :=
        le_antisymm (not_lt.1 fun h'' => h' (hhalf'.1 h'')) (not_lt.1 fun h'' => h (hhalf.1 h''))
      split
      case isTrue heven => exact .inr ⟨by rw [hdown, htie], heven⟩
      case isFalse hodd => exact .inr ⟨by rw [hup, htie]; norm_num, by omega⟩

theorem nearestEven_unique {x : ℚ} (hx : 0 ≤ x) {m : ℕ} (h : IsNearestEven x m) :
    nearestEven x = m := by
  have hr := isNearestEven_nearestEven hx
  have hdist : |(nearestEven x : ℚ) - m| ≤ |x - nearestEven x| + |x - m| := by
    rw [abs_sub_comm x (nearestEven x : ℚ)]
    exact abs_sub_le _ _ _
  by_contra hne
  have hint : (1 : ℤ) ≤ |(nearestEven x : ℤ) - m| :=
    Int.one_le_abs (sub_ne_zero.2 (by exact_mod_cast hne))
  have hone : (1 : ℚ) ≤ |(nearestEven x : ℚ) - m| := by exact_mod_cast hint
  rcases h with h | ⟨h, heven⟩
  · linarith [hr.abs_le]
  · rcases hr with hr | ⟨hr, heven'⟩
    · linarith
    · have hle : |(nearestEven x : ℚ) - m| ≤ 1 := by linarith
      have hint' : |(nearestEven x : ℤ) - m| ≤ 1 := by exact_mod_cast hle
      rw [abs_le] at hint'
      omega

theorem nearestEven_natCast (n : ℕ) : nearestEven n = n :=
  nearestEven_unique (by positivity) (.inl (by norm_num))

/-- Rounding does not pass an integer. -/
theorem le_nearestEven {x : ℚ} {n : ℕ} (h : n ≤ x) : n ≤ nearestEven x := by
  have hnear := (isNearestEven_nearestEven (le_trans n.cast_nonneg h)).abs_le
  have hlt : (n : ℚ) < (nearestEven x + 1 : ℕ) := by
    push_cast
    linarith [(abs_le.1 hnear).2]
  exact Nat.lt_succ_iff.1 (by exact_mod_cast hlt)

theorem nearestEven_le {x : ℚ} {n : ℕ} (hx : 0 ≤ x) (h : x ≤ n) : nearestEven x ≤ n := by
  have hnear := (isNearestEven_nearestEven hx).abs_le
  have hlt : (nearestEven x : ℚ) < (n + 1 : ℕ) := by
    push_cast
    linarith [(abs_le.1 hnear).1]
  exact Nat.lt_succ_iff.1 (by exact_mod_cast hlt)

/-- An integer that is half-way between two multiples of twice `c`. -/
theorem mod_of_halfway {w r c : ℕ} (hc : 0 < c) (h : |(w : ℚ) - r * (2 * c)| = c) :
    w % (2 * c) = c := by
  rcases abs_eq (by positivity : (0 : ℚ) ≤ c) |>.1 h with h | h
  · have hw : w = 2 * c * r + c := by
      have : (w : ℚ) = 2 * c * r + c := by linarith
      exact_mod_cast this
    rw [hw, Nat.mul_add_mod, Nat.mod_eq_of_lt (by omega)]
  · have hw : w + c = 2 * c * r := by
      have : (w : ℚ) + c = 2 * c * r := by linarith
      exact_mod_cast this
    obtain ⟨q, rfl⟩ : ∃ q, r = q + 1 := by
      refine Nat.exists_eq_add_one.2 (Nat.pos_of_ne_zero ?_)
      rintro rfl
      omega
    have hw' : w = 2 * c * q + c := by
      rw [Nat.mul_add_one] at hw
      omega
    rw [hw', Nat.mul_add_mod, Nat.mod_eq_of_lt (by omega)]

/-- Rounding to integers and then to multiples of twice `c` is rounding to these multiples, unless
the integer is half-way between two of them. -/
theorem nearestEven_twice {z : ℚ} (hz : 0 ≤ z) {c : ℕ} (hc : 0 < c)
    (h : nearestEven z % (2 * c) = c → z = nearestEven z) :
    nearestEven ((nearestEven z : ℚ) / (2 * c)) = nearestEven (z / (2 * c)) := by
  have hcq : (0 : ℚ) < c := by exact_mod_cast hc
  generalize hw : nearestEven z = w at h ⊢
  have hnear : |z - w| ≤ 1 / 2 := hw ▸ (isNearestEven_nearestEven hz).abs_le
  have hnonneg : (0 : ℚ) ≤ w / (2 * c) := by positivity
  generalize hr : nearestEven ((w : ℚ) / (2 * c)) = r
  have hnear' : |(w : ℚ) / (2 * c) - r| ≤ 1 / 2 := hr ▸ (isNearestEven_nearestEven hnonneg).abs_le
  have hscale (y : ℚ) : y / (2 * c) - r = (y - r * (2 * c)) / (2 * c) := by
    field_simp
  have hle : |(w : ℚ) - r * (2 * c)| ≤ c := by
    rw [hscale, abs_div, abs_of_pos (by positivity : (0 : ℚ) < 2 * c),
      div_le_iff₀ (by positivity)] at hnear'
    linarith
  rcases hle.lt_or_eq with hlt | heq
  · refine (nearestEven_unique (by positivity) (.inl ?_)).symm
    have hint : |(w : ℤ) - r * (2 * c)| + 1 ≤ c := by
      have : |(w : ℤ) - r * (2 * c)| < c := by exact_mod_cast hlt
      omega
    have hone : |(w : ℚ) - r * (2 * c)| + 1 ≤ c := by exact_mod_cast hint
    have hdist : |z - r * (2 * c)| ≤ |z - w| + |(w : ℚ) - r * (2 * c)| := abs_sub_le _ _ _
    rw [hscale, abs_div, abs_of_pos (by positivity : (0 : ℚ) < 2 * c), div_lt_iff₀ (by positivity)]
    linarith
  · rw [h (mod_of_halfway hc heq), hr]

/-- A quotient over a power of any sign, in natural numbers. -/
theorem scaled_ratio {b : ℕ} (hb : 0 < b) (m n : ℕ) (e : ℤ) :
    ((m * Nat.pow b (-e).toNat : ℕ) : ℚ) / (n * Nat.pow b e.toNat : ℕ) = m / n / (b : ℚ) ^ e := by
  have hne : (b : ℚ) ≠ 0 := by exact_mod_cast hb.ne'
  rcases Int.le_total 0 e with h | h
  · obtain ⟨k, rfl⟩ := Int.eq_ofNat_of_zero_le h
    have hneg : (-(k : ℤ)).toNat = 0 := by omega
    simp [hneg, div_div]
  · obtain ⟨k, hk⟩ := Int.eq_ofNat_of_zero_le (Int.neg_nonneg_of_nonpos h)
    have he : e = -k := by omega
    subst he
    have hneg : (-(k : ℤ)).toNat = 0 := by omega
    simp [hneg, zpow_neg, div_eq_mul_inv]
    ring

/-- The fraction for a number of a mantissa and a power of any sign. -/
theorem ratio_eq_mul_zpow {b : ℕ} (hb : 0 < b) (m : ℕ) (e : ℤ) :
    ((m * Nat.pow b e.toNat : ℕ) : ℚ) / (Nat.pow b (-e).toNat : ℕ) = m * (b : ℚ) ^ e := by
  have h := scaled_ratio hb m 1 (-e)
  rwa [neg_neg, Nat.cast_one, div_one, zpow_neg, div_inv_eq_mul, one_mul] at h

namespace Magnitude

/-- The rational number that a magnitude stands for. -/
def value (v : Magnitude) : ℚ := v.mantissa * 2 ^ v.exponent

theorem den_pos (v : Magnitude) : 0 < v.den := Nat.pow_pos (by decide)

theorem num_div_den (v : Magnitude) : (v.num : ℚ) / v.den = v.value :=
  ratio_eq_mul_zpow (by decide) v.mantissa v.exponent

end Magnitude

theorem log_eq {x : ℚ} {e : ℤ} (hlow : 2 ^ e ≤ x) (hhigh : x < 2 ^ (e + 1)) : Int.log 2 x = e := by
  have hx : 0 < x := lt_of_lt_of_le (zpow_pos (by norm_num) e) hlow
  have hle : e ≤ Int.log 2 x := (Int.zpow_le_iff_le_log (by norm_num) hx).1 (by exact_mod_cast hlow)
  have hlt : Int.log 2 x < e + 1 :=
    (Int.lt_zpow_iff_log_lt (by norm_num) hx).1 (by exact_mod_cast hhigh)
  omega

theorem zpow_log_le {x : ℚ} (hx : 0 < x) : 2 ^ Int.log 2 x ≤ x := by
  exact_mod_cast Int.zpow_log_le_self (b := 2) (by norm_num) hx

theorem lt_zpow_log_succ (x : ℚ) : x < 2 ^ (Int.log 2 x + 1) := by
  exact_mod_cast Int.lt_zpow_succ_log_self (b := 2) (by norm_num) x

/-- The greatest power of two up to a quotient. -/
theorem floorLog2_eq {a b : ℕ} (ha : 0 < a) (hb : 0 < b) :
    floorLog2 a b = Int.log 2 ((a : ℚ) / b) := by
  have hbq : (0 : ℚ) < b := by exact_mod_cast hb
  have halow : (2 : ℚ) ^ (a.log2 : ℤ) ≤ a := by exact_mod_cast Nat.log2_self_le ha.ne'
  have hahigh : (a : ℚ) < 2 ^ ((a.log2 : ℤ) + 1) := by exact_mod_cast Nat.lt_log2_self
  have hblow : (2 : ℚ) ^ (b.log2 : ℤ) ≤ b := by exact_mod_cast Nat.log2_self_le hb.ne'
  have hbhigh : (b : ℚ) < 2 ^ ((b.log2 : ℤ) + 1) := by exact_mod_cast Nat.lt_log2_self
  have hlow : (2 : ℚ) ^ ((a.log2 : ℤ) - b.log2 - 1) ≤ a / b := by
    rw [le_div_iff₀ hbq]
    calc (2 : ℚ) ^ ((a.log2 : ℤ) - b.log2 - 1) * b
        ≤ 2 ^ ((a.log2 : ℤ) - b.log2 - 1) * 2 ^ ((b.log2 : ℤ) + 1) := by gcongr
      _ = 2 ^ (a.log2 : ℤ) := by rw [← zpow_add₀ (by norm_num)]; ring_nf
      _ ≤ a := halow
  have hhigh : (a : ℚ) / b < 2 ^ ((a.log2 : ℤ) - b.log2 + 1) := by
    rw [div_lt_iff₀ hbq]
    calc (a : ℚ) < 2 ^ ((a.log2 : ℤ) + 1) := hahigh
      _ = 2 ^ ((a.log2 : ℤ) - b.log2 + 1) * 2 ^ (b.log2 : ℤ) := by
        rw [← zpow_add₀ (by norm_num)]; ring_nf
      _ ≤ 2 ^ ((a.log2 : ℤ) - b.log2 + 1) * b := by gcongr
  have hbelow (e : ℤ) :
      a * Nat.pow 2 (-e).toNat < b * Nat.pow 2 e.toNat ↔ (a : ℚ) / b < 2 ^ e := by
    have hden : (0 : ℚ) < (b * Nat.pow 2 e.toNat : ℕ) := by
      exact_mod_cast Nat.mul_pos hb (Nat.pow_pos (by decide))
    have hratio := scaled_ratio (b := 2) (by decide) a b e
    rw [Nat.cast_ofNat] at hratio
    rw [← div_lt_one (zpow_pos (by norm_num : (0 : ℚ) < 2) e), ← hratio, div_lt_one hden]
    exact_mod_cast Iff.rfl
  rw [floorLog2]
  simp only [hbelow]
  split
  case isTrue h => exact (log_eq hlow (by rwa [sub_add_cancel])).symm
  case isFalse h => exact (log_eq (not_lt.1 h) hhigh).symm

/-- The number of a format with a rounded mantissa, which may have one bit too many; nothing past
the greatest number. -/
def BinaryFormat.pack (f : BinaryFormat) (m : ℕ) (e : ℤ) : Option Magnitude :=
  let v : Magnitude :=
    if m = 2 ^ f.precision then ⟨2 ^ (f.precision - 1), e + 1⟩ else ⟨m, e⟩
  if f.greatest < v.exponent then none else some v

/-- The number of a format that is nearest to a rational. -/
def BinaryFormat.nearest (f : BinaryFormat) (x : ℚ) : Option Magnitude :=
  if x = 0 then some ⟨0, f.least⟩
  else
    let e := max (Int.log 2 x - (f.precision - 1)) f.least
    f.pack (nearestEven (x / 2 ^ e)) e

/-- Rounding a fraction depends on the rational number alone. -/
theorem BinaryFormat.round_eq (f : BinaryFormat) (a : ℕ) {b : ℕ} (hb : 0 < b) :
    f.round a b = f.nearest ((a : ℚ) / b) := by
  rcases Nat.eq_zero_or_pos a with rfl | ha
  · simp [round, nearest]
  · have haq : (0 : ℚ) < a := by exact_mod_cast ha
    have hbq : (0 : ℚ) < b := by exact_mod_cast hb
    have hx : (a : ℚ) / b ≠ 0 := by positivity
    have hm (e : ℤ) : roundHalfEven (a * Nat.pow 2 (-e).toNat) (b * Nat.pow 2 e.toNat) =
        nearestEven ((a : ℚ) / b / 2 ^ e) := by
      have hden : 0 < b * Nat.pow 2 e.toNat := Nat.mul_pos hb (Nat.pow_pos (by decide))
      rw [roundHalfEven_eq _ hden, scaled_ratio (by decide), Nat.cast_ofNat]
    rw [round, nearest, if_neg ha.ne', if_neg hx]
    simp only [hm, floorLog2_eq ha hb]
    rfl

section
variable {f : BinaryFormat} {x : ℚ} {e : ℤ}

theorem BinaryFormat.pack_eq {m : ℕ} (hm : m ≠ 2 ^ f.precision) (he : e ≤ f.greatest) :
    f.pack m e = some ⟨m, e⟩ := by
  simp only [pack, if_neg hm]
  rw [if_neg (by omega)]

/-- A mantissa that is rounded up to one bit more is a bit in the next place. -/
theorem BinaryFormat.pack_carry (hf : 0 < f.precision) (e : ℤ) :
    f.pack (2 ^ f.precision) e = f.pack (2 ^ (f.precision - 1)) (e + 1) := by
  have hne : 2 ^ (f.precision - 1) ≠ 2 ^ f.precision :=
    (Nat.pow_lt_pow_right (by decide) (by omega)).ne
  simp only [pack, if_pos, if_neg hne]

/-- A mantissa of at most that size stands for a number of the format. -/
theorem BinaryFormat.pack_value (hf : 0 < f.precision) {m : ℕ} (he : e < f.greatest) :
    ∃ v, f.pack m e = some v ∧ v.value = m * 2 ^ e := by
  by_cases hm : m = 2 ^ f.precision
  · have hne : 2 ^ (f.precision - 1) ≠ 2 ^ f.precision :=
      (Nat.pow_lt_pow_right (by decide) (by omega)).ne
    refine ⟨_, by rw [hm, pack_carry hf, pack_eq hne (by omega)], ?_⟩
    have hprecision : f.precision = f.precision - 1 + 1 := by omega
    rw [Magnitude.value, hm, hprecision, Nat.add_sub_cancel, pow_succ, zpow_add_one₀ (by norm_num)]
    push_cast
    ring
  · exact ⟨_, pack_eq hm he.le, rfl⟩

/-- The exponent of a number may be taken one too small at a power of two. -/
theorem BinaryFormat.nearest_of_le {q : ℕ} (hlow : 2 ^ e ≤ x) (hhigh : x ≤ 2 ^ (e + 1))
    (hq : f.precision = q + 1) (hnormal : f.least ≤ e - q) :
    f.nearest x = f.pack (nearestEven (x / 2 ^ (e - q))) (e - q) := by
  have hx : 0 < x := lt_of_lt_of_le (zpow_pos (by norm_num) e) hlow
  have hdigits : (f.precision : ℤ) - 1 = q := by omega
  rcases hhigh.lt_or_eq with hlt | rfl
  · rw [nearest, if_neg hx.ne', log_eq hlow hlt, hdigits, max_eq_left hnormal]
  · have hlog : Int.log 2 ((2 : ℚ) ^ (e + 1)) = e + 1 :=
      log_eq le_rfl (zpow_lt_zpow_right₀ (by norm_num) (by omega))
    have hquot (j : ℤ) (n : ℕ) (hj : e + 1 - j = n) :
        (2 : ℚ) ^ (e + 1) / 2 ^ j = (2 ^ n : ℕ) := by
      rw [← zpow_sub₀ (by norm_num), hj, zpow_natCast]
      push_cast
      rfl
    have hcarry := f.pack_carry (by omega) (e - q)
    rw [hq, Nat.add_sub_cancel] at hcarry
    have hexp : e + 1 - q = e - q + 1 := by omega
    rw [nearest, if_neg hx.ne', hlog, hdigits, max_eq_left (by omega),
      hquot (e - q) (q + 1) (by push_cast; omega), nearestEven_natCast, hcarry, hexp]
    simp only
    rw [hquot (e - q + 1) q (by omega), nearestEven_natCast]

/-- A number that the format has is rounded to itself. -/
theorem BinaryFormat.nearest_exact {c : ℕ} {j : ℤ} (hc : 0 < c) (hlt : c < 2 ^ f.precision)
    (hleast : f.least ≤ j) (hgreatest : j ≤ f.greatest) :
    ∃ v, f.nearest (c * 2 ^ j) = some v ∧ v.value = c * 2 ^ j := by
  have hcq : (0 : ℚ) < c := by exact_mod_cast hc
  have hx : (0 : ℚ) < c * 2 ^ j := by positivity
  have hlog : Int.log 2 ((c : ℚ) * 2 ^ j) < f.precision + j := by
    refine (Int.lt_zpow_iff_log_lt (by norm_num) hx).1 ?_
    push_cast
    rw [zpow_add₀ (by norm_num), zpow_natCast]
    have hltq : (c : ℚ) < 2 ^ f.precision := by exact_mod_cast hlt
    gcongr
  have hself := lt_zpow_log_succ ((c : ℚ) * 2 ^ j)
  rw [nearest, if_neg hx.ne']
  generalize Int.log 2 ((c : ℚ) * 2 ^ j) = l at hlog hself ⊢
  generalize he : max (l - (f.precision - 1)) f.least = e
  have hle : e ≤ j := by omega
  obtain ⟨n, hn⟩ := Int.eq_ofNat_of_zero_le (Int.sub_nonneg_of_le hle)
  have hquot : (c : ℚ) * 2 ^ j / 2 ^ e = (c * 2 ^ n : ℕ) := by
    rw [mul_div_assoc, ← zpow_sub₀ (by norm_num), hn]
    push_cast
    rfl
  have hsmall : c * 2 ^ n < 2 ^ f.precision := by
    have hq : ((c * 2 ^ n : ℕ) : ℚ) < 2 ^ f.precision := by
      rw [← hquot, div_lt_iff₀ (zpow_pos (by norm_num) e), ← zpow_natCast, ← zpow_add₀ (by norm_num)]
      exact lt_of_lt_of_le hself (zpow_le_zpow_right₀ (by norm_num) (by omega))
    exact_mod_cast hq
  refine ⟨⟨c * 2 ^ n, e⟩, ?_, ?_⟩
  · simp only [hquot, nearestEven_natCast]
    exact pack_eq hsmall.ne (by omega)
  · rw [Magnitude.value, ← hquot]
    exact div_mul_cancel₀ _ (zpow_pos (by norm_num : (0 : ℚ) < 2) e).ne'

/-- Rounding to 64 bits and then to 32 is rounding to 32 bits, unless the mantissa of 64 bits is
half-way between two of 32. -/
theorem nearest_twice (hlow : 2 ^ e ≤ x) (hhigh : x < 2 ^ (e + 1)) (hleast : -126 ≤ e)
    (hgreatest : e ≤ 1000)
    (hmid : nearestEven (x / 2 ^ (e - 52)) % (2 * 2 ^ 28) = 2 ^ 28 →
      x / 2 ^ (e - 52) = nearestEven (x / 2 ^ (e - 52))) :
    ∃ v, binary64.nearest x = some v ∧ binary32.nearest v.value = binary32.nearest x := by
  have hunit : (0 : ℚ) < 2 ^ (e - 52) := zpow_pos (by norm_num) _
  have hscale (n : ℕ) (j : ℤ) (hj : e - 52 + n = j) : (2 ^ n : ℕ) * (2 : ℚ) ^ (e - 52) = 2 ^ j := by
    rw [← hj, zpow_add₀ (by norm_num), zpow_natCast, mul_comm]
    push_cast
    rfl
  have hzlow : ((2 ^ 52 : ℕ) : ℚ) ≤ x / 2 ^ (e - 52) := by
    rwa [le_div_iff₀ hunit, hscale 52 e (by omega)]
  have hzhigh : x / 2 ^ (e - 52) ≤ (2 ^ 53 : ℕ) := by
    rw [div_le_iff₀ hunit, hscale 53 (e + 1) (by omega)]
    exact hhigh.le
  have hz : 0 ≤ x / 2 ^ (e - 52) := le_trans (by positivity) hzlow
  have htwice := nearestEven_twice hz (by norm_num) hmid
  have hwlow := le_nearestEven hzlow
  have hwhigh := nearestEven_le hz hzhigh
  have hx64 := BinaryFormat.nearest_of_le (f := binary64) (q := 52) hlow hhigh.le rfl
    (by simp only [binary64]; omega)
  have hx32 := BinaryFormat.nearest_of_le (f := binary32) (q := 23) hlow hhigh.le rfl
    (by simp only [binary32]; omega)
  generalize nearestEven (x / 2 ^ (e - 52)) = w at htwice hwlow hwhigh hx64
  -- The number of 64 bits has the same exponent, or is the next power of two.
  have hylow : (2 : ℚ) ^ e ≤ w * 2 ^ (e - 52) := by
    rw [← hscale 52 e (by omega)]
    gcongr
  have hyhigh : (w : ℚ) * 2 ^ (e - 52) ≤ 2 ^ (e + 1) := by
    rw [← hscale 53 (e + 1) (by omega)]
    gcongr
  have hy32 := BinaryFormat.nearest_of_le (f := binary32) (q := 23) hylow hyhigh rfl
    (by simp only [binary32]; omega)
  obtain ⟨v, hv, hvalue⟩ := BinaryFormat.pack_value (f := binary64) (by decide) (m := w)
    (e := e - 52) (by simp only [binary64]; omega)
  refine ⟨v, hx64.trans hv, ?_⟩
  have hquot (y : ℚ) : y / 2 ^ (e - (23 : ℕ)) = y / 2 ^ (e - 52) / (2 * (2 ^ 28 : ℕ)) := by
    have hplaces : (2 * (2 ^ 28 : ℕ) : ℚ) = (2 ^ 29 : ℕ) := by norm_num
    rw [div_div, mul_comm, hplaces, hscale 29 (e - (23 : ℕ)) (by push_cast; omega)]
  rw [hvalue, hy32, hx32, hquot, hquot, mul_div_cancel_right₀ _ hunit.ne', htwice]

end

/-- An integer that is nearly `w` tens to a small power, `w` being half-way between two mantissas of
32 bits, is exactly that: a difference has the power of two that both numbers have for a factor. -/
theorem eq_of_near {d s w k : ℕ} (hk : k ≤ 12) (hsmall : 10 ^ k < 2 ^ (s + 1))
    (hw : w % (2 * 2 ^ 28) = 2 ^ 28) (hnear : 2 * |(d * 2 ^ s - w * 10 ^ k : ℤ)| ≤ 10 ^ k) :
    d * 2 ^ s = w * 10 ^ k := by
  have hten : 10 ^ k = 2 ^ k * 5 ^ k := by rw [← Nat.mul_pow]
  by_contra hne
  have hne' : (d * 2 ^ s - w * 10 ^ k : ℤ) ≠ 0 := by
    intro hzero
    have heq : (d * 2 ^ s : ℤ) = w * 10 ^ k := by omega
    exact hne (by exact_mod_cast heq)
  have hfactor : w * 10 ^ k = 2 ^ (28 + k) * ((2 * (w / (2 * 2 ^ 28)) + 1) * 5 ^ k) := by
    have hmod : w = 2 ^ 28 * (2 * (w / (2 * 2 ^ 28)) + 1) := by omega
    rw [hten, pow_add]
    nth_rewrite 1 [hmod]
    ring
  have hdvd : (2 : ℤ) ^ min s (28 + k) ∣ d * 2 ^ s - w * 10 ^ k := by
    have hfactor' : (w * 10 ^ k : ℤ) = 2 ^ (28 + k) * ((2 * (w / (2 * 2 ^ 28)) + 1) * 5 ^ k) := by
      exact_mod_cast hfactor
    refine dvd_sub (Dvd.dvd.mul_left (pow_dvd_pow 2 (min_le_left _ _)) _) ?_
    rw [hfactor']
    exact Dvd.dvd.mul_right (pow_dvd_pow 2 (min_le_right _ _)) _
  have hge := Int.le_of_dvd (abs_pos.2 hne') ((dvd_abs _ _).2 hdvd)
  have hpow : 2 * 2 ^ min s (28 + k) ≤ 10 ^ k := by
    have hpow' : (2 * 2 ^ min s (28 + k) : ℤ) ≤ 10 ^ k := by linarith
    exact_mod_cast hpow'
  rcases Nat.le_total s (28 + k) with hs | hs
  · rw [Nat.min_eq_left hs] at hpow
    rw [Nat.pow_succ] at hsmall
    omega
  · have hfive : 5 ^ k ≤ 5 ^ 12 := Nat.pow_le_pow_right (by decide) hk
    have hsplit : 2 * 2 ^ (28 + k) = 2 ^ k * 2 ^ 29 := by rw [Nat.pow_add]; ring
    rw [Nat.min_eq_right hs, hsplit, hten] at hpow
    have := Nat.le_of_mul_le_mul_left hpow (by positivity)
    omega

/-- A decimal with few digits and places is never nearly half-way between two mantissas of 32 bits:
if its mantissa of 64 bits is, then it is half-way itself. -/
theorem eq_of_halfway {digits places : ℕ} (hdigits : digits < 2 ^ 53) (hplaces : places ≤ 12)
    {x : ℚ} (hx : x = digits / 10 ^ places) {e : ℤ} (hlow : 2 ^ e ≤ x)
    (h : nearestEven (x / 2 ^ (e - 52)) % (2 * 2 ^ 28) = 2 ^ 28) :
    x / 2 ^ (e - 52) = nearestEven (x / 2 ^ (e - 52)) := by
  have hten : (0 : ℚ) < 10 ^ places := by positivity
  have hdigitsq : (digits : ℚ) < 2 ^ (53 : ℤ) := by exact_mod_cast hdigits
  have hmul : (2 : ℚ) ^ e * 10 ^ places < 2 ^ (53 : ℤ) := by
    rw [hx, le_div_iff₀ hten] at hlow
    exact lt_of_le_of_lt hlow hdigitsq
  have hle : e ≤ 52 := by
    have hone : (2 : ℚ) ^ e ≤ 2 ^ e * 10 ^ places :=
      le_mul_of_one_le_right (by positivity) (one_le_pow₀ (by norm_num))
    have := (zpow_lt_zpow_iff_right₀ (by norm_num : (1 : ℚ) < 2)).1 (lt_of_le_of_lt hone hmul)
    omega
  obtain ⟨s, hs⟩ := Int.eq_ofNat_of_zero_le (by omega : 0 ≤ 52 - e)
  have hsmall : 10 ^ places < 2 ^ (s + 1) := by
    have he : (2 : ℚ) ^ e * 2 ^ (s + 1) = 2 ^ (53 : ℤ) := by
      rw [← zpow_natCast, ← zpow_add₀ (by norm_num)]
      congr 1
      omega
    have hq : (10 : ℚ) ^ places < 2 ^ (s + 1) := by
      rw [← he] at hmul
      exact lt_of_mul_lt_mul_left hmul (by positivity)
    exact_mod_cast hq
  have hz : x / 2 ^ (e - 52) = digits * 2 ^ s / 10 ^ places := by
    have he : e - 52 = -(s : ℤ) := by omega
    rw [hx, he, zpow_neg, zpow_natCast, div_inv_eq_mul]
    ring
  have hnonneg : (0 : ℚ) ≤ digits * 2 ^ s / 10 ^ places := by positivity
  rw [hz] at h ⊢
  have hnear := (isNearestEven_nearestEven hnonneg).abs_le
  generalize nearestEven ((digits : ℚ) * 2 ^ s / 10 ^ places) = w at h hnear ⊢
  have hdiff : 2 * |(digits * 2 ^ s - w * 10 ^ places : ℤ)| ≤ 10 ^ places := by
    rw [div_sub' hten.ne', abs_div, abs_of_pos hten, div_le_iff₀ hten, mul_comm _ (w : ℚ)] at hnear
    have hq : 2 * |(digits * 2 ^ s - w * 10 ^ places : ℚ)| ≤ 10 ^ places := by linarith
    exact_mod_cast hq
  have heq := eq_of_near hplaces hsmall h hdiff
  rw [div_eq_iff hten.ne']
  exact_mod_cast heq

end OpStubs.Number
