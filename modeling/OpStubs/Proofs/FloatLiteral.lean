import OpStubs.Operation.Default
import OpStubs.Proofs.Number.Integer
import OpStubs.Proofs.Number.Scientific
import OpStubs.Proofs.TextFormat.Float

namespace OpStubs

namespace Number.Binary32

/-- Whether a float is a number. -/
def IsFinite (x : Binary32) : Prop := x.exponentField ≠ 255

instance (x : Binary32) : Decidable x.IsFinite := inferInstanceAs (Decidable (_ ≠ _))

/-- The rational number that a finite float stands for. -/
def value (x : Binary32) : ℚ := if x.isNegative then -x.magnitude.value else x.magnitude.value

theorem abs_value (x : Binary32) : |x.value| = x.magnitude.value := by
  have hnonneg : 0 ≤ x.magnitude.value := by
    unfold Magnitude.value
    positivity
  unfold value
  split
  · rw [abs_neg, abs_of_nonneg hnonneg]
  · exact abs_of_nonneg hnonneg

theorem value_neg_of_isNegative {x : Binary32} (h : x.isNegative = true) (hne : x.value ≠ 0) :
    x.value < 0 := by
  have habs := abs_value x
  rw [value, if_pos h] at hne habs ⊢
  have hpos := abs_pos.2 hne
  rw [habs] at hpos
  exact neg_neg_of_pos hpos

section
variable {x : Binary32} (hx : x.IsFinite)
include hx

theorem not_isNaN : ¬ x.isNaN := by
  rw [isNaN, Bool.and_eq_true, beq_iff_eq]
  exact fun h => hx h.1

theorem not_isInfinite : ¬ x.isInfinite := by
  rw [isInfinite, Bool.and_eq_true, beq_iff_eq]
  exact fun h => hx h.1

theorem magnitude_bounds :
    x.magnitude.mantissa < 2 ^ 24 ∧ -149 ≤ x.magnitude.exponent ∧ x.magnitude.exponent ≤ 104 := by
  have hfraction : x.fraction < 0x800000 := Nat.mod_lt _ (by decide)
  have hfield : x.exponentField < 256 := Nat.mod_lt _ (by decide)
  have hne : x.exponentField ≠ 255 := hx
  unfold magnitude
  split
  · exact ⟨by simp only; omega, by simp only; omega, by simp only; omega⟩
  · exact ⟨by simp only; omega, by simp only; omega, by simp only; omega⟩

theorem value_bounds (hne : x.value ≠ 0) :
    (2 : ℚ) ^ (-149 : ℤ) ≤ |x.value| ∧ |x.value| < 2 ^ (128 : ℤ) := by
  obtain ⟨hmantissa, hleast, hgreatest⟩ := magnitude_bounds hx
  have hpos := abs_pos.2 hne
  rw [abs_value, Magnitude.value] at hpos ⊢
  have hunit : (0 : ℚ) < 2 ^ x.magnitude.exponent := zpow_pos (by norm_num) _
  have hone : (1 : ℚ) ≤ x.magnitude.mantissa := by
    have := pos_of_mul_pos_left hpos hunit.le
    exact_mod_cast this
  have hlt : (x.magnitude.mantissa : ℚ) < 2 ^ 24 := by exact_mod_cast hmantissa
  constructor
  · calc (2 : ℚ) ^ (-149 : ℤ) ≤ 2 ^ x.magnitude.exponent :=
          zpow_le_zpow_right₀ (by norm_num) hleast
      _ ≤ x.magnitude.mantissa * 2 ^ x.magnitude.exponent := le_mul_of_one_le_left hunit.le hone
  · calc (x.magnitude.mantissa : ℚ) * 2 ^ x.magnitude.exponent
        < 2 ^ 24 * 2 ^ x.magnitude.exponent := by gcongr
      _ ≤ 2 ^ 24 * 2 ^ (104 : ℤ) := by gcongr; norm_num
      _ = 2 ^ (128 : ℤ) := by norm_num

/-- Two digits are enough for the exponent. -/
theorem log_bounds (hne : x.value ≠ 0) : -45 ≤ Int.log 10 |x.value| ∧ Int.log 10 |x.value| < 39 := by
  obtain ⟨hlow, hhigh⟩ := value_bounds hx hne
  have hpos := abs_pos.2 hne
  refine ⟨(Int.zpow_le_iff_le_log (by decide) hpos).1 (le_trans ?_ hlow),
    (Int.lt_zpow_iff_log_lt (by decide) hpos).1 (lt_trans hhigh ?_)⟩
  · norm_num
  · norm_num

/-- The depth is enough for the least float. -/
theorem den_le : x.magnitude.num = 0 ∨ x.magnitude.den ≤ x.magnitude.num * 10 ^ 60 := by
  have hden : (0 : ℚ) < x.magnitude.den := by exact_mod_cast x.magnitude.den_pos
  have hratio := x.magnitude.num_div_den
  rw [← abs_value] at hratio
  by_cases hne : x.value = 0
  · rw [hne, abs_zero, div_eq_zero_iff] at hratio
    exact .inl (by exact_mod_cast hratio.resolve_right hden.ne')
  · have hlow : (10 ^ 60 : ℚ)⁻¹ ≤ x.magnitude.num / x.magnitude.den := by
      rw [hratio]
      exact le_trans (by norm_num) (value_bounds hx hne).1
    rw [le_div_iff₀ hden, inv_mul_le_iff₀ (by positivity), mul_comm] at hlow
    exact .inr (by exact_mod_cast hlow)

end

end Number.Binary32

namespace Operation

open Number

/-- What a float is written with: its sign, five digits of which the first stands in front of the
point, and an exponent of two digits. -/
@[ext] structure FloatText where
  negative : Bool
  digits : ℕ
  exponent : ℤ
  digits_lt : digits < 10 ^ 5
  exponent_lt : exponent.natAbs < 10 ^ 2

namespace FloatText

/-- The text without a sign in front. -/
def chars (f : FloatText) : List Char :=
  [digitAt f.digits 4, '.', digitAt f.digits 3, digitAt f.digits 2, digitAt f.digits 1,
    digitAt f.digits 0, 'e', if f.exponent < 0 then '-' else '+', digitAt f.exponent.natAbs 1,
    digitAt f.exponent.natAbs 0]

def text (f : FloatText) : String := (if f.negative then "-" else "") ++ String.ofList f.chars

/-- The number that the text denotes. -/
def value (f : FloatText) : ℚ := Json.signed f.negative f.digits * 10 ^ (f.exponent - 4)

theorem abs_signed_lt (f : FloatText) : |Json.signed f.negative f.digits| < 10 ^ 5 := by
  have hlt : (f.digits : ℤ) < 10 ^ 5 := by exact_mod_cast f.digits_lt
  unfold Json.signed
  split
  · rwa [abs_neg, Nat.abs_cast]
  · rwa [Nat.abs_cast]

theorem isDigits_digitAt (n : ℕ) {places : List ℕ} (h : places ≠ []) :
    Json.IsDigits (places.map (digitAt n)) :=
  ⟨by simpa using h, List.forall_mem_map.2 fun place _ => isDigit_digitAt n place⟩

theorem splitSign_text (f : FloatText) : splitSign f.text.toList = (f.negative, f.chars) := by
  have htext : f.text.toList = Json.minusText f.negative ++ f.chars := by
    rw [text, String.toList_append, String.toList_ofList]
    cases f.negative <;> rfl
  rw [htext]
  exact Json.splitSign_append (Json.signSpelledBy_minusText f.negative)
    (isDigits_digitAt f.digits (List.cons_ne_nil 4 []))

/-- The text is read as the decimal that it denotes. -/
theorem parse?_chars (f : FloatText) :
    Decimal.parse? f.chars = some ⟨f.digits, f.exponent - 4⟩ := by
  have hsign : Json.SignSpelledBy (decide (f.exponent < 0))
      [if f.exponent < 0 then '-' else '+'] := by
    by_cases h : f.exponent < 0
    · rw [decide_eq_true h, if_pos h]
      exact .minus
    · rw [decide_eq_false h, if_neg h]
      exact .plus
  have hread := Json.parse?_unsigned (isDigits_digitAt f.digits (List.cons_ne_nil 4 []))
    (.digits (isDigits_digitAt f.digits (List.cons_ne_nil 3 [2, 1, 0])))
    (.digits (.inl rfl) hsign (isDigits_digitAt f.exponent.natAbs (List.cons_ne_nil 1 [0]))) false
  have hdigits : digitsValue ((List.range 5).reverse.map (digitAt f.digits)) = f.digits := by
    rw [← padded_eq (by decide) f.digits_lt, Lua.digitsValue_padded]
  have hexponent : digitsValue ((List.range 2).reverse.map (digitAt f.exponent.natAbs)) =
      f.exponent.natAbs := by
    rw [← padded_eq (by decide) f.exponent_lt, Lua.digitsValue_padded]
  have hpower : Json.signed (decide (f.exponent < 0))
      (digitsValue ((List.range 2).reverse.map (digitAt f.exponent.natAbs))) = f.exponent := by
    rw [hexponent, signed_natAbs]
  refine hread.trans (congrArg some ?_)
  change Decimal.mk (digitsValue ((List.range 5).reverse.map (digitAt f.digits)))
    (Json.signed (decide (f.exponent < 0))
      (digitsValue ((List.range 2).reverse.map (digitAt f.exponent.natAbs))) - 4) = _
  rw [hdigits, hpower]

/-- A text denotes one number. -/
theorem text_injective : Function.Injective text := by
  intro f g h
  have hsplit := (splitSign_text f).symm.trans (h ▸ splitSign_text g)
  obtain ⟨hnegative, hchars⟩ := Prod.mk.inj hsplit
  have hread := (parse?_chars f).symm.trans (hchars ▸ parse?_chars g)
  obtain ⟨hdigits, hexponent⟩ := Decimal.mk.inj (Option.some_inj.1 hread)
  exact FloatText.ext hnegative hdigits (by omega)

/-- What a finite float is written with. -/
def ofFloat (x : Binary32) (hx : x.IsFinite) : FloatText where
  negative := x.isNegative
  digits := (ScientificForm.nearest 4 |x.value|).digits
  exponent := (ScientificForm.nearest 4 |x.value|).power
  digits_lt := by
    by_cases hne : x.value = 0
    · rw [hne, abs_zero, ScientificForm.nearest_zero]
      decide
    · exact (ScientificForm.digits_nearest 4 (abs_pos.2 hne)).2
  exponent_lt := by
    by_cases hne : x.value = 0
    · rw [hne, abs_zero, ScientificForm.nearest_zero]
      decide
    · have hlog := Binary32.log_bounds hx hne
      have hpower := ScientificForm.power_nearest 4 (abs_pos.2 hne)
      omega

section
variable {x : Binary32} (hx : x.IsFinite)

theorem negative_ofFloat : (ofFloat x hx).negative = x.isNegative := rfl

theorem digits_ofFloat :
    (ofFloat x hx).digits = (ScientificForm.nearest 4 |x.value|).digits := rfl

theorem exponent_ofFloat :
    (ofFloat x hx).exponent = (ScientificForm.nearest 4 |x.value|).power := rfl

theorem text_ofFloat : (ofFloat x hx).text = floatLiteral x := by
  have hround : roundScientific 60 4 x.magnitude.num x.magnitude.den =
      .nearest 4 |x.value| := by
    rw [roundScientific_eq 4 x.magnitude.den_pos (Binary32.den_le hx), Magnitude.num_div_den,
      Binary32.abs_value]
  have hdigits := padded_eq (by decide) (ofFloat x hx).digits_lt
  have hexponent := padded_eq (by decide) (ofFloat x hx).exponent_lt
  have hscientific : scientific 60 4 x.magnitude.num x.magnitude.den = (ofFloat x hx).chars := by
    rw [scientific, hround]
    change (padded 5 (ofFloat x hx).digits).take 1 ++ '.' :: (padded 5 (ofFloat x hx).digits).drop 1 ++
      'e' :: _ :: padded 2 (ofFloat x hx).exponent.natAbs = _
    rw [hdigits, hexponent]
    rfl
  rw [floatLiteral, if_neg (Binary32.not_isNaN hx), text, ← hscientific]
  exact (if_neg (Binary32.not_isInfinite hx)).symm

theorem value_ofFloat : (ofFloat x hx).value =
    (if x.value < 0 then -1 else 1) * (ScientificForm.nearest 4 |x.value|).value 4 := by
  have hvalue : (ofFloat x hx).value = (if x.isNegative then -1 else 1) *
      (ScientificForm.nearest 4 |x.value|).value 4 := by
    rw [value, Json.signed, negative_ofFloat, exponent_ofFloat, digits_ofFloat, ScientificForm.value]
    cases x.isNegative <;> simp
  rw [hvalue]
  by_cases hzero : x.value = 0
  · rw [hzero, abs_zero, ScientificForm.nearest_zero, ScientificForm.value]
    simp
  · cases hnegative : x.isNegative with
    | true => rw [if_pos rfl, if_pos (Binary32.value_neg_of_isNegative hnegative hzero)]
    | false =>
      have hnonneg : ¬ x.value < 0 := by
        rw [Binary32.value, hnegative, if_neg Bool.false_ne_true, ← Binary32.abs_value]
        exact not_lt.2 (abs_nonneg _)
      rw [if_neg hnonneg, if_neg Bool.false_ne_true]

theorem isNearestDecimal_ofFloat :
    IsNearestDecimal 5 x.value (ofFloat x hx).value (ofFloat x hx).digits := by
  have hnearest := @ScientificForm.isNearestDecimal_nearest 4 _ (by decide) (abs_nonneg x.value)
  rw [value_ofFloat, digits_ofFloat]
  generalize ScientificForm.nearest 4 |x.value| = d at hnearest ⊢
  by_cases hneg : x.value < 0
  · have hopposite := hnearest.neg
    rw [abs_of_neg hneg, neg_neg] at hopposite
    rwa [if_pos hneg, neg_one_mul]
  · rw [abs_of_nonneg (not_lt.1 hneg)] at hnearest
    rwa [if_neg hneg, one_mul]

/-- Greater floats are not written as smaller numbers. -/
theorem value_ofFloat_mono {y : Binary32} (hy : y.IsFinite) (h : x.value ≤ y.value) :
    (ofFloat x hx).value ≤ (ofFloat y hy).value := by
  rcases h.lt_or_eq with hlt | heq
  · exact (isNearestDecimal_ofFloat hx).mono (isNearestDecimal_ofFloat hy) rfl rfl
      (abs_signed_lt _) (abs_signed_lt _) hlt
  · rw [value_ofFloat, value_ofFloat, heq]

end

end FloatText

/-- A float that is a number is written as `d.dddde+dd` or `d.dddde-dd` behind its sign, and this is
the nearest decimal with five digits. -/
theorem floatLiteral_nearest {x : Binary32} (hx : x.IsFinite) :
    ∃ f : FloatText, floatLiteral x = f.text ∧ f.negative = x.isNegative ∧
      (x.value = 0 → f.digits = 0 ∧ f.exponent = 0) ∧ (x.value ≠ 0 → 10 ^ 4 ≤ f.digits) ∧
      IsNearestDecimal 5 x.value f.value f.digits ∧
      ∀ (y : Binary32) (g : FloatText), y.IsFinite → floatLiteral y = g.text →
        x.value ≤ y.value → f.value ≤ g.value := by
  refine ⟨.ofFloat x hx, (FloatText.text_ofFloat hx).symm, rfl, ?_, ?_,
    FloatText.isNearestDecimal_ofFloat hx, ?_⟩
  · intro hzero
    rw [FloatText.digits_ofFloat, FloatText.exponent_ofFloat, hzero, abs_zero,
      ScientificForm.nearest_zero]
    exact ⟨rfl, rfl⟩
  · intro hne
    exact (ScientificForm.digits_nearest 4 (abs_pos.2 hne)).1
  · intro y g hy hg hle
    obtain rfl : FloatText.ofFloat y hy = g :=
      FloatText.text_injective ((FloatText.text_ofFloat hy).trans hg)
    exact FloatText.value_ofFloat_mono hx hy hle

/-- The float half-way between `99999` and `100000`. -/
def halfwayFloat : Binary32 := ⟨0x47C34FC0⟩

def halfwayText : FloatText := ⟨false, 10000, 5, by decide, by decide⟩

theorem value_halfwayFloat : halfwayFloat.value = 199999 / 2 := by
  rw [Binary32.value, if_neg (by decide), Magnitude.value]
  have hmagnitude : halfwayFloat.magnitude = ⟨12799936, -7⟩ := by decide
  rw [hmagnitude]
  norm_num

theorem value_halfwayText : halfwayText.value = 100000 := by
  have hsigned : Json.signed halfwayText.negative halfwayText.digits = 10000 := rfl
  have hexponent : halfwayText.exponent = 5 := rfl
  rw [FloatText.value, hsigned, hexponent]
  norm_num

theorem floatLiteral_nearest_halfway :
    halfwayFloat.IsFinite ∧ floatLiteral halfwayFloat = "1.0000e+05" ∧
      IsNearestDecimal 5 (199999 / 2) 100000 10000 ∧
      ∀ (y : Binary32) (g : FloatText), y.IsFinite → floatLiteral y = g.text →
        199999 / 2 ≤ y.value → 100000 ≤ g.value := by
  have hfinite : halfwayFloat.IsFinite := by decide
  have hliteral : floatLiteral halfwayFloat = "1.0000e+05" := by decide +kernel
  obtain ⟨f, htext, -, -, -, hnearest, hmono⟩ := floatLiteral_nearest hfinite
  obtain rfl : f = halfwayText := FloatText.text_injective (htext.symm.trans hliteral)
  rw [value_halfwayFloat, value_halfwayText] at hnearest
  rw [value_halfwayFloat, value_halfwayText] at hmono
  exact ⟨hfinite, hliteral, hnearest, hmono⟩

end Operation

end OpStubs
