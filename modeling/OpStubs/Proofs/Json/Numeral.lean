import OpStubs.Json.Numeral

namespace OpStubs.Json

open Number

def signed (negative : Bool) (n : Nat) : Int := if negative then -n else n

namespace Numeral

/-- The digits of a numeral and the power of ten that the last of them counts. The sign is left
out. -/
def decimal (n : Numeral) : Decimal :=
  ⟨digitsValue (n.whole ++ n.part.getD []), n.exponent - (n.part.getD []).length⟩

/-- Whether a numeral stands for an integer, in whatever form. -/
def Denotes (n : Numeral) (i : Int) : Prop := signed n.negative n.decimal.num = i * n.decimal.den

/-- Whether a numeral has no point and no exponent, and is no zero with a minus sign. -/
def IsPlain (n : Numeral) : Prop :=
  n.part = none ∧ n.power = none ∧ (n.negative = true → digitsValue n.whole ≠ 0)

theorem decimal_of_isPlain {n : Numeral} (h : n.IsPlain) : n.decimal = ⟨digitsValue n.whole, 0⟩ := by
  obtain ⟨hpart, hpower, _⟩ := h
  simp [decimal, exponent, hpart, hpower]

/-- A plain integer of 64 bits is read as itself. -/
theorem value_of_isPlain {n : Numeral} {i : Int} (h : n.IsPlain) (hi : n.Denotes i)
    (hfits : fits64 i = true) : n.value = .ok (.int i) := by
  have hsigned : signed n.negative (digitsValue n.whole) = i := by
    rw [Denotes, decimal_of_isPlain h] at hi
    simpa [Decimal.num, Decimal.den] using hi
  obtain ⟨hpart, hpower, hzero⟩ := h
  simp only [fits64, Bool.and_eq_true, decide_eq_true_eq] at hfits
  rw [value, hpart, hpower, if_pos ⟨rfl, rfl⟩]
  cases hn : n.negative with
  | true =>
    have hpos := hzero hn
    rw [hn, signed, if_pos rfl] at hsigned
    rw [if_pos rfl, if_pos (by omega), hsigned]
  | false =>
    rw [hn, signed, if_neg Bool.false_ne_true] at hsigned
    rw [if_neg Bool.false_ne_true, if_pos (by omega), hsigned]

end Numeral

end OpStubs.Json
