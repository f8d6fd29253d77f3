import OpStubs.Text.Utf8

namespace OpStubs.Text.Utf8

theorem toNat_byte {n : Nat} (h : n < 256) : (UInt8.ofNat n).toNat = n := by
  rw [UInt8.toNat_ofNat', Nat.mod_eq_of_lt h]

theorem lead_byte {n : Nat} (h : n < 256) :
    lead (UInt8.ofNat n) =
      if n < 0x80 then .whole (Char.ofNat n)
      else if n < 0xC2 then .wrong
      else if n < 0xE0 then .begun ⟨n - 0xC0, 1, 0x80, 0xBF⟩
      else if n < 0xF0 then
        .begun ⟨n - 0xE0, 2, if n = 0xE0 then 0xA0 else 0x80, if n = 0xED then 0x9F else 0xBF⟩
      else if n < 0xF5 then
        .begun ⟨n - 0xF0, 3, if n = 0xF0 then 0x90 else 0x80, if n = 0xF4 then 0x8F else 0xBF⟩
      else .wrong := by
  simp only [lead, UInt8.lt_iff_toNat_lt, ← UInt8.toNat_inj, toNat_byte h]
  rfl

/-- A byte that a begun character takes. -/
theorem step_byte {p : Begun} {n : Nat} (h : n < 256) (hl : p.least.toNat ≤ n)
    (hg : n ≤ p.greatest.toNat) :
    step (some p) (UInt8.ofNat n) =
      if p.needed = 1 then ([Char.ofNat (p.value * 64 + (n - 0x80))], none)
      else ([], some ⟨p.value * 64 + (n - 0x80), p.needed - 1, 0x80, 0xBF⟩) := by
  have hrange : p.least ≤ UInt8.ofNat n ∧ UInt8.ofNat n ≤ p.greatest := by
    rw [UInt8.le_iff_toNat_le, UInt8.le_iff_toNat_le, toNat_byte h]
    exact ⟨hl, hg⟩
  rw [step, if_pos hrange, toNat_byte h]

theorem decodeFrom_begin {n : Nat} {p : Begun} (h : lead (UInt8.ofNat n) = .begun p)
    (rest : List UInt8) :
    decodeFrom none (UInt8.ofNat n :: rest) = decodeFrom (some p) rest := by
  rw [decodeFrom, step, start, h]
  rfl

theorem decodeFrom_more {p : Begun} {n : Nat} (h : n < 256) (hl : p.least.toNat ≤ n)
    (hg : n ≤ p.greatest.toNat) (hp : p.needed ≠ 1) (rest : List UInt8) :
    decodeFrom (some p) (UInt8.ofNat n :: rest) =
      decodeFrom (some ⟨p.value * 64 + (n - 0x80), p.needed - 1, 0x80, 0xBF⟩) rest := by
  rw [decodeFrom, step_byte h hl hg, if_neg hp]
  rfl

/-- A byte of six bits of `v` that goes on with a character. -/
theorem decodeFrom_next (value needed v : Nat) (hn : needed ≠ 1) (rest : List UInt8) :
    decodeFrom (some ⟨value, needed, 0x80, 0xBF⟩) (UInt8.ofNat (v % 0x40 + 0x80) :: rest) =
      decodeFrom (some ⟨value * 64 + v % 0x40, needed - 1, 0x80, 0xBF⟩) rest := by
  have hl : 0x80 ≤ v % 0x40 + 0x80 := by omega
  have hg : v % 0x40 + 0x80 ≤ 0xBF := by omega
  refine (decodeFrom_more (by omega) hl hg hn rest).trans ?_
  rw [Nat.add_sub_cancel]

theorem decodeFrom_last (value v : Nat) (rest : List UInt8) :
    decodeFrom (some ⟨value, 1, 0x80, 0xBF⟩) (UInt8.ofNat (v % 0x40 + 0x80) :: rest) =
      Char.ofNat (value * 64 + v % 0x40) :: decodeFrom none rest := by
  have hl : 0x80 ≤ v % 0x40 + 0x80 := by omega
  have hg : v % 0x40 + 0x80 ≤ 0xBF := by omega
  rw [decodeFrom, step_byte (by omega) hl hg, if_pos rfl, Nat.add_sub_cancel]
  rfl

theorem decode_two {v : Nat} (h : 0x7F < v) (h' : v ≤ 0x7FF) (rest : List UInt8) :
    decodeFrom none (UInt8.ofNat (v / 64 % 0x20 + 0xC0) :: UInt8.ofNat (v % 0x40 + 0x80) :: rest) =
      Char.ofNat v :: decodeFrom none rest := by
  have hlead : lead (UInt8.ofNat (v / 64 % 0x20 + 0xC0)) = .begun ⟨v / 64, 1, 0x80, 0xBF⟩ := by
    have hvalue : v / 64 % 0x20 + 0xC0 - 0xC0 = v / 64 := by omega
    rw [lead_byte (by omega), if_neg (by omega), if_neg (by omega), if_pos (by omega), hvalue]
  have hvalue : v / 64 * 64 + v % 0x40 = v := by omega
  rw [decodeFrom_begin hlead, decodeFrom_last, hvalue]

/-- The second byte's range depends on the first, so that no form is overlong or a surrogate. -/
theorem decode_three {v : Nat} (h : 0x7FF < v) (h' : v ≤ 0xFFFF) (hv : v < 0xD800 ∨ 0xDFFF < v)
    (rest : List UInt8) :
    decodeFrom none (UInt8.ofNat (v / 4096 % 0x10 + 0xE0) :: UInt8.ofNat (v / 64 % 0x40 + 0x80) ::
      UInt8.ofNat (v % 0x40 + 0x80) :: rest) = Char.ofNat v :: decodeFrom none rest := by
  have hlead : lead (UInt8.ofNat (v / 4096 % 0x10 + 0xE0)) =
      .begun ⟨v / 4096, 2, if v / 4096 = 0 then 0xA0 else 0x80,
        if v / 4096 = 13 then 0x9F else 0xBF⟩ := by
    have hvalue : v / 4096 % 0x10 + 0xE0 - 0xE0 = v / 4096 := by omega
    have hzero : v / 4096 % 0x10 + 0xE0 = 0xE0 ↔ v / 4096 = 0 := by omega
    have hd : v / 4096 % 0x10 + 0xE0 = 0xED ↔ v / 4096 = 13 := by omega
    rw [lead_byte (by omega), if_neg (by omega), if_neg (by omega), if_neg (by omega),
      if_pos (by omega), hvalue]
    simp only [hzero, hd]
  have hl : (if v / 4096 = 0 then 0xA0 else 0x80 : UInt8).toNat ≤ v / 64 % 0x40 + 0x80 := by
    rw [apply_ite UInt8.toNat]
    change (if _ then 0xA0 else 0x80) ≤ _
    split <;> omega
  have hg : v / 64 % 0x40 + 0x80 ≤ (if v / 4096 = 13 then 0x9F else 0xBF : UInt8).toNat := by
    rw [apply_ite UInt8.toNat]
    change _ ≤ if _ then 0x9F else 0xBF
    split <;> omega
  have hvalue : (v / 4096 * 64 + v / 64 % 0x40) * 64 + v % 0x40 = v := by omega
  rw [decodeFrom_begin hlead, decodeFrom_more (by omega) hl hg (by simp)]
  refine (decodeFrom_last _ v rest).trans ?_
  rw [Nat.add_sub_cancel, hvalue]

theorem decode_four {v : Nat} (h : 0xFFFF < v) (h' : v < 0x110000) (rest : List UInt8) :
    decodeFrom none (UInt8.ofNat (v / 262144 % 0x08 + 0xF0) ::
      UInt8.ofNat (v / 4096 % 0x40 + 0x80) :: UInt8.ofNat (v / 64 % 0x40 + 0x80) ::
        UInt8.ofNat (v % 0x40 + 0x80) :: rest) = Char.ofNat v :: decodeFrom none rest := by
  have hlead : lead (UInt8.ofNat (v / 262144 % 0x08 + 0xF0)) =
      .begun ⟨v / 262144, 3, if v / 262144 = 0 then 0x90 else 0x80,
        if v / 262144 = 4 then 0x8F else 0xBF⟩ := by
    have hvalue : v / 262144 % 0x08 + 0xF0 - 0xF0 = v / 262144 := by omega
    have hzero : v / 262144 % 0x08 + 0xF0 = 0xF0 ↔ v / 262144 = 0 := by omega
    have hfour : v / 262144 % 0x08 + 0xF0 = 0xF4 ↔ v / 262144 = 4 := by omega
    rw [lead_byte (by omega), if_neg (by omega), if_neg (by omega), if_neg (by omega),
      if_neg (by omega), if_pos (by omega), hvalue]
    simp only [hzero, hfour]
  have hl : (if v / 262144 = 0 then 0x90 else 0x80 : UInt8).toNat ≤ v / 4096 % 0x40 + 0x80 := by
    rw [apply_ite UInt8.toNat]
    change (if _ then 0x90 else 0x80) ≤ _
    split <;> omega
  have hg : v / 4096 % 0x40 + 0x80 ≤ (if v / 262144 = 4 then 0x8F else 0xBF : UInt8).toNat := by
    rw [apply_ite UInt8.toNat]
    change _ ≤ if _ then 0x8F else 0xBF
    split <;> omega
  have hvalue : ((v / 262144 * 64 + v / 4096 % 0x40) * 64 + v / 64 % 0x40) * 64 + v % 0x40 = v := by
    omega
  rw [decodeFrom_begin hlead, decodeFrom_more (by omega) hl hg (by simp)]
  refine (decodeFrom_next _ 2 (v / 64) (by decide) _).trans ((decodeFrom_last _ v rest).trans ?_)
  rw [Nat.add_sub_cancel, hvalue]

/-- The bytes of a character are read as that character. -/
theorem decodeFrom_encodeChar (c : Char) (rest : List UInt8) :
    decodeFrom none (encodeChar c ++ rest) = c :: decodeFrom none rest := by
  have hvalid : c.val.toNat < 0xD800 ∨ (0xDFFF < c.val.toNat ∧ c.val.toNat < 0x110000) := c.valid
  have hchar : Char.ofNat c.val.toNat = c := Char.ofNat_toNat c
  rw [encodeChar, String.utf8EncodeChar]
  generalize c.val.toNat = v at hvalid hchar
  subst hchar
  by_cases h1 : v ≤ 0x7F
  · rw [if_pos h1, List.singleton_append, decodeFrom, step, start, lead_byte (by omega),
      if_pos (by omega)]
    rfl
  rw [if_neg h1]
  by_cases h2 : v ≤ 0x7FF
  · rw [if_pos h2]
    exact decode_two (by omega) h2 rest
  rw [if_neg h2]
  by_cases h3 : v ≤ 0xFFFF
  · rw [if_pos h3]
    exact decode_three (by omega) h3 (by omega) rest
  rw [if_neg h3]
  exact decode_four (by omega) (by omega) rest

theorem decodeLossy_encode (s : List Char) : decodeLossy (s.flatMap encodeChar) = s := by
  induction s with
  | nil => rfl
  | cons c s ih =>
    rw [List.flatMap_cons, decodeLossy, decodeFrom_encodeChar]
    exact congrArg (c :: ·) ih

end OpStubs.Text.Utf8
