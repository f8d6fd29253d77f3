import OpStubs.Text.Table.Case
import OpStubs.Text.Table.Properties

namespace OpStubs.Text

/-- Whether `n` lies in one of the ranges, which name their first and last members. -/
def inRanges (ranges : List (Nat × Nat)) (n : Nat) : Bool :=
  ranges.any fun (first, last) => first ≤ n && n ≤ last

/-- The counterpart of letter `n` if a run holds it, else `n` itself. -/
def shiftBy (runs : List Table.CaseRun) (n : Nat) : Nat :=
  match runs.find? fun r => r.first ≤ n && n ≤ r.last && (n - r.first) % r.step == 0 with
  | some r => (n + r.shift).toNat
  | none => n

def mapLetter (long : List (Nat × List Nat)) (runs : List Table.CaseRun) (c : Char) : List Char :=
  match long.lookup c.toNat with
  | some codes => codes.map Char.ofNat
  | none => [Char.ofNat (shiftBy runs c.toNat)]

def upperChar (c : Char) : List Char :=
  if c.toNat < 0x80 then [c.toUpper] else mapLetter Table.upperLong Table.upperRuns c

/-- The lower-case form of one letter away from its neighbours. -/
def lowerChar (c : Char) : List Char :=
  if c.toNat < 0x80 then [c.toLower] else mapLetter Table.lowerLong Table.lowerRuns c

def isCaseIgnorable (c : Char) : Bool := inRanges Table.caseIgnorable c.toNat

/-- Whether the nearest character that case mapping looks at is a letter with a case. -/
def meetsLetter (s : List Char) : Bool :=
  match s.dropWhile isCaseIgnorable with
  | [] => false
  | c :: _ => inRanges Table.cased c.toNat

/-- A capital sigma is final after a letter, unless another letter follows.
`before` is read away from the sigma. -/
def isFinalSigma (before after : List Char) : Bool := meetsLetter before && !meetsLetter after

/-- Lower-case form of the rest of a text, `before` being what precedes it, last letter first. -/
def lowerAfter (before : List Char) : List Char → List Char
  | [] => []
  | c :: r =>
    (if c = 'Σ' then [if isFinalSigma before r then 'ς' else 'σ'] else lowerChar c) ++
      lowerAfter (c :: before) r

def upper (s : List Char) : List Char := s.flatMap upperChar

def lower (s : List Char) : List Char := lowerAfter [] s

theorem lowerAfter_ascii (before s : List Char) (h : ∀ c ∈ s, c.toNat < 0x80) :
    lowerAfter before s = s.map Char.toLower := by
  induction s generalizing before with
  | nil => rfl
  | cons c r ih =>
    have hc := h c (by simp)
    have hs : c ≠ 'Σ' := by rintro rfl; exact absurd hc (by decide)
    simp [lowerAfter, hs, lowerChar, hc, ih _ fun d hd => h d (by simp [hd])]

theorem lower_ascii (s : List Char) (h : ∀ c ∈ s, c.toNat < 0x80) :
    lower s = s.map Char.toLower :=
  lowerAfter_ascii [] s h

theorem upper_ascii (s : List Char) (h : ∀ c ∈ s, c.toNat < 0x80) :
    upper s = s.map Char.toUpper := by
  induction s with
  | nil => rfl
  | cons c r ih =>
    have ih := ih fun d hd => h d (by simp [hd])
    simp only [upper] at ih
    simp [upper, upperChar, h c (by simp), ih]

end OpStubs.Text
