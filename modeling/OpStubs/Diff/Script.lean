namespace OpStubs.Diff

/-- Lines in a row that are left, taken away or put in. -/
inductive Run (α : Type) where
  | keep (lines : List α)
  | drop (lines : List α)
  | add (lines : List α)
  deriving DecidableEq, Repr

abbrev Script (α : Type) := List (Run α)

namespace Script

variable {α : Type}

def before : Script α → List α
  | [] => []
  | .keep l :: rest => l ++ before rest
  | .drop l :: rest => l ++ before rest
  | .add _ :: rest => before rest

def after : Script α → List α
  | [] => []
  | .keep l :: rest => l ++ after rest
  | .drop _ :: rest => after rest
  | .add l :: rest => l ++ after rest

@[simp] theorem before_append (s t : Script α) : before (s ++ t) = before s ++ before t := by
  fun_induction before s <;> simp_all [before]

@[simp] theorem after_append (s t : Script α) : after (s ++ t) = after s ++ after t := by
  fun_induction after s <;> simp_all [after]

def keeping (l : List α) : Script α := if l.isEmpty then [] else [.keep l]

@[simp] theorem before_keeping (l : List α) : before (keeping l) = l := by
  cases l <;> simp [keeping, before]

@[simp] theorem after_keeping (l : List α) : after (keeping l) = l := by
  cases l <;> simp [keeping, after]

end Script

end OpStubs.Diff
