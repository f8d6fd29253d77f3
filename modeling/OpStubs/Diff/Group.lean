import OpStubs.Diff.Compact

namespace OpStubs.Diff

variable {α : Type}

/-- Lines that two texts share, or lines of the old one in whose place the new one has others. -/
inductive Block (α : Type) where
  | same (lines : List α)
  | change (old new : List α)
  deriving DecidableEq, Repr

def Block.old : Block α → List α
  | same l => l
  | change old _ => old

def Block.new : Block α → List α
  | same l => l
  | change _ new => new

def Block.isChange : Block α → Bool
  | change .. => true
  | same _ => false

/-- Puts a run in front of blocks, into the first of them if that is of its kind. -/
def consRun : Run α → List (Block α) → List (Block α)
  | .keep l, .same m :: rest => .same (l ++ m) :: rest
  | .keep l, rest => .same l :: rest
  | .drop l, .change old new :: rest => .change (l ++ old) new :: rest
  | .drop l, rest => .change l [] :: rest
  | .add l, .change old new :: rest => .change old (l ++ new) :: rest
  | .add l, rest => .change [] l :: rest

def blocks (s : Script α) : List (Block α) := s.foldr consRun []

theorem old_consRun (r : Run α) (bs : List (Block α)) :
    (consRun r bs).flatMap Block.old = Script.before [r] ++ bs.flatMap Block.old := by
  fun_cases consRun r bs <;> simp_all [Script.before, Block.old]

theorem new_consRun (r : Run α) (bs : List (Block α)) :
    (consRun r bs).flatMap Block.new = Script.after [r] ++ bs.flatMap Block.new := by
  fun_cases consRun r bs <;> simp_all [Script.after, Block.new]

theorem old_blocks (s : Script α) : (blocks s).flatMap Block.old = s.before := by
  induction s with
  | nil => rfl
  | cons r rest ih =>
    rw [blocks, List.foldr_cons, old_consRun, ← blocks, ih]
    exact (Script.before_append [r] rest).symm

theorem new_blocks (s : Script α) : (blocks s).flatMap Block.new = s.after := by
  induction s with
  | nil => rfl
  | cons r rest ih =>
    rw [blocks, List.foldr_cons, new_consRun, ← blocks, ih]
    exact (Script.after_append [r] rest).symm

/-- Leaves of lines at the start of all only the last `n`. -/
def trimStart (n : Nat) : List (Block α) → List (Block α)
  | .same l :: rest => .same (l.drop (l.length - n)) :: rest
  | bs => bs

def trimStop (n : Nat) : List (Block α) → List (Block α)
  | [] => []
  | [.same l] => [.same (l.take n)]
  | b :: rest => b :: trimStop n rest

/-- Puts a block in front of groups, into the first of them. -/
def consGroup (b : Block α) : List (List (Block α)) → List (List (Block α))
  | [] => [[b]]
  | g :: gs => (b :: g) :: gs

/-- Cuts where more than `2 * n` lines are the same, and leaves `n` of them on either side. -/
def cutSame (n : Nat) : List (Block α) → List (List (Block α))
  | [] => [[]]
  | .same l :: rest =>
    if 2 * n < l.length then
      [.same (l.take n)] :: consGroup (.same (l.drop (l.length - n))) (cutSame n rest)
    else consGroup (.same l) (cutSame n rest)
  | b :: rest => consGroup b (cutSame n rest)

/-- The changes in groups, with up to `n` lines around each that are the same. -/
def groups (n : Nat) (bs : List (Block α)) : List (List (Block α)) :=
  (cutSame n (trimStop n (trimStart n bs))).filter fun g => g.any Block.isChange

end OpStubs.Diff
