import OpStubs.Diff.Middle
import OpStubs.Diff.Script

namespace OpStubs.Diff

variable {α : Type} [DecidableEq α]

def commonStart : List α → List α → Nat
  | a :: r, b :: s => if a = b then commonStart r s + 1 else 0
  | _, _ => 0

def commonEnd (s t : List α) : Nat := commonStart s.reverse t.reverse

theorem commonStart_le (s t : List α) : commonStart s t ≤ s.length := by
  fun_induction commonStart s t <;> simp_all

theorem commonEnd_le (s t : List α) : commonEnd s t ≤ s.length := by
  simpa [commonEnd] using commonStart_le s.reverse t.reverse

theorem take_commonStart (s t : List α) :
    t.take (commonStart s t) = s.take (commonStart s t) := by
  fun_induction commonStart s t <;> simp_all

theorem drop_commonEnd (s t : List α) :
    t.drop (t.length - commonEnd s t) = s.drop (s.length - commonEnd s t) := by
  have h := congrArg List.reverse (take_commonStart s.reverse t.reverse)
  simpa [List.reverse_take, commonEnd] using h

/-- Two texts: what they have in common at their starts, what each has of its own, and what they
have in common at their ends. -/
structure Ends (α : Type) where
  start : List α
  old : List α
  new : List α
  stop : List α

def Ends.of (old new : List α) : Ends α :=
  let start := commonStart old new
  let oldTail := old.drop start
  let newTail := new.drop start
  let stop := commonEnd oldTail newTail
  ⟨old.take start, oldTail.take (oldTail.length - stop), newTail.take (newTail.length - stop),
    oldTail.drop (oldTail.length - stop)⟩

theorem Ends.length_le (old new : List α) :
    (Ends.of old new).old.length + (Ends.of old new).new.length ≤ old.length + new.length := by
  simp only [Ends.of, List.length_take, List.length_drop]
  omega

theorem Ends.append_old (old new : List α) :
    (Ends.of old new).start ++ ((Ends.of old new).old ++ (Ends.of old new).stop) = old := by
  simp only [Ends.of, List.take_append_drop]

theorem Ends.append_new (old new : List α) :
    (Ends.of old new).start ++ ((Ends.of old new).new ++ (Ends.of old new).stop) = new := by
  simp only [Ends.of]
  rw [← drop_commonEnd, ← take_commonStart, List.take_append_drop, List.take_append_drop]

def replacing (a b : List α) : Script α :=
  (if a.isEmpty then [] else [.drop a]) ++ if b.isEmpty then [] else [.add b]

@[simp] theorem before_replacing {α : Type} (a b : List α) : Script.before (replacing a b) = a := by
  cases a <;> cases b <;> simp [replacing, Script.before]

@[simp] theorem after_replacing {α : Type} (a b : List α) : Script.after (replacing a b) = b := by
  cases a <;> cases b <;> simp [replacing, Script.after]

/-- Where to cut two texts so that the starts and the stops can be done one after the other, both
being smaller than the whole. -/
def cut? (old new : List α) : Option (Nat × Nat) :=
  if old.isEmpty || new.isEmpty then none
  else (middle? old new).filter fun (x, y) =>
    0 < x + y && (x < old.length || y < new.length)

theorem cut?_start {old new : List α} {x y : Nat} (h : cut? old new = some (x, y)) :
    (old.take x).length + (new.take y).length < old.length + new.length := by
  unfold cut? at h
  split at h
  · cases h
  · simp only [Option.filter_eq_some_iff, Bool.and_eq_true, Bool.or_eq_true,
      decide_eq_true_eq] at h
    simp only [List.length_take]
    omega

theorem cut?_stop {old new : List α} {x y : Nat} (h : cut? old new = some (x, y)) :
    (old.drop x).length + (new.drop y).length < old.length + new.length := by
  unfold cut? at h
  split at h
  · cases h
  · rename_i hne
    simp only [Bool.or_eq_true, List.isEmpty_iff, not_or, ← List.length_pos_iff] at hne
    simp only [Option.filter_eq_some_iff, Bool.and_eq_true, Bool.or_eq_true,
      decide_eq_true_eq] at h
    simp only [List.length_drop]
    omega

/-- A shortest way from one text to another: what is in common at either end is kept, and what is
left is done in two halves. -/
def script (old new : List α) : Script α :=
  let ends := Ends.of old new
  let between :=
    match _h : cut? ends.old ends.new with
    | none => replacing ends.old ends.new
    | some (x, y) =>
      script (ends.old.take x) (ends.new.take y) ++ script (ends.old.drop x) (ends.new.drop y)
  Script.keeping ends.start ++ between ++ Script.keeping ends.stop
termination_by old.length + new.length
decreasing_by
  · exact Nat.lt_of_lt_of_le (cut?_start _h) (Ends.length_le old new)
  · exact Nat.lt_of_lt_of_le (cut?_stop _h) (Ends.length_le old new)

theorem before_script (old new : List α) : (script old new).before = old := by
  fun_induction script old new with
  | case1 old new ends between ihStop ihStart =>
    have hb : between.before = ends.old := by
      unfold between
      split
      · exact before_replacing ..
      · rename_i h
        rw [Script.before_append, ihStart _ _ h, ihStop _ _ h, List.take_append_drop]
    rw [Script.before_append, Script.before_append, Script.before_keeping, Script.before_keeping, hb,
      List.append_assoc]
    exact Ends.append_old old new

theorem after_script (old new : List α) : (script old new).after = new := by
  fun_induction script old new with
  | case1 old new ends between ihStop ihStart =>
    have hb : between.after = ends.new := by
      unfold between
      split
      · exact after_replacing ..
      · rename_i h
        rw [Script.after_append, ihStart _ _ h, ihStop _ _ h, List.take_append_drop]
    rw [Script.after_append, Script.after_append, Script.after_keeping, Script.after_keeping, hb,
      List.append_assoc]
    exact Ends.append_new old new

end OpStubs.Diff
