import OpStubs.Diff.Shortest

namespace OpStubs.Diff

variable {α : Type}

def Run.lines : Run α → List α
  | keep l => l
  | drop l => l
  | add l => l

def Run.isDrop : Run α → Bool
  | drop _ => true
  | _ => false

def Run.isAdd : Run α → Bool
  | add _ => true
  | _ => false

/-- A script seen from one of its runs. -/
structure Focus (α : Type) where
  /-- The runs in front of it, the nearest first. -/
  front : Script α
  run : Run α
  behind : Script α

/-- The lines and the runs of a script. -/
def weight : Script α → Nat
  | [] => 0
  | r :: rest => r.lines.length + 1 + weight rest

def changes (s : Script α) : Nat := s.countP fun r => r.isDrop || r.isAdd

theorem weight_keeping_lt {l m : List α} (rest : Script α) (h : l.length < m.length) :
    weight (Script.keeping l ++ rest) < weight (.keep m :: rest) := by
  cases l <;> simp_all +arith [weight, Script.keeping, Run.lines]

def keepBefore (l : List α) : Script α → Script α
  | .keep m :: rest => .keep (l ++ m) :: rest
  | rest => .keep l :: rest

/-- Keeps `l` behind what came before, `front` being the runs in front, the nearest first. -/
def keepBehind (l : List α) : Script α → Script α
  | .keep m :: rest => .keep (m ++ l) :: rest
  | rest => .keep l :: rest

@[simp] theorem before_keepBefore (l : List α) (s : Script α) :
    (keepBefore l s).before = l ++ s.before := by
  unfold keepBefore
  split <;> simp [Script.before]

@[simp] theorem after_keepBefore (l : List α) (s : Script α) :
    (keepBefore l s).after = l ++ s.after := by
  unfold keepBefore
  split <;> simp [Script.after]

@[simp] theorem before_keepBehind (l : List α) (front : Script α) :
    Script.before (keepBehind l front).reverse = Script.before front.reverse ++ l := by
  unfold keepBehind
  split <;> simp [Script.before]

@[simp] theorem after_keepBehind (l : List α) (front : Script α) :
    Script.after (keepBehind l front).reverse = Script.after front.reverse ++ l := by
  unfold keepBehind
  split <;> simp [Script.after]

@[simp] theorem reverse_keeping (l : List α) : (Script.keeping l).reverse = Script.keeping l := by
  cases l <;> rfl

namespace Focus

variable [DecidableEq α]

def toScript (f : Focus α) : Script α := f.front.reverse ++ f.run :: f.behind

/-- Moves a change towards the start as far as it goes. It joins changes of its kind and passes
others. Added lines also pass kept ones which the last of them equal. -/
def up (run : Run α) (front behind : Script α) : Focus α :=
  match front with
  | [] => ⟨[], run, behind⟩
  | near :: far =>
    match run, near with
    | .add l, .keep m =>
      let n := commonEnd m l
      if 0 < n then
        let moved := m.drop (m.length - n)
        up (.add (moved ++ l.take (l.length - n)))
          (Script.keeping (m.take (m.length - n)) ++ far) (keepBefore moved behind)
      else ⟨near :: far, run, behind⟩
    | .add l, .add m => up (.add (m ++ l)) far behind
    | .drop l, .drop m => up (.drop (m ++ l)) far behind
    | .add _, .drop _ => up run far (near :: behind)
    | .drop _, .add _ => up run far (near :: behind)
    | _, _ => ⟨near :: far, run, behind⟩
termination_by weight front
decreasing_by
  · have := commonEnd_le m l
    exact weight_keeping_lt far (by simp only [List.length_take]; omega)
  all_goals simp +arith [weight]

def down (front : Script α) (run : Run α) (behind : Script α) : Focus α :=
  match behind with
  | [] => ⟨front, run, []⟩
  | near :: far =>
    match run, near with
    | .add l, .keep m =>
      let n := commonStart m l
      if 0 < n then
        let moved := m.take n
        down (keepBehind moved front) (.add (l.drop n ++ moved)) (Script.keeping (m.drop n) ++ far)
      else ⟨front, run, near :: far⟩
    | .add l, .add m => down front (.add (l ++ m)) far
    | .drop l, .drop m => down front (.drop (l ++ m)) far
    | .add _, .drop _ => down (near :: front) run far
    | .drop _, .add _ => down (near :: front) run far
    | _, _ => ⟨front, run, near :: far⟩
termination_by weight behind
decreasing_by
  · have := commonStart_le m l
    exact weight_keeping_lt far (by simp only [List.length_drop]; omega)
  all_goals simp +arith [weight]

theorem sides_up (run : Run α) (front behind : Script α) :
    (up run front behind).toScript.before = (toScript ⟨front, run, behind⟩).before ∧
      (up run front behind).toScript.after = (toScript ⟨front, run, behind⟩).after := by
  fun_induction up run front behind with
  | case2 behind rest l m n _ moved ih =>
    have hm : m.take (m.length - n) ++ moved = m := List.take_append_drop ..
    have hl : l.take (l.length - n) ++ moved = l := by
      have h : l.drop (l.length - n) = moved := drop_commonEnd m l
      rw [← h, List.take_append_drop]
    have hm' (x : List α) : m.take (m.length - n) ++ (moved ++ x) = m ++ x := by
      rw [← List.append_assoc, hm]
    have hl' (x : List α) : l.take (l.length - n) ++ (moved ++ x) = l ++ x := by
      rw [← List.append_assoc, hl]
    rw [ih.1, ih.2]
    simp [toScript, Script.before, Script.after, hm', hl']
  | _ => simp_all [toScript, Script.before, Script.after]

theorem sides_down (front : Script α) (run : Run α) (behind : Script α) :
    (down front run behind).toScript.before = (toScript ⟨front, run, behind⟩).before ∧
      (down front run behind).toScript.after = (toScript ⟨front, run, behind⟩).after := by
  fun_induction down front run behind with
  | case2 front rest l m n _ moved ih =>
    have hl : moved ++ l.drop n = l := by
      have h : l.take n = moved := take_commonStart m l
      rw [← h, List.take_append_drop]
    have hm : moved ++ m.drop n = m := List.take_append_drop ..
    have hm' (x : List α) : moved ++ (m.drop n ++ x) = m ++ x := by rw [← List.append_assoc, hm]
    have hl' (x : List α) : moved ++ (l.drop n ++ x) = l ++ x := by rw [← List.append_assoc, hl]
    rw [ih.1, ih.2]
    simp [toScript, Script.before, Script.after, hm', hl']
  | _ => simp_all [toScript, Script.before, Script.after]

def settle (run : Run α) (front behind : Script α) : Focus α :=
  let top := up run front behind
  down top.front top.run top.behind

theorem sides_settle (run : Run α) (front behind : Script α) :
    (settle run front behind).toScript.before = (toScript ⟨front, run, behind⟩).before ∧
      (settle run front behind).toScript.after = (toScript ⟨front, run, behind⟩).after := by
  have hu := sides_up run front behind
  have hd := sides_down (up run front behind).front (up run front behind).run
    (up run front behind).behind
  exact ⟨hd.1.trans hu.1, hd.2.trans hu.2⟩

end Focus

/-- What is left to do where the runs `front` are done and `behind` are not: fewer changes are less,
and with as many changes a lighter rest is. -/
def left (front behind : Script α) : Nat × Nat := (changes front + changes behind, weight behind)

def isLess (a b : Nat × Nat) : Bool := a.1 < b.1 || (a.1 == b.1 && a.2 < b.2)

theorem lex_of_isLess {a b : Nat × Nat} (h : isLess a b = true) :
    Prod.Lex (· < ·) (· < ·) a b := by
  simp only [isLess, Bool.or_eq_true, Bool.and_eq_true, decide_eq_true_eq, beq_iff_eq] at h
  obtain ⟨a₁, a₂⟩ := a
  obtain ⟨b₁, b₂⟩ := b
  rcases h with h | ⟨rfl, h⟩
  · exact Prod.Lex.left _ _ h
  · exact Prod.Lex.right _ h

variable [DecidableEq α]

/-- Settles one by one the runs of a kind that stand behind `front`. -/
def settleAll (kind : Run α → Bool) (front : Script α) : Script α → Script α
  | [] => front.reverse
  | run :: behind =>
    if kind run then
      let f := Focus.settle run front behind
      if isLess (left (f.run :: f.front) f.behind) (left front (run :: behind)) then
        settleAll kind (f.run :: f.front) f.behind
      else f.toScript
    else settleAll kind (run :: front) behind
termination_by behind => left front behind
decreasing_by
  · exact lex_of_isLess ‹_›
  · have h : changes (run :: front) + changes behind = changes front + changes (run :: behind) := by
      simp only [changes, List.countP_cons]
      omega
    rw [left, left, h]
    exact Prod.Lex.right _ (by simp +arith [weight])

theorem sides_settleAll (kind : Run α → Bool) (front behind : Script α) :
    (settleAll kind front behind).before = Script.before (front.reverse ++ behind) ∧
      (settleAll kind front behind).after = Script.after (front.reverse ++ behind) := by
  fun_induction settleAll kind front behind with
  | case1 => simp
  | case2 front run behind _ f _ ih =>
    have hs := Focus.sides_settle run front behind
    have hf : (f.run :: f.front).reverse ++ f.behind = f.toScript := by simp [Focus.toScript]
    rw [ih.1, ih.2, hf]
    exact hs
  | case3 front run behind _ f => exact Focus.sides_settle run front behind
  | case4 front run behind _ ih => simpa using ih

/-- The script with its changes brought together, those that take away first. -/
def compact (s : Script α) : Script α := settleAll Run.isAdd [] (settleAll Run.isDrop [] s)

theorem before_compact (s : Script α) : (compact s).before = s.before := by
  unfold compact
  rw [(sides_settleAll ..).1, List.reverse_nil, List.nil_append, (sides_settleAll ..).1]
  rfl

theorem after_compact (s : Script α) : (compact s).after = s.after := by
  unfold compact
  rw [(sides_settleAll ..).2, List.reverse_nil, List.nil_append, (sides_settleAll ..).2]
  rfl

end OpStubs.Diff
