import OpStubs.Generate

namespace OpStubs.Request

/-- Whether an operation of this name is generated: it is asked for, or nothing is asked for and the
registry has it, and it does not start as private names do. -/
def Selects (q : Request) (r : Registry) (n : String) : Prop :=
  (match q.names with
    | some names => n ∈ names
    | none => ∃ op ∈ r, op.name = n) ∧
  (q.privateStart = "" ∨ ¬ q.privateStart.toList <+: n.toList)

theorem mem_insertName {name n : String} {names : List String} :
    n ∈ insertName name names ↔ n = name ∨ n ∈ names := by
  induction names with
  | nil => simp [insertName]
  | cons m rest ih =>
    rw [insertName]
    split
    · simp
    · split
      · rename_i heq
        subst heq
        simp
      · rw [List.mem_cons, ih, List.mem_cons]
        exact or_left_comm

theorem pairwise_insertName (name : String) (names : List String) (h : names.Pairwise (· < ·)) :
    (insertName name names).Pairwise (· < ·) := by
  induction names with
  | nil => simp [insertName]
  | cons m rest ih =>
    have hr := List.pairwise_cons.1 h
    rw [insertName]
    split
    · rename_i hlt
      refine List.pairwise_cons.2 ⟨fun x hx => ?_, h⟩
      rcases List.mem_cons.1 hx with rfl | hx
      · exact hlt
      · exact String.lt_trans hlt (hr.1 x hx)
    · rename_i hlt
      split
      · exact h
      · rename_i hne
        refine List.pairwise_cons.2 ⟨fun x hx => ?_, ih hr.2⟩
        rcases mem_insertName.1 hx with rfl | hx
        · exact Std.lt_of_le_of_ne hlt (Ne.symm hne)
        · exact hr.1 x hx

theorem mem_foldr_insertName {n : String} {names : List String} :
    n ∈ names.foldr insertName [] ↔ n ∈ names := by
  induction names with
  | nil => simp
  | cons m rest ih => rw [List.foldr_cons, mem_insertName, ih, List.mem_cons]

theorem pairwise_foldr_insertName (names : List String) :
    (names.foldr insertName []).Pairwise (· < ·) := by
  induction names with
  | nil => exact List.Pairwise.nil
  | cons m rest ih => exact pairwise_insertName m _ ih

theorem pairwise_select (q : Request) (r : Registry) : (q.select r).Pairwise (· < ·) :=
  pairwise_foldr_insertName _

theorem nodup_select (q : Request) (r : Registry) : (q.select r).Nodup :=
  (pairwise_select q r).imp fun h => Std.ne_of_lt h

theorem isPrivate_eq_false_iff (q : Request) (n : String) :
    q.isPrivate n = false ↔ q.privateStart = "" ∨ ¬ q.privateStart.toList <+: n.toList := by
  rw [isPrivate, Bool.and_eq_false_iff, bne_eq_false_iff_eq, ← Bool.not_eq_true,
    List.isPrefixOf_iff_prefix]

theorem mem_select {q : Request} {r : Registry} {n : String} :
    n ∈ q.select r ↔ q.Selects r n := by
  have hc : n ∈ q.names.getD (r.map (·.name)) ↔
      (match q.names with
        | some names => n ∈ names
        | none => ∃ op ∈ r, op.name = n) := by
    cases q.names <;> simp
  rw [select, mem_foldr_insertName, List.mem_filter, hc, Bool.not_eq_true',
    isPrivate_eq_false_iff, Selects]

end OpStubs.Request
