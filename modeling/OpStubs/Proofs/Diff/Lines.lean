import OpStubs.Text.Lines

namespace OpStubs.Text

/-- What can end a line in front of the text `rest`. A carriage return that a line feed follows is
no ending without it. -/
inductive LineEnd (rest : List Char) : List Char → Prop
  | feed : LineEnd rest ['\n']
  | both : LineEnd rest ['\r', '\n']
  | alone (h : rest.head? ≠ some '\n') : LineEnd rest ['\r']

/-- The lines of a text, each with its ending. Only the last of them can be without one. -/
inductive SplitsInto : List Char → List (List Char) → Prop
  | nil : SplitsInto [] []
  | last {s : List Char} (hs : s ≠ []) (hclean : ∀ c ∈ s, c ≠ '\n' ∧ c ≠ '\r') : SplitsInto s [s]
  | line {s stop rest : List Char} {ls : List (List Char)} (hclean : ∀ c ∈ s, c ≠ '\n' ∧ c ≠ '\r')
      (hstop : LineEnd rest stop) (hrest : SplitsInto rest ls) :
      SplitsInto (s ++ stop ++ rest) ((s ++ stop) :: ls)

theorem SplitsInto.consFirst {c : Char} {s : List Char} {ls : List (List Char)}
    (h : SplitsInto s ls) (hc : c ≠ '\n' ∧ c ≠ '\r') :
    SplitsInto (c :: s) (Text.consFirst c ls) := by
  cases h with
  | nil => exact .last (List.cons_ne_nil c []) (by simpa using hc)
  | last hs hclean => exact .last (List.cons_ne_nil c s) (List.forall_mem_cons.2 ⟨hc, hclean⟩)
  | line hclean hstop hrest => exact .line (List.forall_mem_cons.2 ⟨hc, hclean⟩) hstop hrest

theorem splitsInto_linesWithEnds (s : List Char) : SplitsInto s (linesWithEnds s) := by
  fun_induction linesWithEnds s with
  | case1 => exact .nil
  | case2 r ih => exact .line (s := []) (by simp) .both ih
  | case3 c r hnext hc ih =>
    rcases hc with rfl | rfl
    · exact .line (s := []) (by simp) .feed ih
    · refine .line (s := []) (by simp) (.alone fun hr => ?_) ih
      obtain ⟨r', rfl⟩ := List.head?_eq_some_iff.1 hr
      exact hnext r' rfl rfl
  | case4 c r _ hc ih => exact ih.consFirst (not_or.1 hc)

end OpStubs.Text
