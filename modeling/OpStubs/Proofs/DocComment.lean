import OpStubs.Proofs.StubSafe

namespace OpStubs

open Lua (IsClean)

namespace Text

theorem trimEnd_dropReturn (s : List Char) : trimEnd (dropReturn s) = trimEnd s := by
  unfold dropReturn
  split
  · rename_i h
    obtain ⟨r, rfl⟩ := List.getLast?_eq_some_iff.1 h
    rw [List.dropLast_concat, trimEnd_append, if_pos (by decide)]
  · rfl

theorem trimEnd_of_mem_linesOfPieces {ps : List (List Char)} {l : List Char}
    (h : l ∈ linesOfPieces ps) : ∃ p ∈ ps, trimEnd l = trimEnd p := by
  fun_induction linesOfPieces ps with
  | case1 => cases h
  | case2 => cases h
  | case3 p => exact ⟨p, List.mem_singleton_self p, by rw [List.mem_singleton.1 h]⟩
  | case4 p ps _ ih =>
    rcases List.mem_cons.1 h with rfl | h
    · exact ⟨p, List.mem_cons_self, trimEnd_dropReturn p⟩
    · obtain ⟨q, hq, heq⟩ := ih h
      exact ⟨q, List.mem_cons_of_mem p hq, heq⟩

/-- A text without line ends and a line feed are one line. -/
theorem linesWithEnds_append {s : List Char} (h : IsClean s) (r : List Char) :
    linesWithEnds (s ++ '\n' :: r) = (s ++ ['\n']) :: linesWithEnds r := by
  induction s with
  | nil => simp [linesWithEnds]
  | cons c s ih =>
    obtain ⟨hc, hs⟩ := List.forall_mem_cons.1 h
    simp only [Lua.Token.endsLine, Bool.or_eq_false_iff, beq_eq_false_iff_ne] at hc
    rw [List.cons_append, linesWithEnds.eq_def]
    split
    · rename_i heq
      cases heq
    · rename_i heq
      exact absurd (List.cons.inj heq).1 hc.2
    · rename_i heq
      cases heq
      rw [if_neg (not_or.2 hc), ih hs]
      rfl

end Text

namespace Documentation

/-- Whether a line has no line feed, and a carriage return only among the blanks at its end. -/
def EndsClean (l : List Char) : Prop := '\n' ∉ l ∧ IsClean (Text.trimEnd l)

theorem trims_endsClean : Trims EndsClean where
  trim l h := by
    have hsub := Text.trim_subset_trimEnd l
    refine ⟨fun hl => h.1 (Text.trim_subset l hl), h.2.subset fun c hc => ?_⟩
    exact hsub (Text.trimEnd_subset _ hc)
  isClean l h := h.2.subset (Text.trim_subset_trimEnd l)

theorem endsClean_of_mem_pieces {s p : List Char} (h : p ∈ Text.pieces '\n' s)
    (hp : '\r' ∉ Text.trimEnd p) : EndsClean p := by
  have hfeed : '\n' ∉ p := fun hc => (Text.mem_pieces h _ hc).2 rfl
  refine ⟨hfeed, ?_⟩
  intro c hc
  have hn : c ≠ '\n' := ne_of_mem_of_not_mem (Text.trimEnd_subset p hc) hfeed
  have hr : c ≠ '\r' := ne_of_mem_of_not_mem hc hp
  simp [Lua.Token.endsLine, hn, hr]

theorem Draft.Clean.isClean_bodyLines {d : Draft} (h : d.Clean EndsClean) :
    ∀ l ∈ Stub.bodyLines d.finish.body, IsClean l := by
  intro l hl
  obtain ⟨line, hline, rfl⟩ := Stub.exists_of_mem_bodyLines hl
  obtain ⟨p, hp, heq⟩ := Text.trimEnd_of_mem_linesOfPieces hline
  rw [Draft.finish, String.toList_ofList] at hp
  rw [heq]
  rcases Text.mem_of_mem_pieces_joinWith (fun l hl => (h.body l hl).1) hp with hp | rfl
  · exact (h.body p hp).2
  · intro c hc
    cases hc

/-- Each text that is documented is one line, if carriage returns only end lines. -/
theorem isClean_ofText {text : Option String}
    (ht : ∀ s ∈ text, ∀ p ∈ Text.pieces '\n' s.toList, '\r' ∉ Text.trimEnd p) :
    (∀ l ∈ Stub.bodyLines (ofText? text).body, IsClean l) ∧
    (∀ name s, (ofText? text).arg name = some s → Lua.IsLine s) ∧
    Lua.IsLine (ofText? text).returns := by
  cases text with
  | none =>
    have hlines : (ofText? none).HasLines := hasLines_ofText (by simp)
    exact ⟨Stub.isClean_bodyLines hlines.body, hlines.arg, hlines.returns⟩
  | some s =>
    have hpieces : ∀ p ∈ Text.pieces '\n' s.toList, EndsClean p :=
      fun p hp => endsClean_of_mem_pieces hp (ht s rfl p hp)
    have hclean := (Draft.clean_nil EndsClean).foldl trims_endsClean hpieces
    exact ⟨hclean.isClean_bodyLines, fun _ _ => hclean.arg_finish, isLine_joinWith hclean.returns⟩

end Documentation

namespace Stub

open Lua

theorem linesWithEnds_printDoc {doc : List DocLine} (h : ∀ l ∈ doc, l.Safe) :
    Text.linesWithEnds (printDoc doc).toList = doc.map fun l => l.print.toList ++ ['\n'] := by
  induction doc with
  | nil => rfl
  | cons l doc ih =>
    obtain ⟨hl, hdoc⟩ := List.forall_mem_cons.1 h
    obtain ⟨text, hprint, htext⟩ := DocLine.print_eq hl
    have hclean : IsClean l.print.toList := by
      rw [hprint]
      exact isLine_append (by decide) htext
    have hlist : (printDoc (l :: doc)).toList = l.print.toList ++ '\n' :: (printDoc doc).toList := by
      simp [printDoc]
    rw [hlist, Text.linesWithEnds_append hclean, ih hdoc, List.map_cons]

theorem safe_docLines_of_compile {op : OpDef} {text : Option String} {compiled : Operation}
    (hn : IsNamed op) (h : Operation.compile op (.ofText? text) = .ok compiled)
    (ht : ∀ s ∈ text, ∀ p ∈ Text.pieces '\n' s.toList, '\r' ∉ Text.trimEnd p) :
    ∀ l ∈ docLines compiled, l.Safe := by
  have hc := Operation.compile_ok h
  obtain ⟨hbody, harg, hreturns⟩ := Documentation.isClean_ofText ht
  rw [← hc.doc] at hbody harg hreturns
  exact safe_docLines_of_clean (isName_input_of_compiles hn hc) (isPlain_attrs_of_compiles hn hc)
    hbody harg hreturns

theorem getLast?_printDoc_docLines {op : Operation} (h : ∀ l ∈ docLines op, l.Safe) :
    (printDoc (docLines op)).toList.getLast? = some '\n' := by
  rw [← Text.flatten_linesWithEnds (printDoc (docLines op)).toList, linesWithEnds_printDoc h]
  simp [docLines]

theorem print_function (op : Operation) :
    (function op).print = printDoc (docLines op) ++ ("function M." ++ op.function ++ "(" ++
      separated ", " op.params ++ ")\n" ++ Stmt.printBlock 1 (body op) ++ "end\n") := by
  rw [← String.toList_inj]
  simp [Function.print, function, table]

/-- Each line above a function is a comment, if carriage returns stand only at the ends of the lines
of the text that documents it. -/
theorem lines_of_comment {op : OpDef} {text : Option String} {compiled : Operation}
    (hn : IsNamed op) (h : Operation.compile op (.ofText? text) = .ok compiled)
    (ht : ∀ s ∈ text, ∀ p ∈ Text.pieces '\n' s.toList, '\r' ∉ Text.trimEnd p) :
    (function compiled).print =
        printDoc (docLines compiled) ++ ("function M." ++ compiled.function ++ "(" ++
          separated ", " compiled.params ++ ")\n" ++ Stmt.printBlock 1 (body compiled) ++ "end\n") ∧
      (printDoc (docLines compiled)).toList.getLast? = some '\n' ∧
      ∀ l ∈ Text.linesWithEnds (printDoc (docLines compiled)).toList, "---".toList <+: l := by
  have hsafe := safe_docLines_of_compile hn h ht
  refine ⟨print_function compiled, getLast?_printDoc_docLines hsafe, ?_⟩
  intro l hl
  rw [linesWithEnds_printDoc hsafe] at hl
  obtain ⟨d, hd, rfl⟩ := List.mem_map.1 hl
  obtain ⟨rest, hprint, -⟩ := DocLine.print_eq (hsafe d hd)
  rw [hprint, String.toList_append, List.append_assoc]
  exact List.prefix_append _ _

theorem isNamed_noOp : IsNamed noOp := ⟨by decide, by simp [noOp], by simp [noOp]⟩

theorem lines_of_comment_noOp :
    (∀ p ∈ Text.pieces '\n' "Does\r\nnothing. \r".toList, '\r' ∉ Text.trimEnd p) ∧
    ∃ compiled, Operation.compile noOp (.ofText? (some "Does\r\nnothing. \r")) = .ok compiled ∧
      ∀ l ∈ Text.linesWithEnds (printDoc (docLines compiled)).toList, "---".toList <+: l := by
  have hends : ∀ p ∈ Text.pieces '\n' "Does\r\nnothing. \r".toList, '\r' ∉ Text.trimEnd p := by
    decide
  refine ⟨hends, _, rfl, (lines_of_comment isNamed_noOp rfl ?_).2.2⟩
  intro s hs
  obtain rfl := Option.mem_some_iff.1 hs
  exact hends

/-- A carriage return inside a line begins one that is no comment. -/
theorem exists_line_not_comment :
    IsNamed noOp ∧ ∃ compiled,
      Operation.compile noOp (.ofText? (some "a\rb")) = .ok compiled ∧
      (printDoc (docLines compiled)).toList = "--- a\rb\n---@return nil\n".toList ∧
      ∃ l ∈ Text.linesWithEnds (printDoc (docLines compiled)).toList, ¬ "---".toList <+: l :=
  ⟨isNamed_noOp, _, rfl, by decide, ['b', '\n'], by decide, by decide⟩

end Stub

end OpStubs
