import Mathlib.Data.List.TakeWhile
import Mathlib.Logic.Relation
import OpStubs.Operation.Compile
import OpStubs.Proofs.DocComment
import OpStubs.Proofs.DocLayout

namespace OpStubs

namespace Text

/-- Whether a text is blanks on one line. -/
def IsBlankLine (l : List Char) : Prop := ∀ c ∈ l, isBlank c = true ∧ c ≠ '\n'

/-- The text with a carriage return before each line feed. -/
def withReturns (s : List Char) : List Char :=
  s.flatMap fun c => if c = '\n' then ['\r', '\n'] else [c]

/-- A change of blanks that stand at the end of a line or make a line before or behind the text. -/
inductive Relaid : List Char → List Char → Prop
  | returns (s : List Char) : Relaid s (withReturns s)
  | lineEnd (s : List Char) {blanks rest : List Char} (hblanks : IsBlankLine blanks)
    (hrest : ∀ c ∈ rest.head?, c = '\n') : Relaid (s ++ rest) (s ++ blanks ++ rest)
  | before (s : List Char) {blanks : List Char} (hblanks : IsBlankLine blanks) :
    Relaid s (blanks ++ '\n' :: s)
  | behind (s : List Char) {blanks : List Char} (hblanks : IsBlankLine blanks) :
    Relaid s (s ++ '\n' :: blanks)

/-- Whether two lines differ at most in the blanks they end with. -/
def SameLine (l l' : List Char) : Prop := trimEnd l = trimEnd l'

theorem trimEnd_of_blanks {w : List Char} (h : ∀ c ∈ w, isBlank c = true) : trimEnd w = [] := by
  rw [trimEnd, List.reverse_eq_nil_iff, List.dropWhile_eq_nil_iff]
  exact fun c hc => h c (List.mem_reverse.1 hc)

theorem IsBlankLine.trimEnd_eq {l : List Char} (h : IsBlankLine l) : trimEnd l = [] :=
  trimEnd_of_blanks fun c hc => (h c hc).1

theorem IsBlankLine.trim_eq {l : List Char} (h : IsBlankLine l) : trim l = [] := by
  have hsub := trim_subset_trimEnd l
  rw [h.trimEnd_eq] at hsub
  exact List.subset_nil.1 hsub

theorem IsBlankLine.pieces_eq {l : List Char} (h : IsBlankLine l) : pieces '\n' l = [l] :=
  pieces_of_not_mem fun c hc => (h c hc).2

/-- A text is itself without the blanks at its end, and those blanks. -/
theorem exists_append_blanks (s : List Char) :
    ∃ w, (∀ c ∈ w, isBlank c = true) ∧ s = trimEnd s ++ w := by
  refine ⟨(s.reverse.takeWhile isBlank).reverse, fun c hc => ?_, ?_⟩
  · exact List.mem_takeWhile_imp (List.mem_reverse.1 hc)
  · rw [trimEnd, ← List.reverse_append, List.takeWhile_append_dropWhile, List.reverse_reverse]

theorem trim_append_blanks (s : List Char) {w : List Char} (hw : ∀ c ∈ w, isBlank c = true) :
    trim (s ++ w) = trim s := by
  have hnone : w.dropWhile isBlank = [] := List.dropWhile_eq_nil_iff.2 hw
  rw [trim, trim, trimStart, trimStart, List.dropWhile_append]
  split
  · rename_i hs
    rw [hnone, List.isEmpty_iff.1 hs]
  · rw [trimEnd_append, if_pos (trimEnd_of_blanks hw)]

/-- The indentation of a line that is not blank ends inside it. -/
theorem indent_append {s : List Char} (hs : trim s ≠ []) (t : List Char) :
    indent (s ++ t) = indent s := by
  have hparts : s.takeWhile isBlank ++ s.dropWhile isBlank = s := List.takeWhile_append_dropWhile
  have hstops := stops_dropWhile s
  cases htext : s.dropWhile isBlank with
  | nil =>
    rw [trim, trimStart, htext] at hs
    exact absurd rfl hs
  | cons c r =>
    rw [htext, stops_cons] at hstops
    rw [htext] at hparts
    have hwhole : (s ++ t).takeWhile isBlank = s.takeWhile isBlank := by
      conv_lhs => rw [← hparts, List.append_assoc]
      exact takeWhile_append_of_stops (fun c hc => List.mem_takeWhile_imp hc) (stops_cons.2 hstops)
    rw [indent, hwhole, indent]

theorem trim_trimEnd (s : List Char) : trim (trimEnd s) = trim s := by
  obtain ⟨w, hw, hs⟩ := exists_append_blanks s
  conv_rhs => rw [hs, trim_append_blanks _ hw]

theorem indent_trimEnd {s : List Char} (h : trim s ≠ []) : indent (trimEnd s) = indent s := by
  obtain ⟨w, -, hs⟩ := exists_append_blanks s
  conv_rhs => rw [hs, indent_append (by rwa [trim_trimEnd])]

namespace SameLine

variable {l l' : List Char}

theorem trim_eq (h : SameLine l l') : trim l = trim l' := by
  rw [← trim_trimEnd l, h, trim_trimEnd]

theorem indent_eq (h : SameLine l l') (hl : trim l ≠ []) : indent l = indent l' := by
  have hl' : trim l' ≠ [] := by rwa [← h.trim_eq]
  rw [← indent_trimEnd hl, h, indent_trimEnd hl']

theorem cons (c : Char) (h : SameLine l l') : SameLine (c :: l) (c :: l') := by
  have happend := trimEnd_append [c]
  have h' : trimEnd l = trimEnd l' := h
  change trimEnd ([c] ++ l) = trimEnd ([c] ++ l')
  rw [happend, happend, h']

end SameLine

/-- Whether two texts have the same lines but for the blanks at their ends. -/
abbrev SameLines : List (List Char) → List (List Char) → Prop := List.Forall₂ SameLine

theorem sameLines_refl (ls : List (List Char)) : SameLines ls ls :=
  List.forall₂_same.2 fun _ _ => rfl

theorem SameLines.consFirst {ls ls' : List (List Char)} (c : Char) (h : SameLines ls ls') :
    SameLines (consFirst c ls) (consFirst c ls') := by
  cases h with
  | nil => exact sameLines_refl [[c]]
  | cons hl hls => exact .cons (hl.cons c) hls

theorem sameLines_withReturns (s : List Char) :
    SameLines (pieces '\n' s) (pieces '\n' (withReturns s)) := by
  induction s with
  | nil => exact sameLines_refl [[]]
  | cons c s ih =>
    by_cases hc : c = '\n'
    · have htext : withReturns (c :: s) = '\r' :: '\n' :: withReturns s := by
        rw [withReturns, List.flatMap_cons, if_pos hc]
        rfl
      rw [htext, pieces, if_pos hc, pieces, if_neg (by decide), pieces, if_pos rfl]
      exact .cons (show trimEnd [] = trimEnd ['\r'] by decide) ih
    · have htext : withReturns (c :: s) = c :: withReturns s := by
        rw [withReturns, List.flatMap_cons, if_neg hc]
        rfl
      rw [htext, pieces, if_neg hc, pieces, if_neg hc]
      exact ih.consFirst c

theorem sameLines_append_blanks (s : List Char) {blanks : List Char} (h : IsBlankLine blanks) :
    SameLines (pieces '\n' s) (pieces '\n' (s ++ blanks)) := by
  induction s with
  | nil =>
    rw [List.nil_append, h.pieces_eq]
    exact .cons h.trimEnd_eq.symm .nil
  | cons c s ih =>
    rw [List.cons_append, pieces, pieces]
    split
    · exact .cons rfl ih
    · exact ih.consFirst c

theorem sameLines_lineEnd (s : List Char) {blanks rest : List Char} (h : IsBlankLine blanks)
    (hrest : ∀ c ∈ rest.head?, c = '\n') :
    SameLines (pieces '\n' (s ++ rest)) (pieces '\n' (s ++ blanks ++ rest)) := by
  have hline := sameLines_append_blanks s h
  cases rest with
  | nil => rwa [List.append_nil, List.append_nil]
  | cons c r =>
    obtain rfl := hrest c rfl
    rw [pieces_append_cons, pieces_append_cons]
    exact List.rel_append hline (sameLines_refl _)

end Text

namespace Stub

/-- The lines between the first and the last that have text. -/
def betweenEdges (ls : List (List Char)) : List (List Char) :=
  ((ls.dropWhile (· = [])).reverse.dropWhile (· = [])).reverse

theorem betweenEdges_concat_nil (ls : List (List Char)) :
    betweenEdges (ls ++ [[]]) = betweenEdges ls := by
  rw [betweenEdges, betweenEdges, List.dropWhile_append]
  split
  · rename_i h
    rw [List.isEmpty_iff.1 h]
    rfl
  · rw [List.reverse_append, List.reverse_singleton, List.singleton_append, List.dropWhile_cons]
    rfl

/-- At most an empty line at the end is left out of the lines. -/
theorem betweenEdges_linesOfPieces (ps : List (List Char)) :
    betweenEdges ((Text.linesOfPieces ps).map Text.trimEnd) =
      betweenEdges (ps.map Text.trimEnd) := by
  have hlines : (Text.linesOfPieces ps).map Text.trimEnd = ps.map Text.trimEnd ∨
      (Text.linesOfPieces ps).map Text.trimEnd ++ [[]] = ps.map Text.trimEnd := by
    fun_induction Text.linesOfPieces ps with
    | case1 => exact .inl rfl
    | case2 => exact .inr rfl
    | case3 => exact .inl rfl
    | case4 p ps _ ih =>
      rw [List.map_cons, List.map_cons, Text.trimEnd_dropReturn]
      exact ih.imp (congrArg (Text.trimEnd p :: ·)) (congrArg (Text.trimEnd p :: ·))
  rcases hlines with h | h
  · rw [h]
  · rw [← h, betweenEdges_concat_nil]

theorem bodyLines_joinWith {ls : List (List Char)} (h : ∀ l ∈ ls, '\n' ∉ l) :
    bodyLines (String.ofList (Text.joinWith ['\n'] ls)) = betweenEdges (ls.map Text.trimEnd) := by
  by_cases hne : ls = []
  · subst hne
    rfl
  · have hlines := betweenEdges_linesOfPieces (Text.pieces '\n' (Text.joinWith ['\n'] ls))
    rw [bodyLines, String.toList_ofList, Text.lines]
    rwa [Text.pieces_joinWith hne h] at hlines ⊢

end Stub

namespace Documentation

theorem marker?_of_blank {l : List Char} (h : Text.trim l = []) : marker? l = none :=
  marker?_eq_none (h ▸ not_isMarker_nil)

theorem entry?_of_blank {l : List Char} (h : Text.trim l = []) : entry? l = none := by
  unfold entry?
  rw [h]
  exact ite_self none

theorem marker?_congr {l l' : List Char} (h : Text.SameLine l l') : marker? l = marker? l' := by
  by_cases hl : Text.trim l = []
  · rw [marker?_of_blank hl, marker?_of_blank (h.trim_eq ▸ hl)]
  · unfold marker?
    rw [h.trim_eq, h.indent_eq hl]

theorem entry?_congr {l l' : List Char} (h : Text.SameLine l l') : entry? l = entry? l' := by
  by_cases hl : Text.trim l = []
  · rw [entry?_of_blank hl, entry?_of_blank (h.trim_eq ▸ hl)]
  · unfold entry?
    rw [h.trim_eq, h.indent_eq hl]

/-- Whether two documentations annotate a function in the same way. -/
structure Alike (d d' : Documentation) : Prop where
  body : Stub.bodyLines d.body = Stub.bodyLines d'.body
  args : d.args = d'.args
  returns : d.returns = d'.returns

namespace Draft

/-- Lines of a body from the first with text on, without the blanks at their ends. -/
def shown (body : List (List Char)) : List (List Char) :=
  (body.map Text.trimEnd).dropWhile (· = [])

theorem shown_concat {body body' : List (List Char)} {l l' : List Char}
    (h : shown body = shown body') (hl : Text.SameLine l l') :
    shown (body ++ [l]) = shown (body' ++ [l']) := by
  unfold shown at *
  have hlast : Text.trimEnd l = Text.trimEnd l' := hl
  rw [List.map_append, List.map_append, List.dropWhile_append, List.dropWhile_append, h,
    List.map_singleton, List.map_singleton, hlast]

/-- Whether two drafts differ at most in blank lines before their bodies and at the ends of the
bodies' lines. -/
structure Alike (d d' : Draft) : Prop where
  part : d.part = d'.part
  body : shown d.body = shown d'.body
  entries : d.entries = d'.entries
  returns : d.returns = d'.returns

namespace Alike

variable {d d' : Draft} {l l' : List Char}

theorem addToArgs (h : d.Alike d') (hl : Text.SameLine l l') :
    (d.addToArgs l).Alike (d'.addToArgs l') := by
  unfold Draft.addToArgs
  rw [entry?_congr hl, h.entries, hl.trim_eq]
  split
  · exact ⟨h.part, h.body, rfl, h.returns⟩
  · split
    · exact ⟨h.part, shown_concat h.body rfl, rfl, h.returns⟩
    · exact ⟨h.part, h.body, rfl, h.returns⟩

theorem add (h : d.Alike d') (hl : Text.SameLine l l') : (d.add l).Alike (d'.add l') := by
  unfold Draft.add Draft.addLine
  rw [marker?_congr hl, h.part, hl.trim_eq]
  split
  · exact ⟨rfl, h.body, h.entries, h.returns⟩
  · split
    · exact ⟨rfl, shown_concat h.body hl, h.entries, h.returns⟩
    · split
      · exact h
      · exact h.addToArgs hl
    · split
      · exact h
      · exact ⟨rfl, h.body, h.entries, by rw [h.returns]⟩

theorem foldl (h : d.Alike d') {ls ls' : List (List Char)} (hls : Text.SameLines ls ls') :
    (ls.foldl Draft.add d).Alike (ls'.foldl Draft.add d') := by
  induction hls generalizing d d' with
  | nil => exact h
  | cons hl _ ih => exact ih (h.add hl)

theorem finish (h : d.Alike d') (hd : ∀ l ∈ d.body, '\n' ∉ l)
    (hd' : ∀ l ∈ d'.body, '\n' ∉ l) :
    Documentation.Alike d.finish d'.finish where
  body := by
    rw [Draft.finish, Draft.finish, Stub.bodyLines_joinWith hd, Stub.bodyLines_joinWith hd']
    exact congrArg (fun ls => (ls.reverse.dropWhile (· = [])).reverse) h.body
  args := by rw [Draft.finish, Draft.finish, h.entries]
  returns := by rw [Draft.finish, Draft.finish, h.returns]

end Alike

theorem alike_refl (d : Draft) : d.Alike d := ⟨rfl, rfl, rfl, rfl⟩

/-- A blank line is a line of the body, or nothing. -/
theorem add_blankLine (d : Draft) {l : List Char} (h : Text.IsBlankLine l) :
    d.add l = { d with body := d.body ++ [l] } ∨ d.add l = d := by
  by_cases hd : d.part = .body
  · left
    rw [add_of_no_marker (marker?_of_blank h.trim_eq), Draft.addLine, hd]
  · exact .inr (add_blank hd h.trim_eq)

/-- What is read of a whole text. -/
def ofText (s : List Char) : Draft := (Text.pieces '\n' s).foldl Draft.add {}

theorem not_mem_body_ofText (s : List Char) : ∀ l ∈ (ofText s).body, '\n' ∉ l := by
  have hfeed : ∀ l ∈ Text.pieces '\n' s, '\n' ∉ l :=
    fun l hl hc => (Text.mem_pieces hl _ hc).2 rfl
  obtain ⟨_, hkeeps⟩ := keeps_nil.foldl hfeed
  exact hkeeps.noFeed

theorem alike_of_sameLines {s t : List Char}
    (h : Text.SameLines (Text.pieces '\n' s) (Text.pieces '\n' t)) : (ofText s).Alike (ofText t) :=
  (alike_refl {}).foldl h

theorem alike_before (s : List Char) {blanks : List Char} (h : Text.IsBlankLine blanks) :
    (ofText s).Alike (ofText (blanks ++ '\n' :: s)) := by
  have hblank : Alike {} (({} : Draft).add blanks) := by
    rcases add_blankLine {} h with hadd | hadd
    · rw [hadd]
      refine ⟨rfl, ?_, rfl, rfl⟩
      rw [List.nil_append, shown, shown, List.map_singleton, h.trimEnd_eq]
      rfl
    · rw [hadd]
      exact alike_refl {}
  rw [ofText, ofText, Text.pieces_append_cons, h.pieces_eq, List.singleton_append, List.foldl_cons]
  exact hblank.foldl (Text.sameLines_refl _)

/-- Behind the text a blank line may be the last line of the body. -/
theorem alike_behind (s : List Char) {blanks : List Char} (h : Text.IsBlankLine blanks) :
    Documentation.Alike (ofText s).finish (ofText (s ++ '\n' :: blanks)).finish := by
  have htext : ofText (s ++ '\n' :: blanks) = (ofText s).add blanks := by
    rw [ofText, Text.pieces_append_cons, h.pieces_eq, List.foldl_append]
    rfl
  have hfeed := not_mem_body_ofText s
  rw [htext]
  rcases add_blankLine (ofText s) h with hadd | hadd
  · rw [hadd]
    refine ⟨?_, rfl, rfl⟩
    have hlast : ∀ l ∈ (ofText s).body ++ [blanks], '\n' ∉ l := by
      refine List.forall_mem_append.2 ⟨hfeed, List.forall_mem_singleton.2 fun hc => ?_⟩
      exact (h _ hc).2 rfl
    rw [finish, finish, Stub.bodyLines_joinWith hfeed, Stub.bodyLines_joinWith hlast, List.map_append,
      List.map_singleton, h.trimEnd_eq, Stub.betweenEdges_concat_nil]
  · rw [hadd]
    exact ⟨rfl, rfl, rfl⟩

end Draft

namespace Alike

theorem trans {d d' d'' : Documentation} (h : d.Alike d') (h' : d'.Alike d'') : d.Alike d'' :=
  ⟨h.body.trans h'.body, h.args.trans h'.args, h.returns.trans h'.returns⟩

theorem of_draft {s t : List Char} (h : (Draft.ofText s).Alike (Draft.ofText t)) :
    Alike (Draft.ofText s).finish (Draft.ofText t).finish :=
  h.finish (Draft.not_mem_body_ofText s) (Draft.not_mem_body_ofText t)

/-- One change of blanks. -/
theorem of_relaid {s t : List Char} (h : Text.Relaid s t) :
    Alike (Draft.ofText s).finish (Draft.ofText t).finish := by
  cases h with
  | returns => exact of_draft (Draft.alike_of_sameLines (Text.sameLines_withReturns s))
  | lineEnd s hblanks hrest =>
    exact of_draft (Draft.alike_of_sameLines (Text.sameLines_lineEnd s hblanks hrest))
  | before _ hblanks => exact of_draft (Draft.alike_before s hblanks)
  | behind _ hblanks => exact Draft.alike_behind s hblanks

/-- Changes of blanks one after the other. -/
theorem of_changes {s t : List Char} (h : Relation.ReflTransGen Text.Relaid s t) :
    Alike (Draft.ofText s).finish (Draft.ofText t).finish := by
  induction h with
  | refl => exact ⟨rfl, rfl, rfl⟩
  | tail _ hstep ih => exact ih.trans (of_relaid hstep)

end Alike

end Documentation

namespace Stub

/-- Of its documentation a function shows what two documentations of the same annotation share. -/
theorem function_congr (op : Operation) {d d' : Documentation} (h : d.Alike d') :
    function { op with doc := d } = function { op with doc := d' } := by
  have harg (name : String) : d.arg name = d'.arg name := by
    rw [Documentation.arg, Documentation.arg, h.args]
  have hlines : docLines { op with doc := d } = docLines { op with doc := d' } := by
    unfold docLines
    simp only [h.body, harg, h.returns]
    rfl
  rw [function, hlines]
  rfl

/-- A function and its annotation stay the same, character by character, where the text that
documents it gets line ends of two characters, blanks at the ends of lines, or blank lines around
it. -/
theorem print_of_relaid (op : OpDef) {s t : String}
    (h : Relation.ReflTransGen Text.Relaid s.toList t.toList) :
    (Operation.compile op (.ofText? (some t))).map (fun c => (function c).print) =
      (Operation.compile op (.ofText? (some s))).map fun c => (function c).print := by
  have hdoc : (Documentation.ofText? (some s)).Alike (.ofText? (some t)) :=
    Documentation.Alike.of_changes h
  unfold Operation.compile
  cases Operation.compileAttrs op with
  | error e => rfl
  | ok attrs =>
    refine congrArg (fun f => Except.ok (Lua.Function.print f)) ?_
    exact (function_congr ⟨op.name, _, _, _, {}, _⟩ hdoc).symm

def plainText : String := "A.\n\nB\nArgs:\n x: p\n  q\nReturns:\n r"

/-- The same text with other line ends, blanks and blank lines. -/
def blankText : String :=
  "\u3000\nA.\r\n\r\nB\r\nArgs:\r\u00A0\u2003\r\n x: p\r\n  q\r\nReturns:\r\n r\n\t\r\n"

theorem relaid_blankText :
    Relation.ReflTransGen Text.Relaid plainText.toList blankText.toList := by
  have hbefore : Text.IsBlankLine ['\u3000'] := by simp [Text.IsBlankLine, Text.isBlank]
  have hafter : Text.IsBlankLine ['\u00A0', '\u2003', '\r'] := by
    simp [Text.IsBlankLine, Text.isBlank]
  have hbehind : Text.IsBlankLine ['\t', '\r'] := by simp [Text.IsBlankLine, Text.isBlank]
  have hempty : Text.IsBlankLine [] := List.forall_mem_nil _
  have hreturns : Text.withReturns plainText.toList = "A.\r\n\r\nB\r\nArgs:\r".toList ++
    "\n x: p\r\n  q\r\nReturns:\r\n r".toList := by decide
  have hwhole : blankText.toList = ['\u3000'] ++ '\n' :: ("A.\r\n\r\nB\r\nArgs:\r".toList ++
    ['\u00A0', '\u2003', '\r'] ++ "\n x: p\r\n  q\r\nReturns:\r\n r".toList) ++
    '\n' :: ['\t', '\r'] ++ '\n' :: [] := by decide
  rw [hwhole]
  refine .head (.returns _) ?_
  rw [hreturns]
  refine .head (.lineEnd _ hafter (by simp)) ?_
  refine .head (.before _ hbefore) ?_
  refine .head (.behind _ hbehind) ?_
  exact .single (.behind _ hempty)

/-- An operation with an input that is documented. -/
def documentedInput : OpDef := { name := "A", inputs := [{ name := "x" }] }

theorem print_of_relaid_blankText :
    Relation.ReflTransGen Text.Relaid plainText.toList blankText.toList ∧
      (Operation.compile documentedInput (.ofText? (some blankText))).map
        (fun c => (function c).print) = .ok ("--- A.\n---\n--- B\n---@param x tfl.Tensor @p q\n" ++
          "---@return nil @ r\nfunction M.a(x)\n\tlocal op = get_context():newOp(\"A\")\n" ++
          "\top:addInput(x._handle or x)\n\top:execute()\nend\n") := by
  refine ⟨relaid_blankText, (print_of_relaid documentedInput relaid_blankText).trans ?_⟩
  rfl

end Stub

end OpStubs
