import OpStubs.Proofs.Lua.DefaultLiteral
import OpStubs.Proofs.Lua.PrintScan
import OpStubs.Proofs.TextParts

namespace OpStubs

namespace Text

/-- The lines, a line feed behind each. -/
def unlines (ls : List (List Char)) : List Char := ls.flatMap fun l => l ++ ['\n']

/-- The lines of a text that a line feed ends. -/
def ended (s : List Char) : List (List Char) := (pieces '\n' s).dropLast

/-- The text with `n` tabs in front of each line. -/
def indented (n : Nat) (s : List Char) : List Char :=
  unlines ((ended s).map fun l => List.replicate n '\t' ++ l)

theorem unlines_append (ls ls' : List (List Char)) :
    unlines (ls ++ ls') = unlines ls ++ unlines ls' := List.flatMap_append

/-- What stands behind some lines has pieces of its own. -/
theorem pieces_unlines_append {ls : List (List Char)} (h : ∀ l ∈ ls, '\n' ∉ l) (s : List Char) :
    pieces '\n' (unlines ls ++ s) = ls ++ pieces '\n' s := by
  induction ls with
  | nil => rfl
  | cons l ls ih =>
    obtain ⟨hl, hrest⟩ := List.forall_mem_cons.1 h
    have hone : pieces '\n' l = [l] := pieces_of_not_mem fun c hc => ne_of_mem_of_not_mem hc hl
    have hsplit : unlines (l :: ls) ++ s = l ++ '\n' :: (unlines ls ++ s) := by simp [unlines]
    rw [hsplit, pieces_append_cons, hone, ih hrest]
    rfl

theorem pieces_unlines {ls : List (List Char)} (h : ∀ l ∈ ls, '\n' ∉ l) :
    pieces '\n' (unlines ls) = ls ++ [[]] := by
  have hpieces := pieces_unlines_append h []
  rwa [List.append_nil] at hpieces

theorem ended_unlines {ls : List (List Char)} (h : ∀ l ∈ ls, '\n' ∉ l) :
    ended (unlines ls) = ls := by
  rw [ended, pieces_unlines h, List.dropLast_concat]

theorem notMem_indented {ls : List (List Char)} (h : ∀ l ∈ ls, '\n' ∉ l) (n : Nat) :
    ∀ l ∈ ls.map (fun l => List.replicate n '\t' ++ l), '\n' ∉ l := by
  intro line hline
  obtain ⟨l, hl, rfl⟩ := List.mem_map.1 hline
  simpa [List.mem_replicate] using h l hl

theorem indented_unlines {ls : List (List Char)} (h : ∀ l ∈ ls, '\n' ∉ l) (n : Nat) :
    indented n (unlines ls) = unlines (ls.map fun l => List.replicate n '\t' ++ l) := by
  rw [indented, ended_unlines h]

end Text

namespace Lua

/-- Whether a text has no line feed. -/
def Unbroken (s : String) : Prop := '\n' ∉ s.toList

instance (s : String) : Decidable (Unbroken s) := inferInstanceAs (Decidable (¬ _))

theorem Unbroken.append {s t : String} (hs : Unbroken s) (ht : Unbroken t) : Unbroken (s ++ t) := by
  rw [Unbroken, String.toList_append, List.mem_append]
  exact not_or.2 ⟨hs, ht⟩

theorem unbroken_of_isLine {s : String} (h : IsLine s) : Unbroken s := by
  intro hfeed
  exact absurd (h '\n' hfeed) (by decide)

theorem unbroken_separated {sep : String} (hsep : Unbroken sep) {ss : List String}
    (h : ∀ s ∈ ss, Unbroken s) : Unbroken (separated sep ss) := by
  fun_induction separated sep ss with
  | case1 => decide
  | case2 s => exact h s List.mem_cons_self
  | case3 s rest _ ih =>
    obtain ⟨hs, hrest⟩ := List.forall_mem_cons.1 h
    exact (hs.append hsep).append (ih hrest)

mutual

/-- Whether no name and no literal of an expression has a line feed. A string may have some, as it is
printed without them. -/
def Expr.IsUnbroken : Expr → Prop
  | .ident name => Unbroken name
  | .literal text => Unbroken text
  | .str _ => True
  | .emptyTable => True
  | .call callee args => callee.IsUnbroken ∧ Expr.AreUnbroken args
  | .method object name args => object.IsUnbroken ∧ Unbroken name ∧ Expr.AreUnbroken args
  | .member object field => object.IsUnbroken ∧ Unbroken field
  | .index object key => object.IsUnbroken ∧ key.IsUnbroken
  | .len value => value.IsUnbroken
  | .binary left _ right => left.IsUnbroken ∧ right.IsUnbroken

def Expr.AreUnbroken : List Expr → Prop
  | [] => True
  | e :: rest => e.IsUnbroken ∧ Expr.AreUnbroken rest

end

def Simple.IsUnbroken : Simple → Prop
  | declare name value => Unbroken name ∧ value.IsUnbroken
  | assign target value => target.IsUnbroken ∧ value.IsUnbroken
  | eval call => call.IsUnbroken
  | ret value => value.IsUnbroken

mutual

/-- Whether no name and no literal of a statement has a line feed. -/
def Stmt.IsUnbroken : Stmt → Prop
  | .simple s => s.IsUnbroken
  | .ifThen condition body => condition.IsUnbroken ∧ Stmt.AreUnbroken body
  | .count var first last body =>
    Unbroken var ∧ first.IsUnbroken ∧ last.IsUnbroken ∧ Stmt.AreUnbroken body

def Stmt.AreUnbroken : List Stmt → Prop
  | [] => True
  | s :: rest => s.IsUnbroken ∧ Stmt.AreUnbroken rest

end

theorem Stmt.areUnbroken_iff {ss : List Stmt} :
    Stmt.AreUnbroken ss ↔ ∀ s ∈ ss, s.IsUnbroken := by
  induction ss with
  | nil => exact iff_of_true trivial nofun
  | cons s rest ih => rw [Stmt.AreUnbroken, ih, List.forall_mem_cons]

mutual

theorem Expr.unbroken_print : (e : Expr) → e.IsUnbroken → Unbroken e.print
  | .ident _, h => h
  | .literal _, h => h
  | .str value, _ => unbroken_of_isLine (Literal.isLine_quote value)
  | .emptyTable, _ => by decide
  | .call callee args, ⟨hcallee, hargs⟩ => by
    have hlist := unbroken_separated (by decide : Unbroken ", ") (Expr.unbroken_printAll args hargs)
    rw [Expr.print]
    exact (((callee.unbroken_print hcallee).append (by decide)).append hlist).append (by decide)
  | .method object name args, ⟨hobject, hname, hargs⟩ => by
    have hlist := unbroken_separated (by decide : Unbroken ", ") (Expr.unbroken_printAll args hargs)
    have hpath := ((object.unbroken_print hobject).append (t := ":") (by decide)).append hname
    rw [Expr.print]
    exact ((hpath.append (by decide)).append hlist).append (by decide)
  | .member object _, ⟨hobject, hfield⟩ => by
    rw [Expr.print]
    exact ((object.unbroken_print hobject).append (by decide)).append hfield
  | .index object key, ⟨hobject, hkey⟩ => by
    have hopen := (object.unbroken_print hobject).append (t := "[") (by decide)
    rw [Expr.print]
    exact (hopen.append (key.unbroken_print hkey)).append (by decide)
  | .len value, h => by
    rw [Expr.print]
    exact Unbroken.append (by decide) (value.unbroken_print h)
  | .binary left op right, ⟨hleft, hright⟩ => by
    have hop : Unbroken op.print := by cases op <;> decide
    have hfront := ((left.unbroken_print hleft).append (t := " ") (by decide)).append hop
    rw [Expr.print]
    exact (hfront.append (by decide)).append (right.unbroken_print hright)

theorem Expr.unbroken_printAll : (es : List Expr) → Expr.AreUnbroken es →
    ∀ s ∈ Expr.printAll es, Unbroken s
  | [], _ => nofun
  | e :: rest, ⟨he, hrest⟩ =>
    List.forall_mem_cons.2 ⟨e.unbroken_print he, Expr.unbroken_printAll rest hrest⟩

end

theorem Simple.unbroken_print {s : Simple} (h : s.IsUnbroken) : Unbroken s.print := by
  cases s with
  | declare name value =>
    obtain ⟨hname, hvalue⟩ := h
    have hfront := (Unbroken.append (s := "local ") (by decide) hname).append (t := " = ") (by decide)
    exact hfront.append (value.unbroken_print hvalue)
  | assign target value =>
    obtain ⟨htarget, hvalue⟩ := h
    exact ((target.unbroken_print htarget).append (by decide)).append (value.unbroken_print hvalue)
  | eval call => exact call.unbroken_print h
  | ret value => exact Unbroken.append (by decide) (value.unbroken_print h)

/-- Whether a text that depends on a depth of indentation has the same lines at each depth but for the
tabs in front of them. -/
def Indents (text : Nat → String) : Prop :=
  ∃ ls : List (List Char), (∀ l ∈ ls, '\n' ∉ l) ∧
    ∀ n, (text n).toList = Text.unlines (ls.map fun l => List.replicate n '\t' ++ l)

namespace Indents

theorem nil : Indents fun _ => "" := ⟨[], nofun, fun _ => rfl⟩

theorem line {text : String} (h : Unbroken text) : Indents fun n => Lua.line n text := by
  refine ⟨[text.toList], List.forall_mem_singleton.2 h, ?_⟩
  intro n
  simp [Lua.line, tabs, Text.unlines]

theorem append {f g : Nat → String} (hf : Indents f) (hg : Indents g) :
    Indents fun n => f n ++ g n := by
  obtain ⟨ls, hls, hf⟩ := hf
  obtain ⟨ls', hls', hg⟩ := hg
  refine ⟨ls ++ ls', List.forall_mem_append.2 ⟨hls, hls'⟩, ?_⟩
  intro n
  rw [String.toList_append, hf, hg, List.map_append, Text.unlines_append]

/-- A block one level deeper has one tab more in front of each line. -/
theorem deeper {f : Nat → String} (h : Indents f) : Indents fun n => f (n + 1) := by
  obtain ⟨ls, hls, hf⟩ := h
  refine ⟨ls.map ('\t' :: ·), ?_, ?_⟩
  · intro deep hdeep
    obtain ⟨l, hl, rfl⟩ := List.mem_map.1 hdeep
    simpa using hls l hl
  · intro n
    have htab (l : List Char) :
        List.replicate (n + 1) '\t' ++ l = List.replicate n '\t' ++ '\t' :: l := by
      rw [List.replicate_succ', List.append_assoc]
      rfl
    simp only [hf, List.map_map, Function.comp_def, htab]

section
variable {f : Nat → String} (h : Indents f) (n : Nat)
include h

theorem toList_eq : (f n).toList = Text.indented n (f 0).toList := by
  obtain ⟨ls, hls, hf⟩ := h
  have hzero : (f 0).toList = Text.unlines ls := by simpa using hf 0
  rw [hzero, Text.indented_unlines hls, hf]

theorem ended_eq : Text.ended (f n).toList =
    (Text.ended (f 0).toList).map fun l => List.replicate n '\t' ++ l := by
  obtain ⟨ls, hls, hf⟩ := h
  have hzero : (f 0).toList = Text.unlines ls := by simpa using hf 0
  rw [hf, hzero, Text.ended_unlines hls, Text.ended_unlines (Text.notMem_indented hls n)]

/-- The lines in front of another text. -/
theorem ended_append (s : List Char) :
    Text.ended ((f n).toList ++ s) = Text.ended (f n).toList ++ Text.ended s := by
  obtain ⟨ls, hls, hf⟩ := h
  have hn := Text.notMem_indented hls n
  rw [hf, Text.ended_unlines hn, Text.ended, Text.pieces_unlines_append hn, Text.ended,
    List.dropLast_append_of_ne_nil (Text.pieces_ne_nil _ _)]

end

end Indents

theorem unbroken_ifThen {condition : Expr} (h : condition.IsUnbroken) :
    Unbroken ("if " ++ condition.print ++ " then") :=
  (Unbroken.append (by decide) (condition.unbroken_print h)).append (by decide)

theorem unbroken_count {var : String} {first last : Expr} (hvar : Unbroken var)
    (hfirst : first.IsUnbroken) (hlast : last.IsUnbroken) :
    Unbroken ("for " ++ var ++ " = " ++ first.print ++ ", " ++ last.print ++ " do") := by
  have hfront := (Unbroken.append (s := "for ") (by decide) hvar).append (t := " = ") (by decide)
  have hrange := (hfront.append (first.unbroken_print hfirst)).append (t := ", ") (by decide)
  exact (hrange.append (last.unbroken_print hlast)).append (by decide)

mutual

theorem Stmt.indents_print : (s : Stmt) → s.IsUnbroken → Indents fun n => s.print n
  | .simple s, h => .line (Simple.unbroken_print h)
  | .ifThen condition body, ⟨hcondition, hbody⟩ => by
    have hopening := unbroken_ifThen hcondition
    cases hinline : inlineBody? body with
    | some s =>
      obtain rfl := inlineBody_cases hinline
      have hs : Unbroken s.print := Simple.unbroken_print hbody.1
      have hcondition := condition.unbroken_print hcondition
      have hfront := (Unbroken.append (s := "if ") (by decide) hcondition).append (t := " then ")
        (by decide)
      simp only [Stmt.print, hinline]
      exact .line ((hfront.append hs).append (by decide))
    | none =>
      simp only [Stmt.print, hinline]
      exact ((Indents.line hopening).append (Stmt.indents_printBlock body hbody).deeper).append
        (.line (by decide))
  | .count var first last body, ⟨hvar, hfirst, hlast, hbody⟩ => by
    have hopening := unbroken_count hvar hfirst hlast
    simp only [Stmt.print]
    exact ((Indents.line hopening).append (Stmt.indents_printBlock body hbody).deeper).append
      (.line (by decide))

theorem Stmt.indents_printBlock : (ss : List Stmt) → Stmt.AreUnbroken ss →
    Indents fun n => Stmt.printBlock n ss
  | [], _ => .nil
  | s :: rest, ⟨hs, hrest⟩ => by
    simp only [Stmt.printBlock]
    exact (s.indents_print hs).append (Stmt.indents_printBlock rest hrest)

end

/-- The opening line of a statement that holds others on lines of their own, and these. -/
def Stmt.block? : Stmt → Option (String × List Stmt)
  | .simple _ => none
  | .ifThen condition body =>
    if (inlineBody? body).isSome then none
    else some ("if " ++ condition.print ++ " then", body)
  | .count var first last body =>
    some ("for " ++ var ++ " = " ++ first.print ++ ", " ++ last.print ++ " do", body)

theorem Stmt.block_cases {s : Stmt} (h : s.IsUnbroken) {opening : String} {body : List Stmt}
    (hblock : s.block? = some (opening, body)) :
    Unbroken opening ∧ Stmt.AreUnbroken body ∧ ∀ n, s.print n =
      Lua.line n opening ++ Stmt.printBlock (n + 1) body ++ Lua.line n "end" := by
  cases s with
  | simple s => cases hblock
  | ifThen condition body =>
    obtain ⟨hcondition, hbody⟩ := h
    rw [Stmt.block?] at hblock
    split at hblock
    · cases hblock
    · rename_i hinline
      rw [Option.not_isSome_iff_eq_none] at hinline
      cases hblock
      refine ⟨unbroken_ifThen hcondition, hbody, ?_⟩
      intro n
      simp only [Stmt.print, hinline]
  | count var first last body =>
    obtain ⟨hvar, hfirst, hlast, hbody⟩ := h
    cases hblock
    exact ⟨unbroken_count hvar hfirst hlast, hbody, fun n => by rw [Stmt.print]⟩

/-- The lines of a block are those of its statements. -/
theorem ended_printBlock {body : List Stmt} (h : Stmt.AreUnbroken body) (n : Nat) :
    Text.ended (Stmt.printBlock n body).toList = body.flatMap fun s =>
      (Text.ended (s.print 0).toList).map fun l => List.replicate n '\t' ++ l := by
  induction body with
  | nil => rfl
  | cons s body ih =>
    obtain ⟨hs, hbody⟩ := h
    have hlines := s.indents_print hs
    rw [Stmt.printBlock, String.toList_append, hlines.ended_append, hlines.ended_eq, ih hbody]
    rfl

theorem getLast?_line (front : String) (n : Nat) (text : String) :
    (front ++ Lua.line n text).toList.getLast? = some '\n' := by
  simp [Lua.line]

/-- The last line of a statement ends as the others do. -/
theorem Stmt.getLast?_print (s : Stmt) (n : Nat) : (s.print n).toList.getLast? = some '\n' := by
  have hline (text : String) : (Lua.line n text).toList.getLast? = some '\n' := by
    simpa using getLast?_line "" n text
  cases s with
  | simple s => exact hline s.print
  | ifThen condition body =>
    rw [Stmt.print]
    split
    · exact hline _
    · exact getLast?_line _ n "end"
  | count var first last body =>
    rw [Stmt.print]
    exact getLast?_line _ n "end"

theorem Stmt.ended_print {s : Stmt} (h : s.IsUnbroken) {opening : String} {body : List Stmt}
    (hblock : s.block? = some (opening, body)) (n : Nat) :
    Text.ended (s.print n).toList =
      (List.replicate n '\t' ++ opening.toList) ::
        (body.flatMap fun inner => (Text.ended (inner.print 0).toList).map fun l =>
          List.replicate (n + 1) '\t' ++ l) ++
        [List.replicate n '\t' ++ "end".toList] := by
  obtain ⟨hopening, hbody, hprint⟩ := Stmt.block_cases h hblock
  have hline {text : String} (htext : Unbroken text) :
      Text.ended (Lua.line n text).toList = [List.replicate n '\t' ++ text.toList] := by
    have hpieces : Text.ended (Text.unlines [text.toList]) = [text.toList] :=
      Text.ended_unlines (List.forall_mem_singleton.2 htext)
    have hzero : (Lua.line 0 text).toList = Text.unlines [text.toList] := by
      simp [Lua.line, tabs, Text.unlines]
    rw [(Indents.line htext).ended_eq, hzero, hpieces]
    rfl
  rw [hprint, String.toList_append, String.toList_append, List.append_assoc,
    (Indents.line hopening).ended_append, (Stmt.indents_printBlock body hbody).ended_append,
    ended_printBlock hbody, hline hopening, hline (by decide)]
  rfl

/-- A statement at depth `n` is the statement at depth zero with `n` tabs in front of each line. In a
block, each line of the statements inside has one tab more than the line that opens the block and the
`end` of it. -/
theorem Stmt.print_indented {s : Stmt} (h : s.IsUnbroken) (n : Nat) :
    (s.print n).toList.getLast? = some '\n' ∧
      (s.print n).toList = Text.indented n (s.print 0).toList ∧
      ∀ opening body, s.block? = some (opening, body) →
        Text.ended (s.print n).toList =
          (List.replicate n '\t' ++ opening.toList) ::
            (body.flatMap fun inner => (Text.ended (inner.print 0).toList).map fun l =>
              List.replicate (n + 1) '\t' ++ l) ++
            [List.replicate n '\t' ++ "end".toList] :=
  ⟨s.getLast?_print n, (s.indents_print h).toList_eq n, fun _ _ hblock =>
    Stmt.ended_print h hblock n⟩

/-- A loop inside a branch, and a string with a line feed in the loop. -/
def nestedLoop : Stmt :=
  .count "i" (.literal "1") (.len (.ident "t"))
    [.simple (.assign (.index (.ident "r") (.ident "i")) (.str "a\nb"))]

def nestedBranch : Stmt := .ifThen (.ident "a") [nestedLoop, .simple (.ret (.ident "r"))]

theorem Stmt.print_indented_nestedBranch :
    nestedBranch.IsUnbroken ∧
      nestedBranch.block? = some ("if a then", [nestedLoop, .simple (.ret (.ident "r"))]) ∧
      (nestedBranch.print 2).toList = Text.indented 2 (nestedBranch.print 0).toList ∧
      Text.ended (nestedBranch.print 2).toList =
        ["\t\tif a then", "\t\t\tfor i = 1, #t do", "\t\t\t\tr[i] = \"a\\nb\"", "\t\t\tend",
          "\t\t\treturn r", "\t\tend"].map String.toList := by
  have hident {name : String} (h : Unbroken name) : (Expr.ident name).IsUnbroken := h
  have hone : (Expr.literal "1").IsUnbroken := (by decide : Unbroken "1")
  have hassign : (Simple.assign (.index (.ident "r") (.ident "i")) (.str "a\nb")).IsUnbroken :=
    ⟨⟨hident (by decide), hident (by decide)⟩, trivial⟩
  have hloop : nestedLoop.IsUnbroken := ⟨by decide, hone, hident (by decide), hassign, trivial⟩
  have hbranch : nestedBranch.IsUnbroken :=
    ⟨hident (by decide), hloop, hident (by decide), trivial⟩
  obtain ⟨-, hindented, hlines⟩ := Stmt.print_indented hbranch 2
  exact ⟨hbranch, rfl, hindented, (hlines _ _ rfl).trans (by decide)⟩

end Lua

end OpStubs
