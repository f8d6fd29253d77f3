import OpStubs.Proofs.LineFeeds
import OpStubs.Proofs.Parameters

namespace OpStubs.Stub

open Lua

/-- What the annotation tells of a parameter: its name in the registry, its own name and its type, and
what is known of it without documentation. -/
structure Told where
  name : String
  var : String
  type : String
  facts : String

/-- What is told of the parameters, in their order. -/
def told (op : Operation) : List Told :=
  op.inputs.map (fun i => ⟨i.name, i.var, i.hostType, ""⟩) ++
    op.attrParams.map fun a => ⟨a.name, a.var, a.hostType, describeAttr a none⟩

/-- The facts and the description that is documented under the name in the registry. -/
def Told.description (doc : Documentation) (p : Told) : String :=
  match doc.arg p.name with
  | none => p.facts
  | some text => if p.facts = "" then text else p.facts ++ " " ++ text

def Told.line (doc : Documentation) (p : Told) : String :=
  "---@param " ++ p.var ++ " " ++ p.type ++
    if p.description doc = "" then "" else " @" ++ p.description doc

def returnLine (op : Operation) : String :=
  "---@return " ++ returnType op.arity ++
    if op.doc.returns = "" then "" else " @ " ++ op.doc.returns

def headerLine (op : Operation) : String :=
  "function M." ++ op.function ++ "(" ++ separated ", " op.params ++ ")"

theorem told_params (op : Operation) : (told op).map (·.var) = op.params := by
  rw [told, List.map_append, List.map_map, List.map_map]
  rfl

/-- The lines of the annotation: those of the text, then the parameters, then the result. -/
theorem print_docLines (op : Operation) : (docLines op).map (·.print) =
    (bodyLines op.doc.body).map (fun l => (DocLine.text (String.ofList l)).print) ++
      (told op).map (Told.line op.doc) ++ [returnLine op] := by
  have hinput (i : Operation.Input) :
      (DocLine.param i.var i.hostType ((op.doc.arg i.name).getD "")).print =
        Told.line op.doc ⟨i.name, i.var, i.hostType, ""⟩ := by
    unfold Told.line Told.description DocLine.print
    cases op.doc.arg i.name <;> rfl
  have hattr (a : Operation.Attribute) :
      (DocLine.param a.var a.hostType (describeAttr a (op.doc.arg a.name))).print =
        Told.line op.doc ⟨a.name, a.var, a.hostType, describeAttr a none⟩ := by
    unfold Told.line Told.description DocLine.print
    cases op.doc.arg a.name <;> rfl
  simp only [docLines, told, List.map_append, List.map_map, Function.comp_def, hinput, hattr,
    List.append_assoc]
  rfl

theorem unbroken_param {name type description : String} (hname : Unbroken name)
    (htype : Unbroken type) (hdescription : Unbroken description) :
    Unbroken (DocLine.param name type description).print := by
  have hfront := (Unbroken.append (s := "---@param ") (by decide) hname).append (t := " ") (by decide)
  refine (hfront.append htype).append ?_
  split
  · decide
  · exact Unbroken.append (by decide) hdescription

theorem unbroken_returns {type description : String} (htype : Unbroken type)
    (hdescription : Unbroken description) : Unbroken (DocLine.returns type description).print := by
  refine (Unbroken.append (by decide) htype).append ?_
  split
  · decide
  · exact Unbroken.append (by decide) hdescription

theorem feed_notMem_bodyLines {body : String} {l : List Char} (h : l ∈ bodyLines body) :
    '\n' ∉ l := by
  obtain ⟨line, hline, rfl⟩ := exists_of_mem_bodyLines h
  obtain ⟨p, hp, heq⟩ := Text.trimEnd_of_mem_linesOfPieces hline
  rw [heq]
  exact fun hfeed => (Text.mem_pieces hp _ (Text.trimEnd_subset p hfeed)).2 rfl

section
variable {op : Operation} (h : IsUnbrokenOperation op)
include h

theorem unbroken_docLines : ∀ l ∈ docLines op, Unbroken l.print := by
  intro l hl
  simp only [docLines, List.mem_append, List.mem_map, List.mem_singleton] at hl
  rcases hl with ((⟨line, hline, rfl⟩ | ⟨i, hi, rfl⟩) | ⟨a, ha, rfl⟩) | rfl
  · have htext : Unbroken (String.ofList line) := by
      rw [Unbroken, String.toList_ofList]
      exact feed_notMem_bodyLines hline
    rw [DocLine.print]
    split
    · decide
    · exact Unbroken.append (by decide) htext
  · have htype : Unbroken i.hostType := by
      unfold Operation.Input.hostType
      split <;> decide
    have hdescription : Unbroken ((op.doc.arg i.name).getD "") := by
      cases htext : op.doc.arg i.name with
      | none => decide
      | some text => exact h.arg i.name text htext
    exact unbroken_param (h.inputs i hi) htype hdescription
  · have hmem := List.mem_of_mem_filter ha
    have hattr := h.attrs a hmem
    exact unbroken_param hattr.var hattr.hostType (unbroken_describeAttr h hmem)
  · have htype : Unbroken (returnType op.arity) := by cases op.arity <;> decide
    exact unbroken_returns htype h.returns

theorem unbroken_headerLine : Unbroken (headerLine op) := by
  have hparams : ∀ p ∈ op.params, Unbroken p := by
    intro p hp
    rw [Operation.params, List.mem_append, List.mem_map, List.mem_map] at hp
    rcases hp with ⟨i, hi, rfl⟩ | ⟨a, ha, rfl⟩
    · exact h.inputs i hi
    · exact (h.attrs a (List.mem_of_mem_filter ha)).var
  have hname := (Unbroken.append (s := "function M.") (by decide) h.function).append (t := "(")
    (by decide)
  exact (hname.append (unbroken_separated (by decide) hparams)).append (by decide)

/-- The lines of a function: its annotation, its header, and code behind a tab up to the `end`. -/
theorem pieces_print : ∃ code : List (List Char),
    Text.pieces '\n' (function op).print.toList =
      (docLines op).map (·.print.toList) ++ (headerLine op).toList ::
        (code.map ('\t' :: ·) ++ ["end".toList, []]) := by
  obtain ⟨code, hcode, hprint⟩ := Stmt.indents_printBlock (body op) (areUnbroken_body h)
  have hdoc : (printDoc (docLines op)).toList =
      Text.unlines ((docLines op).map (·.print.toList)) := by
    induction docLines op with
    | nil => rfl
    | cons l ls ih => simp [printDoc, Text.unlines, ih, List.flatMap_map]
  have htext : (function op).print.toList = Text.unlines ((docLines op).map (·.print.toList) ++
      (headerLine op).toList :: (code.map ('\t' :: ·) ++ ["end".toList])) := by
    rw [print_function, String.toList_append, hdoc, Text.unlines_append]
    unfold headerLine
    simp [hprint 1, Text.unlines]
  have hlines : ∀ l ∈ (docLines op).map (·.print.toList) ++
      (headerLine op).toList :: (code.map ('\t' :: ·) ++ ["end".toList]), '\n' ∉ l := by
    simp only [List.forall_mem_append, List.forall_mem_cons, List.forall_mem_map]
    refine ⟨unbroken_docLines h, unbroken_headerLine h, ?_, by decide, List.forall_mem_nil _⟩
    intro l hl
    simpa using hcode l hl
  rw [htext, Text.pieces_unlines hlines]
  simp

end

/-- What the lines of an annotation begin with that no line of plain text does. -/
def tag : List Char := "---@".toList

theorem filter_lines {mark : List Char} (h : tag <+: mark) {body annotation code : List (List Char)}
    (hplain : ∀ l ∈ body ++ code, ¬ tag <+: l) :
    (body ++ annotation ++ code).filter (mark.isPrefixOf ·) =
      annotation.filter (mark.isPrefixOf ·) := by
  have hnone {ls : List (List Char)} (hls : ∀ l ∈ ls, ¬ tag <+: l) :
      ls.filter (mark.isPrefixOf ·) = [] := by
    refine List.filter_eq_nil_iff.2 fun l hl hbegin => ?_
    exact hls l hl (h.trans (List.isPrefixOf_iff_prefix.1 hbegin))
  obtain ⟨hbody, hcode⟩ := List.forall_mem_append.1 hplain
  rw [List.filter_append, List.filter_append, hnone hbody, hnone hcode, List.append_nil,
    List.nil_append]

theorem not_prefix {l : List Char} (h : tag.isPrefixOf l = false) : ¬ tag <+: l := by
  rw [← List.isPrefixOf_iff_prefix, h]
  exact Bool.false_ne_true

/-- Which lines of an annotation a mark chooses depends on what the two kinds begin with. -/
theorem filter_annotation {mark : List Char} {a b : Bool}
    (ha : ∀ rest, mark.isPrefixOf ("---@param ".toList ++ rest) = a)
    (hb : ∀ rest, mark.isPrefixOf ("---@return ".toList ++ rest) = b) (op : Operation)
    (doc : Documentation) :
    ((told op).map (fun p => (p.line doc).toList) ++ [(returnLine op).toList]).filter
        (mark.isPrefixOf ·) =
      (if a then (told op).map (fun p => (p.line doc).toList) else []) ++
        if b then [(returnLine op).toList] else [] := by
  have hparams : ∀ l ∈ (told op).map (fun p => (p.line doc).toList), mark.isPrefixOf l = a := by
    intro l hl
    obtain ⟨p, -, rfl⟩ := List.mem_map.1 hl
    unfold Told.line
    simp only [String.toList_append, List.append_assoc]
    exact ha _
  have hreturn : mark.isPrefixOf (returnLine op).toList = b := by
    unfold returnLine
    simp only [String.toList_append, List.append_assoc]
    exact hb _
  rw [List.filter_append, List.filter_singleton, hreturn, Bool.cond_eq_ite]
  cases a with
  | true =>
    rw [List.filter_eq_self.2 hparams]
    rfl
  | false =>
    rw [List.filter_eq_nil_iff.2 fun l hl => by simp [hparams l hl]]
    rfl

/-- The parameters are told with the names that the registry has for them. -/
theorem told_parameters {op : OpDef} {doc : Documentation} {compiled : Operation}
    (h : Operation.Compiles op doc compiled) :
    (told compiled).map (fun p => (p.name, p.var)) = op.parameters := by
  have hattrs : compiled.attrParams.map (fun a => (a.name, a.var)) =
      op.supplied.map fun attr => (attr.name, Naming.attrVar attr.name) := by
    have hall := supplied_compiles h
    generalize op.supplied = defs, compiled.attrParams = attrs at hall
    induction hall with
    | nil => rfl
    | cons ha _ ih => rw [List.map_cons, List.map_cons, ha.name, ha.var, ih]
  rw [told, h.inputs, OpDef.parameters, List.map_append, List.map_map, List.map_map, List.map_map,
    ← hattrs]
  rfl

/-- The annotation of a compiled operation matches its signature. The lines that tell of parameters
are one for each, in their order, and each has the description that is documented under the name that
the registry gives the parameter. One line tells of the result. It follows them, and the header follows
it. No other line begins as these do, whatever the text that documents the operation is. -/
theorem annotation_matches {op : OpDef} {text : Option String} {compiled : Operation}
    (hn : op.HasUnbrokenNames) (h : Operation.compile op (.ofText? text) = .ok compiled) :
    compiled.function = Naming.functionName op.name ∧
      (told compiled).map (fun p => (p.name, p.var)) = op.parameters ∧
      (told compiled).map (·.var) = compiled.params ∧
      ∃ body params code : List (List Char),
        params = (told compiled).map (fun p => (p.line (.ofText? text)).toList) ∧
        Text.pieces '\n' (function compiled).print.toList =
          body ++ (params ++ [(returnLine compiled).toList]) ++
            ((headerLine compiled).toList :: code) ∧
        (Text.pieces '\n' (function compiled).print.toList).filter
            ("---@param ".toList.isPrefixOf ·) = params ∧
        (Text.pieces '\n' (function compiled).print.toList).filter
            ("---@return".toList.isPrefixOf ·) = [(returnLine compiled).toList] ∧
        (Text.pieces '\n' (function compiled).print.toList).filter
            ("---@".toList.isPrefixOf ·) = params ++ [(returnLine compiled).toList] := by
  have hc := Operation.compile_ok h
  obtain ⟨code, hlines⟩ := pieces_print (isUnbrokenOperation_of_compile hn h)
  refine ⟨hc.function, told_parameters hc, told_params compiled, ?_⟩
  have hprint : (docLines compiled).map (·.print.toList) =
      (bodyLines compiled.doc.body).map (fun l => (DocLine.text (String.ofList l)).print.toList) ++
        ((told compiled).map (fun p => (p.line compiled.doc).toList) ++
          [(returnLine compiled).toList]) := by
    have hmap := congrArg (List.map String.toList) (print_docLines compiled)
    simpa [Function.comp_def] using hmap
  have hbody : ∀ l ∈ (bodyLines compiled.doc.body).map
      (fun l => (DocLine.text (String.ofList l)).print.toList), ¬ tag <+: l := by
    intro l hl
    obtain ⟨line, -, rfl⟩ := List.mem_map.1 hl
    rw [DocLine.print]
    split
    · decide
    · rw [String.toList_append]
      exact not_prefix rfl
  have hcode : ∀ l ∈ (headerLine compiled).toList :: (code.map ('\t' :: ·) ++ ["end".toList, []]),
      ¬ tag <+: l := by
    simp only [List.forall_mem_append, List.forall_mem_cons, List.forall_mem_map]
    refine ⟨?_, fun l _ => not_prefix rfl, by decide, by decide, List.forall_mem_nil _⟩
    unfold headerLine
    simp only [String.toList_append, List.append_assoc]
    exact not_prefix rfl
  rw [hprint] at hlines
  rw [← hc.doc]
  have hplain := List.forall_mem_append.2 ⟨hbody, hcode⟩
  refine ⟨_, _, _, rfl, hlines, ?_, ?_, ?_⟩
  · rw [hlines, filter_lines (by decide) hplain,
      filter_annotation (a := true) (b := false) (fun _ => rfl) fun _ => rfl]
    exact List.append_nil _
  · rw [hlines, filter_lines (by decide) hplain,
      filter_annotation (a := false) (b := true) (fun _ => rfl) fun _ => rfl]
    rfl
  · rw [hlines, filter_lines (by decide) hplain,
      filter_annotation (a := true) (b := true) (fun _ => rfl) fun _ => rfl]
    rfl

/-- An operation whose parameters are all renamed, and a text whose lines look like an annotation. -/
def renamedText : String :=
  "@param x y\n---@return z\n\nArgs:\n  tensor: One.\n  input_tensor: Other.\n  template: @param t"

theorem hasUnbrokenNames_renamedInputs : renamedInputs.HasUnbrokenNames where
  name := by decide
  inputs := by simp [renamedInputs]; decide
  attrs := by simp [renamedInputs]; decide

theorem annotation_matches_renamedInputs :
    renamedInputs.HasUnbrokenNames ∧ ∃ compiled,
      Operation.compile renamedInputs (.ofText? (some renamedText)) = .ok compiled ∧
      compiled.params = ["input_tensor", "end_", "template_arg"] ∧
      (Text.pieces '\n' (function compiled).print.toList).filter ("---@".toList.isPrefixOf ·) =
        ["---@param input_tensor tfl.Tensor @One.", "---@param end_ tfl.Tensor",
          "---@param template_arg string @@param t", "---@return nil"].map String.toList := by
  refine ⟨hasUnbrokenNames_renamedInputs, _, rfl, rfl, ?_⟩
  obtain ⟨-, -, -, body, params, code, hparams, -, -, -, hlines⟩ :=
    @annotation_matches _ (some renamedText) _ hasUnbrokenNames_renamedInputs rfl
  rw [hlines, hparams]
  decide +kernel

end OpStubs.Stub
