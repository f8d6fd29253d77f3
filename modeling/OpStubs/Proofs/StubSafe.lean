import OpStubs.Proofs.Compilation
import OpStubs.Proofs.DocLines
import OpStubs.Proofs.Identifier
import OpStubs.Proofs.Lua.DefaultLiteral
import OpStubs.Proofs.Lua.PrintRead
import OpStubs.Stub

namespace OpStubs.Stub

open Lua

theorem safe_ident {n : String} (h : Token.isName n = true) : (Expr.ident n).Safe := h

theorem safe_literal (l : Literal) : (Expr.literal l.text).Safe := ⟨l, rfl⟩

theorem safe_orElse {left right : Expr} (hl : left.Safe) (hp : right.isPrefix = true)
    (hr : right.Safe) : (Expr.orElse left right).Safe := by
  refine ⟨?_, hl, hr⟩
  cases right with
  | binary => cases hp
  | _ => simp [Expr.operator?]

theorem safe_unwrapped {value : Expr} (hp : value.isPrefix = true) (hv : value.Safe) :
    (unwrapped value).Safe :=
  safe_orElse ⟨hp, hv, by decide⟩ hp hv

theorem safe_callName {n : String} {l : List Expr} (hn : Token.isName n = true)
    (hl : Expr.SafeAll l) : (Expr.callName n l).Safe :=
  ⟨rfl, hn, hl⟩

theorem safe_callHandle {n : String} {args : List Expr} (hn : Token.isName n = true)
    (ha : Expr.SafeAll args) : (callHandle n args).Safe :=
  ⟨rfl, safe_ident (by decide), hn, ha⟩

theorem safe_equals_literal {value : Expr} (l : Literal) (hp : value.operator? = none)
    (hv : value.Safe) : (Expr.equals value (.literal l.text)).Safe :=
  ⟨by simp [hp], by simp [Expr.operator?], by simp [Expr.operator?], hv, safe_literal l⟩

theorem safe_element {list : String} (hl : Token.isName list = true) :
    (Expr.index (.ident list) (.ident "i")).Safe :=
  ⟨rfl, hl, safe_ident (by decide)⟩

theorem safeBlock_cons {s : Stmt} {ss : List Stmt} (hs : s.Safe) (hr : s.returns = false)
    (hss : Stmt.SafeBlock ss) : Stmt.SafeBlock (s :: ss) :=
  ⟨hs, fun h => absurd (hr.symm.trans h) (by decide), hss⟩

theorem safeBlock_singleton {s : Stmt} (hs : s.Safe) : Stmt.SafeBlock [s] :=
  ⟨hs, fun _ => rfl, trivial⟩

theorem safeBlock_append {ss ss' : List Stmt} (hs : ∀ s ∈ ss, s.Safe ∧ s.returns = false)
    (h : Stmt.SafeBlock ss') : Stmt.SafeBlock (ss ++ ss') := by
  induction ss with
  | nil => exact h
  | cons s ss ih =>
    obtain ⟨⟨hsafe, hr⟩, hrest⟩ := List.forall_mem_cons.1 hs
    exact safeBlock_cons hsafe hr (ih hrest)

theorem safe_mapList {list : String} {value : Expr} (hl : Token.isName list = true)
    (hv : value.Safe) : Stmt.SafeBlock (mapList list value) := by
  have hone : (Expr.literal "1").Safe := safe_literal (.numeral false (.ofNat 1))
  have hassign : (assign (.index (.ident "ret") (.ident "i")) value).Safe :=
    ⟨rfl, safe_element (by decide), hv⟩
  have hcount : (Stmt.count "i" (.literal "1") (.len (.ident list))
      [assign (.index (.ident "ret") (.ident "i")) value]).Safe :=
    ⟨by decide, hone, ⟨rfl, hl⟩, safeBlock_singleton hassign⟩
  have hret : (ret (.ident "ret")).Safe := safe_ident (by decide)
  exact safeBlock_cons ⟨by decide, trivial⟩ rfl
    (safeBlock_cons hcount rfl (safeBlock_singleton hret))

theorem safe_header : Stmt.SafeBlock header := by
  have hhuge : (Expr.member (.ident "math") "huge").Safe :=
    ⟨rfl, safe_ident (by decide), by decide⟩
  have hrequire (path : String) : (require path).Safe :=
    safe_callName (by decide) ⟨trivial, trivial⟩
  refine safeBlock_cons ⟨by decide, trivial⟩ rfl (safeBlock_cons ⟨by decide, hhuge⟩ rfl ?_)
  exact safeBlock_cons ⟨by decide, rfl, hrequire _, by decide⟩ rfl
    (safeBlock_singleton ⟨by decide, hrequire _⟩)

theorem safe_helper {n param : String} {body : List Stmt} (hn : Token.isName n = true)
    (hp : Token.isName param = true) (hb : Stmt.SafeBlock body) :
    (helper n param body).Safe where
  doc := by simp [helper]
  isName_local := fun _ => hn
  isName_path := by simp [helper]
  isName_params := by simpa [helper] using hp
  body := hb

theorem safe_packHandlesHelper : packHandlesHelper.Safe :=
  safe_helper (by decide) (by decide) (safe_mapList (by decide)
    (safe_unwrapped rfl (safe_element (by decide))))

theorem safe_wrapListHelper : wrapListHelper.Safe :=
  safe_helper (by decide) (by decide) (safe_mapList (by decide)
    (safe_callName (by decide) ⟨safe_element (by decide), trivial⟩))

theorem safe_wrapResultsHelper : wrapResultsHelper.Safe := by
  have hlen : (Expr.len (.ident "res")).Safe := ⟨rfl, safe_ident (by decide)⟩
  have hzero : (Expr.equals (.len (.ident "res")) (.literal "0")).Safe :=
    safe_equals_literal (.numeral false (.ofNat 0)) rfl hlen
  have hone : (Expr.equals (.len (.ident "res")) (.literal "1")).Safe :=
    safe_equals_literal (.numeral false (.ofNat 1)) rfl hlen
  have hnil : (ret (.literal "nil")).Safe := safe_literal .nil
  have hfirst : (Expr.index (.ident "res") (.literal "1")).Safe :=
    ⟨rfl, safe_ident (by decide), safe_literal (.numeral false (.ofNat 1))⟩
  have hwrap : (ret (.callName tensorClass [.index (.ident "res") (.literal "1")])).Safe :=
    safe_callName (by decide) ⟨hfirst, trivial⟩
  have hlist : (ret (.callName wrapList [.ident "res"])).Safe :=
    safe_callName (by decide) ⟨safe_ident (by decide), trivial⟩
  refine safe_helper (by decide) (by decide) ?_
  exact safeBlock_cons ⟨hzero, safeBlock_singleton hnil⟩ rfl
    (safeBlock_cons ⟨hone, safeBlock_singleton hwrap⟩ rfl (safeBlock_singleton hlist))

/-- Whether the names in the registry entry of an operation have the shape of names of Lua. -/
structure IsNamed (op : OpDef) : Prop where
  name : Naming.IsIdentifier op.name.toList
  inputs : ∀ i ∈ op.inputs, Naming.IsIdentifier i.name.toList
  attrs : ∀ a ∈ op.attrs, Naming.IsIdentifier a.name.toList

/-- What is safe about an attribute of a compiled operation. -/
structure IsPlain (a : Operation.Attribute) : Prop where
  isName_var : Token.isName a.var = true
  safe_setAttr : (setAttr a).Safe
  literal : ∀ d ∈ a.default, ∃ l : Literal, l.text = d.literal
  isLine_doc : ∀ d ∈ a.default, IsLine d.doc
  isLine_hostType : IsLine a.hostType
  isLine_foreignType : ∀ t ∈ a.foreignType, IsLine t

theorem isName_countVar {op : OpDef} (h : IsNamed op) {attr inputVar : String}
    (hc : Operation.countVar op.inputs attr = some inputVar) : Token.isName inputVar = true := by
  obtain ⟨arg, harg, rfl⟩ := Option.map_eq_some_iff.1 hc
  exact Naming.isName_inputVar (h.inputs arg (List.mem_of_find?_eq_some harg))

theorem isName_method (s : Operation.Setter) : Token.isName s.method = true := by
  have hall (kind : AttrKind) (isList : Bool) :
      Token.isName ("setAttr" ++ (kind.title ++ if isList then "List" else "")) = true := by
    cases kind <;> cases isList <;> decide
  exact hall s.kind s.isList

theorem default_cases {countVar : String → Option String} {attr : AttrDef}
    {a : Operation.Attribute} (h : Operation.Attribute.Compiles countVar attr a)
    {d : Operation.Default} (hd : d ∈ a.default) :
    ∃ value, Operation.Default.ofValue? a.kind value = some d := by
  rw [h.default] at hd
  split at hd
  · obtain ⟨value, -, hvalue⟩ := Option.bind_eq_some_iff.1 hd
    exact ⟨value, hvalue⟩
  · cases hd

theorem isPlain_of_compiles {op : OpDef} (hn : IsNamed op) {attr : AttrDef}
    (ha : attr ∈ op.attrs) {a : Operation.Attribute}
    (h : Operation.Attribute.Compiles (Operation.countVar op.inputs) attr a) : IsPlain a where
  isName_var := by
    rw [h.var]
    exact Naming.isName_attrVar (hn.attrs attr ha)
  safe_setAttr := by
    have hstr : (Expr.str a.name).Safe := trivial
    rcases h.binding with ⟨inputVar, hc, hb⟩ | ⟨-, setter, -, -, hb⟩
    · have hlen : (Expr.len (.ident inputVar)).Safe := ⟨rfl, isName_countVar hn hc⟩
      rw [setAttr, hb]
      exact safe_callHandle (isName_method .int) ⟨hstr, hlen, trivial⟩
    · have hvar : (Expr.ident a.var).Safe := by
        rw [h.var]
        exact Naming.isName_attrVar (hn.attrs attr ha)
      rw [setAttr, hb]
      refine safe_callHandle (isName_method setter) ⟨hstr, ?_, trivial⟩
      split
      · exact safe_orElse ⟨rfl, hvar, by decide⟩ rfl hvar
      · exact hvar
  literal := by
    intro d hd
    obtain ⟨value, hvalue⟩ := default_cases h hd
    obtain ⟨⟨l, -, hl⟩, -⟩ := Literal.of_default hvalue
    exact ⟨l, hl⟩
  isLine_doc := by
    intro d hd
    obtain ⟨value, hvalue⟩ := default_cases h hd
    exact (Literal.of_default hvalue).2
  isLine_hostType := by
    rw [h.hostType]
    cases a.kind <;> cases a.isList <;> decide
  isLine_foreignType := by
    rw [h.foreignType]
    cases a.kind <;> cases a.isList <;> decide

theorem isLine_of_isName {s : String} (h : Token.isName s = true) : IsLine s := by
  intro c hc
  rw [← Bool.not_eq_true]
  intro he
  simp only [Token.endsLine, Bool.or_eq_true, beq_iff_eq] at he
  have hcontinues := (Naming.isIdentifier_of_isName h).2 c hc
  rcases he with rfl | rfl
  · exact absurd hcontinues (by decide)
  · exact absurd hcontinues (by decide)

/-- What is safe about a compiled operation. -/
structure IsPlainOperation (op : Operation) : Prop where
  isName_function : Token.isName op.function = true
  isName_input : ∀ i ∈ op.inputs, Token.isName i.var = true
  attrs : ∀ a ∈ op.attrs, IsPlain a
  doc : op.doc.HasLines

theorem isName_input_of_compiles {op : OpDef} (hn : IsNamed op) {doc : Documentation}
    {compiled : Operation} (h : Operation.Compiles op doc compiled) :
    ∀ i ∈ compiled.inputs, Token.isName i.var = true := by
  rw [h.inputs]
  intro i hi
  obtain ⟨arg, harg, rfl⟩ := List.mem_map.1 hi
  exact Naming.isName_inputVar (hn.inputs arg harg)

theorem isPlain_attrs_of_compiles {op : OpDef} (hn : IsNamed op) {doc : Documentation}
    {compiled : Operation} (h : Operation.Compiles op doc compiled) :
    ∀ a ∈ compiled.attrs, IsPlain a := by
  obtain ⟨attrs, hattrs, heq⟩ := h.attrs
  intro a ha
  rw [heq, Operation.mem_requiredFirst] at ha
  obtain ⟨attr, hattr, hc⟩ := exists_of_forall₂ hattrs ha
  exact isPlain_of_compiles hn (List.mem_of_mem_filter hattr) hc

theorem isPlainOperation_of_compile {op : OpDef} (hn : IsNamed op) {doc : Documentation}
    (hd : doc.HasLines) {compiled : Operation} (h : Operation.compile op doc = .ok compiled) :
    IsPlainOperation compiled where
  isName_function := by
    rw [(Operation.compile_ok h).function]
    exact Naming.isName_functionName hn.name
  isName_input := isName_input_of_compiles hn (Operation.compile_ok h)
  attrs := isPlain_attrs_of_compiles hn (Operation.compile_ok h)
  doc := by
    rw [(Operation.compile_ok h).doc]
    exact hd

theorem subset_of_mem_linesOfPieces {ps : List (List Char)} {l : List Char}
    (h : l ∈ Text.linesOfPieces ps) : ∃ p ∈ ps, l ⊆ p := by
  fun_induction Text.linesOfPieces ps with
  | case1 => cases h
  | case2 => cases h
  | case3 p => exact ⟨p, List.mem_singleton_self p, (List.mem_singleton.1 h).symm ▸ fun _ hc => hc⟩
  | case4 p ps _ ih =>
    rcases List.mem_cons.1 h with rfl | h
    · refine ⟨p, List.mem_cons_self, ?_⟩
      unfold Text.dropReturn
      split
      · exact List.dropLast_subset p
      · exact fun _ hc => hc
    · obtain ⟨q, hq, hs⟩ := ih h
      exact ⟨q, List.mem_cons_of_mem p hq, hs⟩

theorem exists_of_mem_bodyLines {body : String} {l : List Char} (h : l ∈ bodyLines body) :
    ∃ line ∈ Text.lines body.toList, Text.trimEnd line = l := by
  rw [bodyLines, List.mem_reverse] at h
  have h := (List.dropWhile_sublist _).subset h
  rw [List.mem_reverse] at h
  exact List.mem_map.1 ((List.dropWhile_sublist _).subset h)

theorem isClean_bodyLines {body : String} (h : ∀ c ∈ body.toList, c ≠ '\r') :
    ∀ l ∈ bodyLines body, IsClean l := by
  intro l hl
  obtain ⟨line, hline, rfl⟩ := exists_of_mem_bodyLines hl
  obtain ⟨p, hp, hs⟩ := subset_of_mem_linesOfPieces hline
  have hclean := Text.isClean_of_mem_pieces h hp
  exact hclean.subset fun c hc => hs (Text.trimEnd_subset line hc)

theorem isLine_describeAttr {a : Operation.Attribute} (ha : IsPlain a) {text : Option String}
    (ht : ∀ s ∈ text, IsLine s) : IsLine (describeAttr a text) := by
  have hfacts : IsLine ((a.default.elim "" fun d => "(optional " ++ d.doc ++ ")") ++
      a.foreignType.elim "" fun t => "(" ++ t ++ ")") := by
    refine isLine_append ?_ ?_
    · cases hd : a.default with
      | none => decide
      | some d => exact isLine_append (isLine_append (by decide) (ha.isLine_doc d hd)) (by decide)
    · cases hf : a.foreignType with
      | none => decide
      | some t =>
        exact isLine_append (isLine_append (by decide) (ha.isLine_foreignType t hf)) (by decide)
  unfold describeAttr
  cases text with
  | none => exact hfacts
  | some s =>
    simp only
    split
    · exact ht s rfl
    · exact isLine_append (isLine_append hfacts (by decide)) (ht s rfl)

/-- The annotation is safe if each text in it is one line. -/
theorem safe_docLines_of_clean {op : Operation} (hinputs : ∀ i ∈ op.inputs, Token.isName i.var = true)
    (hattrs : ∀ a ∈ op.attrs, IsPlain a) (hbody : ∀ l ∈ bodyLines op.doc.body, IsClean l)
    (harg : ∀ name text, op.doc.arg name = some text → IsLine text)
    (hreturns : IsLine op.doc.returns) : ∀ l ∈ docLines op, l.Safe := by
  intro l hl
  simp only [docLines, List.mem_append, List.mem_map, List.mem_singleton] at hl
  rcases hl with ((⟨line, hline, rfl⟩ | ⟨i, hi, rfl⟩) | ⟨a, ha, rfl⟩) | rfl
  · have hclean := hbody line hline
    intro c hc
    rw [String.toList_ofList] at hc
    exact hclean c hc
  · refine ⟨isLine_of_isName (hinputs i hi), ?_, ?_⟩
    · unfold Operation.Input.hostType
      split <;> decide
    · cases htext : op.doc.arg i.name with
      | none => decide
      | some s => exact harg i.name s htext
  · have hplain := hattrs a (List.mem_of_mem_filter ha)
    exact ⟨isLine_of_isName hplain.isName_var, hplain.isLine_hostType,
      isLine_describeAttr hplain fun s hs => harg a.name s hs⟩
  · refine ⟨?_, hreturns⟩
    cases op.arity <;> decide

theorem safe_docLines {op : Operation} (h : IsPlainOperation op) : ∀ l ∈ docLines op, l.Safe :=
  safe_docLines_of_clean h.isName_input h.attrs (isClean_bodyLines h.doc.body) h.doc.arg
    h.doc.returns

theorem safe_coalesce {a : Operation.Attribute} (h : IsPlain a) {s : Stmt}
    (hs : coalesce a = some s) : s.Safe ∧ s.returns = false := by
  obtain ⟨d, hd, rfl⟩ := Option.map_eq_some_iff.1 hs
  obtain ⟨l, hl⟩ := h.literal d hd
  have hvar : (Expr.ident a.var).Safe := h.isName_var
  have hassign : (assign (.ident a.var) (.literal d.literal)).Safe := ⟨rfl, hvar, l, hl⟩
  exact ⟨⟨safe_equals_literal .nil rfl hvar, safeBlock_singleton hassign⟩, rfl⟩

theorem safe_addInput {i : Operation.Input} (h : Token.isName i.var = true) :
    (eval (addInput i)).Safe := by
  have hvar : (Expr.ident i.var).Safe := h
  unfold addInput
  split
  · have hpack := safe_callName (n := packHandles) (by decide) (l := [.ident i.var])
      ⟨hvar, trivial⟩
    exact ⟨rfl, safe_callHandle (by decide) ⟨hpack, trivial⟩⟩
  · exact ⟨rfl, safe_callHandle (by decide) ⟨safe_unwrapped rfl hvar, trivial⟩⟩

theorem safe_execute (arity : Operation.Arity) : (execute arity).Safe := by
  have hcall : (callHandle "execute" []).Safe := safe_callHandle (by decide) trivial
  cases arity with
  | none => exact ⟨rfl, hcall⟩
  | single => exact safe_callName (n := wrapResults) (by decide) ⟨hcall, trivial⟩
  | many => exact safe_callName (n := wrapList) (by decide) ⟨hcall, trivial⟩

theorem safe_newHandle (op : Operation) : (newHandle op).Safe := by
  have hcontext := safe_callName (n := getContext) (by decide) (l := []) trivial
  exact ⟨by decide, rfl, hcontext, by decide, trivial, trivial⟩

theorem safe_body {op : Operation} (h : IsPlainOperation op) : Stmt.SafeBlock (body op) := by
  have hattr : ∀ a ∈ op.attrs, (eval (setAttr a)).Safe ∧ (eval (setAttr a)).returns = false := by
    intro a ha
    refine ⟨⟨?_, (h.attrs a ha).safe_setAttr⟩, rfl⟩
    unfold setAttr
    split <;> rfl
  rw [body]
  refine safeBlock_append ?_ (safeBlock_singleton (safe_execute op.arity))
  intro s hs
  simp only [List.mem_append, List.mem_filterMap, List.mem_map, List.mem_singleton] at hs
  rcases hs with ((⟨a, ha, hs⟩ | rfl) | ⟨i, hi, rfl⟩) | ⟨a, ha, rfl⟩
  · exact safe_coalesce (h.attrs a (List.mem_of_mem_filter ha)) hs
  · exact ⟨safe_newHandle op, rfl⟩
  · exact ⟨safe_addInput (h.isName_input i hi), rfl⟩
  · exact hattr a ha

theorem safe_function {op : Operation} (h : IsPlainOperation op) : (function op).Safe where
  doc := safe_docLines h
  isName_local := by
    intro hl
    cases hl
  isName_path := by
    intro _ n hn
    have hfunction := Naming.isIdentifier_of_isName h.isName_function
    have hname : (function op).name.toList = 'M' :: '.' :: op.function.toList := by
      simp [function, table]
    have hpieces : Text.pieces '.' (function op).name.toList = [['M'], op.function.toList] := by
      have hrest : Text.pieces '.' op.function.toList = [op.function.toList] :=
        Text.pieces_of_not_mem fun c hc =>
          ne_of_apply_ne Token.continuesName (by rw [hfunction.2 c hc]; decide)
      rw [hname, Text.pieces, if_neg (by decide), Text.pieces, if_pos rfl, hrest]
      rfl
    rw [Function.path, hpieces] at hn
    rcases List.mem_cons.1 hn with rfl | hn
    · decide
    · obtain rfl := List.mem_singleton.1 hn
      rw [String.ofList_toList]
      exact h.isName_function
  isName_params := by
    intro p hp
    simp only [function, Operation.params, List.mem_append, List.mem_map] at hp
    rcases hp with ⟨i, hi, rfl⟩ | ⟨a, ha, rfl⟩
    · exact h.isName_input i hi
    · exact (h.attrs a (List.mem_of_mem_filter ha)).isName_var
  body := safe_body h

/-- The module of compiled operations is safe to print. -/
theorem safe_moduleOf {ops : List Operation} (h : ∀ op ∈ ops, IsPlainOperation op) :
    (moduleOf ops).Safe where
  title := (by decide : IsLine "TensorFlow raw_ops mappings")
  header := safe_header
  not_returns := by
    have hall : (header.all fun s => !s.returns) = true := by decide
    exact fun s hs => by simpa using List.all_eq_true.1 hall s hs
  helpers := by
    simp only [moduleOf, List.forall_mem_cons]
    exact ⟨safe_packHandlesHelper, safe_wrapListHelper, safe_wrapResultsHelper, by simp⟩
  functions := by
    intro f hf
    obtain ⟨op, hop, rfl⟩ := List.mem_map.1 hf
    exact safe_function (h op hop)
  isName_exported := (by decide : Token.isName table = true)

/-- Reading the text of a module that is safe to print gives the module back. The module of compiled
operations is one, if the registry names its operations, inputs and attributes as Lua names things
and no docstring has a carriage return. -/
theorem print_reads_back :
    (∀ m : Lua.Module, m.Safe → read? m.print = some m.chunk) ∧
    ∀ (defs : List (OpDef × Option String)) (ops : List Operation),
      List.Forall₂ (fun d op => Operation.compile d.1 (.ofText? d.2) = .ok op) defs ops →
      (∀ d ∈ defs, IsNamed d.1 ∧ ∀ text ∈ d.2, ∀ c ∈ text.toList, c ≠ '\r') →
      (moduleOf ops).Safe := by
  refine ⟨fun m h => Module.read_print h, ?_⟩
  intro defs ops hops hdefs
  refine safe_moduleOf ?_
  intro op hop
  obtain ⟨d, hd, hc⟩ := exists_of_forall₂ hops hop
  obtain ⟨hn, ht⟩ := hdefs d hd
  exact isPlainOperation_of_compile hn (Documentation.hasLines_ofText ht) hc

def noOp : OpDef := { name := "NoOp" }

def noOpCompiled : Operation where
  name := "NoOp"
  function := Naming.functionName "NoOp"
  inputs := []
  attrs := []
  doc := .ofText? (some "Does nothing.")
  arity := .none

theorem print_reads_back_noOp :
    read? (moduleOf [noOpCompiled]).print = some (moduleOf [noOpCompiled]).chunk :=
  print_reads_back.1 _ (print_reads_back.2 [(noOp, some "Does nothing.")] [noOpCompiled]
    (.cons rfl .nil) (by
      intro d hd
      obtain rfl := List.mem_singleton.1 hd
      refine ⟨⟨by decide, by simp [noOp], by simp [noOp]⟩, ?_⟩
      intro text ht
      obtain rfl := Option.mem_some_iff.1 ht
      simp))

end OpStubs.Stub
