import OpStubs.Proofs.DocComment
import OpStubs.Proofs.Lua.Indentation
import OpStubs.Proofs.Segmentation
import OpStubs.Proofs.Underscores

namespace OpStubs

open Lua (Unbroken)

namespace Text

theorem eq_of_ofNat_eq_feed {n : Nat} (h : Char.ofNat n = '\n') : n = 10 := by
  have hcode := congrArg Char.toNat h
  by_cases hn : n.isValidChar
  · rw [Char.ofNat, dif_pos hn] at hcode
    exact hcode
  · rw [Char.ofNat, dif_neg hn] at hcode
    cases hcode

theorem eq_of_toLower_eq_feed {c : Char} (h : c.toLower = '\n') : c = '\n' := by
  cases hc : Naming.isCapital c with
  | true =>
    have hname := Naming.toLower_of_continuesName (Naming.continuesName_of_isCapital hc)
    rw [h] at hname
    exact absurd hname (by decide)
  | false => rwa [Naming.toLower_of_not_isCapital hc] at h

theorem lt_shiftBy {n : Nat} (hn : 10 < n) : 10 < shiftBy Table.lowerRuns n := by
  have hruns : ∀ r ∈ Table.lowerRuns, 10 < r.first + r.shift := by decide +kernel
  unfold shiftBy
  split
  · rename_i r hr
    have hfirst := List.find?_some hr
    simp only [Bool.and_eq_true, decide_eq_true_eq] at hfirst
    have hlow := hruns r (List.mem_of_find?_eq_some hr)
    omega
  · exact hn

/-- No other letter becomes a line feed. -/
theorem feed_notMem_lowerChar {c : Char} (hc : c ≠ '\n') : '\n' ∉ lowerChar c := by
  have hlong : ∀ e ∈ Table.lowerLong, ∀ n ∈ e.2, n ≠ 10 := by decide
  unfold lowerChar mapLetter
  split
  · rw [List.mem_singleton]
    exact fun heq => hc (eq_of_toLower_eq_feed heq.symm)
  · rename_i hcode
    split
    · rename_i codes hcodes
      intro hmem
      obtain ⟨n, hn, heq⟩ := List.mem_map.1 hmem
      exact hlong _ ((lookup_eq_some_iff_mem (by decide)).1 hcodes) n hn (eq_of_ofNat_eq_feed heq)
    · have hlt := lt_shiftBy (n := c.toNat) (by omega)
      rw [List.mem_singleton]
      intro heq
      have := eq_of_ofNat_eq_feed heq.symm
      omega

theorem feed_notMem_lowerAfter {s : List Char} (h : '\n' ∉ s) (before : List Char) :
    '\n' ∉ lowerAfter before s := by
  induction s generalizing before with
  | nil => exact h
  | cons c s ih =>
    rw [List.mem_cons, not_or] at h
    rw [lowerAfter, List.mem_append, not_or]
    refine ⟨?_, ih h.2 (c :: before)⟩
    split
    · split <;> decide
    · exact feed_notMem_lowerChar (Ne.symm h.1)

end Text

namespace Naming

theorem Respells.feed_notMem {s t : List Char} (h : Respells s t) (hs : '\n' ∉ s) : '\n' ∉ t := by
  intro hmem
  rcases Underscored.mem h _ (List.mem_map_of_mem hmem) with hfeed | hfeed
  · obtain ⟨c, hc, heq⟩ := List.mem_map.1 hfeed
    exact hs (Text.eq_of_toLower_eq_feed heq ▸ hc)
  · exact absurd hfeed (by decide)

theorem feed_notMem_normalizeChars {s : List Char} (h : '\n' ∉ s) : '\n' ∉ normalizeChars s := by
  unfold normalizeChars
  split
  · exact Text.feed_notMem_lowerAfter h []
  · have hlead := (respells_fixAcronyms s).trans
      ((respells_lowerTrailing _).trans (respells_lowerLeading _))
    have hinner := respells_lowerInner [] (lowerLeading (lowerTrailing (fixAcronyms s)))
    rw [List.nil_append] at hinner
    have hwords := (hlead.trans hinner).feed_notMem h
    generalize lowerInner [] (lowerLeading (lowerTrailing (fixAcronyms s))) = t at hwords
    cases t with
    | nil => exact hwords
    | cons c r =>
      have hmarked : Respells (c :: r) (c :: markCapitals r) :=
        (Respells.refl [c]).append (respells_markCapitals r)
      exact Text.feed_notMem_lowerAfter (hmarked.feed_notMem hwords) []

theorem unbroken_escapeReserved {name : String} (h : Unbroken name) :
    Unbroken (escapeReserved name) := by
  unfold escapeReserved
  split
  · exact h.append (by decide)
  · exact h

theorem unbroken_functionName {op : String} (h : Unbroken op) : Unbroken (functionName op) := by
  refine unbroken_escapeReserved ?_
  rw [Unbroken, normalize, String.toList_ofList]
  exact feed_notMem_normalizeChars h

theorem unbroken_inputVar {name : String} (h : Unbroken name) : Unbroken (inputVar name) := by
  unfold inputVar
  split
  · decide
  · exact unbroken_escapeReserved h

theorem unbroken_attrVar {name : String} (h : Unbroken name) : Unbroken (attrVar name) := by
  unfold attrVar
  split
  · decide
  · exact unbroken_escapeReserved h

end Naming

namespace Documentation

theorem IsEntry.feed_notMem {lines : List (List Char)} {e : Entry} (h : IsEntry lines e)
    (hlines : ∀ l ∈ lines, '\n' ∉ l) : ∀ f ∈ e.fragments, '\n' ∉ f := by
  obtain ⟨before, after, more, rfl, -, -, hfragments⟩ := h
  obtain ⟨hfirst, hmore⟩ := List.forall_mem_cons.1 hlines
  rw [hfragments]
  refine List.forall_mem_append.2 ⟨?_, hmore⟩
  intro f hf hfeed
  rw [fragment] at hf
  split at hf
  · cases hf
  · obtain rfl := List.mem_singleton.1 hf
    have hafter := Text.trim_subset after hfeed
    exact hfirst (List.mem_append_right before (List.mem_cons_of_mem ':' hafter))

/-- A line that is kept somewhere is a line of the text. -/
theorem Draft.Keeps.feed_notMem {d : Draft} {lines : List (List Char)} {f : Filing}
    (h : d.Keeps lines f) (hlines : ∀ l ∈ lines, '\n' ∉ l) (p : Place) :
    ∀ l ∈ f.at p, '\n' ∉ l := by
  intro l hl hfeed
  obtain ⟨x, hx, rfl⟩ := List.mem_map.1 hl
  have hkept : x.2 ∈ f.map Prod.snd := List.mem_map_of_mem (List.mem_of_mem_filter hx)
  rw [h.lines] at hkept
  obtain ⟨line, hline, heq⟩ := List.mem_map.1 hkept
  rw [← heq] at hfeed
  exact hlines line (List.mem_of_mem_filter hline) (Text.trim_subset line hfeed)

theorem unbroken_joinWith {ls : List (List Char)} (h : ∀ l ∈ ls, '\n' ∉ l) :
    Unbroken (String.ofList (Text.joinWith [' '] ls)) := by
  rw [Unbroken, String.toList_ofList]
  intro hfeed
  rcases Text.mem_joinWith hfeed with hsep | ⟨l, hl, hmem⟩
  · exact absurd hsep (by decide)
  · exact h l hl hmem

theorem unbroken_parse (s : String) :
    (∀ name text, (parse s).arg name = some text → Unbroken text) ∧ Unbroken (parse s).returns := by
  have hlines : ∀ l ∈ Text.pieces '\n' s.toList, '\n' ∉ l :=
    fun l hl hc => (Text.mem_pieces hl _ hc).2 rfl
  obtain ⟨f, hkeeps⟩ := Draft.keeps_nil.foldl hlines
  rw [List.nil_append] at hkeeps
  rw [parse, ofLines]
  generalize (Text.pieces '\n' s.toList).foldl Draft.add {} = d at hkeeps
  have hplaces := hkeeps.feed_notMem hlines
  constructor
  · intro name text harg
    obtain ⟨value, hvalue, hif⟩ := Option.bind_eq_some_iff.1 harg
    split at hif
    · cases hif
    · cases hif
      obtain ⟨e, he, heq⟩ := List.mem_map.1 (Dictionary.mem_of_find?_ofList hvalue)
      cases heq
      obtain ⟨k, hk⟩ := List.mem_iff_getElem?.1 he
      exact unbroken_joinWith ((hkeeps.entry k e hk).feed_notMem (hplaces _))
  · refine unbroken_joinWith ?_
    rw [hkeeps.returns]
    exact hplaces .returns

/-- What is documented is told in lines without line feeds. -/
theorem unbroken_ofText (text : Option String) :
    (∀ name description, (ofText? text).arg name = some description → Unbroken description) ∧
      Unbroken (ofText? text).returns := by
  cases text with
  | none => exact ⟨fun _ _ h => (nomatch h), by decide⟩
  | some s => exact unbroken_parse s

end Documentation

/-- Whether no name in the registry entry of an operation has a line feed. -/
structure OpDef.HasUnbrokenNames (op : OpDef) : Prop where
  name : Unbroken op.name
  inputs : ∀ i ∈ op.inputs, Unbroken i.name
  attrs : ∀ a ∈ op.attrs, Unbroken a.name

namespace Stub

open Lua

/-- What has no line feed in an attribute of a compiled operation. -/
structure IsUnbrokenAttribute (a : Operation.Attribute) : Prop where
  var : Unbroken a.var
  setAttr : (setAttr a).IsUnbroken
  default : ∀ d ∈ a.default, Unbroken d.literal ∧ Unbroken d.doc
  hostType : Unbroken a.hostType
  foreignType : ∀ t ∈ a.foreignType, Unbroken t

/-- What has no line feed in a compiled operation. -/
structure IsUnbrokenOperation (op : Operation) : Prop where
  function : Unbroken op.function
  inputs : ∀ i ∈ op.inputs, Unbroken i.var
  attrs : ∀ a ∈ op.attrs, IsUnbrokenAttribute a
  arg : ∀ name text, op.doc.arg name = some text → Unbroken text
  returns : Unbroken op.doc.returns

theorem isUnbroken_callHandle {name : String} {args : List Expr} (hname : Unbroken name)
    (hargs : Expr.AreUnbroken args) : (callHandle name args).IsUnbroken :=
  ⟨(by decide : Unbroken handle), hname, hargs⟩

theorem unbroken_method (s : Operation.Setter) : Unbroken s.method :=
  unbroken_of_isLine (isLine_of_isName (isName_method s))

theorem unbroken_countVar {op : OpDef} (h : op.HasUnbrokenNames) {attr inputVar : String}
    (hc : Operation.countVar op.inputs attr = some inputVar) : Unbroken inputVar := by
  obtain ⟨arg, harg, rfl⟩ := Option.map_eq_some_iff.1 hc
  exact Naming.unbroken_inputVar (h.inputs arg (List.mem_of_find?_eq_some harg))

theorem isUnbrokenAttribute_of_compiles {op : OpDef} (hn : op.HasUnbrokenNames) {attr : AttrDef}
    (ha : attr ∈ op.attrs) {a : Operation.Attribute}
    (h : Operation.Attribute.Compiles (Operation.countVar op.inputs) attr a) :
    IsUnbrokenAttribute a := by
  have hvar : Unbroken a.var := by
    rw [h.var]
    exact Naming.unbroken_attrVar (hn.attrs attr ha)
  have hident : (Expr.ident a.var).IsUnbroken := hvar
  refine ⟨hvar, ?_, ?_, ?_, ?_⟩
  · rcases h.binding with ⟨inputVar, hc, hb⟩ | ⟨-, setter, -, -, hb⟩
    · have hlen : (Expr.len (.ident inputVar)).IsUnbroken := unbroken_countVar hn hc
      rw [setAttr, hb]
      exact isUnbroken_callHandle (unbroken_method .int) ⟨trivial, hlen, trivial⟩
    · rw [setAttr, hb]
      refine isUnbroken_callHandle (unbroken_method setter) ⟨trivial, ?_, trivial⟩
      split
      · exact ⟨⟨hident, (by decide : Unbroken "_tensor")⟩, hident⟩
      · exact hident
  · intro d hd
    obtain ⟨value, hvalue⟩ := default_cases h hd
    obtain ⟨⟨l, -, hl⟩, hdoc⟩ := Literal.of_default hvalue
    rw [← hl]
    exact ⟨unbroken_of_isLine (Literal.isLine_text l), unbroken_of_isLine hdoc⟩
  · rw [h.hostType]
    cases a.kind <;> cases a.isList <;> decide
  · rw [h.foreignType]
    cases a.kind <;> cases a.isList <;> decide

theorem isUnbrokenOperation_of_compile {op : OpDef} (hn : op.HasUnbrokenNames)
    {text : Option String} {compiled : Operation}
    (h : Operation.compile op (.ofText? text) = .ok compiled) : IsUnbrokenOperation compiled := by
  have hc := Operation.compile_ok h
  obtain ⟨harg, hreturns⟩ := Documentation.unbroken_ofText text
  rw [← hc.doc] at harg hreturns
  refine ⟨?_, ?_, ?_, harg, hreturns⟩
  · rw [hc.function]
    exact Naming.unbroken_functionName hn.name
  · rw [hc.inputs]
    intro i hi
    obtain ⟨arg, harg, rfl⟩ := List.mem_map.1 hi
    exact Naming.unbroken_inputVar (hn.inputs arg harg)
  · obtain ⟨attrs, hattrs, heq⟩ := hc.attrs
    intro a ha
    rw [heq, Operation.mem_requiredFirst] at ha
    obtain ⟨attr, hattr, hc⟩ := exists_of_forall₂ hattrs ha
    exact isUnbrokenAttribute_of_compiles hn (List.mem_of_mem_filter hattr) hc

section
variable {op : Operation} (h : IsUnbrokenOperation op)
include h

theorem areUnbroken_body : Stmt.AreUnbroken (body op) := by
  have hident {name : String} (hname : Unbroken name) : (Expr.ident name).IsUnbroken := hname
  rw [body, Stmt.areUnbroken_iff]
  intro s hs
  simp only [List.mem_append, List.mem_filterMap, List.mem_map, List.mem_singleton] at hs
  rcases hs with (((⟨a, ha, hs⟩ | rfl) | ⟨i, hi, rfl⟩) | ⟨a, ha, rfl⟩) | rfl
  · have hattr := h.attrs a (List.mem_of_mem_filter ha)
    obtain ⟨d, hd, rfl⟩ := Option.map_eq_some_iff.1 hs
    have hvar := hident hattr.var
    have hliteral : (Expr.literal d.literal).IsUnbroken := (hattr.default d hd).1
    exact ⟨⟨hvar, (by decide : Unbroken "nil")⟩, ⟨hvar, hliteral⟩, trivial⟩
  · have hcontext : (Expr.callName getContext []).IsUnbroken := ⟨hident (by decide), trivial⟩
    exact ⟨by decide, hcontext, by decide, trivial, trivial⟩
  · have hvar := hident (h.inputs i hi)
    change (addInput i).IsUnbroken
    unfold addInput
    split
    · exact isUnbroken_callHandle (by decide) ⟨⟨hident (by decide), hvar, trivial⟩, trivial⟩
    · exact isUnbroken_callHandle (by decide) ⟨⟨⟨hvar, by decide⟩, hvar⟩, trivial⟩
  · exact (h.attrs a ha).setAttr
  · have hcall : (callHandle "execute" []).IsUnbroken := isUnbroken_callHandle (by decide) trivial
    cases op.arity with
    | none => exact hcall
    | single => exact ⟨hident (by decide), hcall, trivial⟩
    | many => exact ⟨hident (by decide), hcall, trivial⟩

theorem unbroken_describeAttr {a : Operation.Attribute} (ha : a ∈ op.attrs) :
    Unbroken (describeAttr a (op.doc.arg a.name)) := by
  have hattr := h.attrs a ha
  have hfacts : Unbroken ((a.default.elim "" fun d => "(optional " ++ d.doc ++ ")") ++
      a.foreignType.elim "" fun t => "(" ++ t ++ ")") := by
    refine Unbroken.append ?_ ?_
    · cases hd : a.default with
      | none => decide
      | some d => exact (Unbroken.append (by decide) (hattr.default d hd).2).append (by decide)
    · cases ht : a.foreignType with
      | none => decide
      | some t => exact (Unbroken.append (by decide) (hattr.foreignType t ht)).append (by decide)
  unfold describeAttr
  cases htext : op.doc.arg a.name with
  | none => exact hfacts
  | some text =>
    have hdescription := h.arg a.name text htext
    simp only
    split
    · exact hdescription
    · exact (hfacts.append (by decide)).append hdescription

end

end Stub

end OpStubs
