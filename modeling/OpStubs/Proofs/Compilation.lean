import OpStubs.Operation.Compile
import OpStubs.Proofs.Traversal

namespace OpStubs.Operation

/-- What a compiled attribute takes from its definition. `countVar` gives the input whose length an
attribute counts. -/
structure Attribute.Compiles (countVar : String → Option String) (attr : AttrDef)
    (compiled : Attribute) : Prop where
  name : compiled.name = attr.name
  var : compiled.var = Naming.attrVar attr.name
  kind : AttrKind.ofName? (splitKind attr.kind).1 = some compiled.kind
  isList : compiled.isList = (splitKind attr.kind).2
  hostType : compiled.hostType =
    if compiled.isList then listType compiled.kind.hostType else compiled.kind.hostType
  foreignType : compiled.foreignType =
    compiled.kind.foreignType.map fun t => if compiled.isList then t ++ "[]" else t
  default : compiled.default =
    if !compiled.derived && !compiled.isList && hasLiteral compiled.kind then
      attr.default.bind (Default.ofValue? compiled.kind)
    else none
  optional : compiled.optional =
    isOptional compiled.kind compiled.isList compiled.derived attr.default
  derived : compiled.derived = (countVar attr.name).isSome
  binding :
    (∃ inputVar, countVar attr.name = some inputVar ∧ compiled.binding = .lengthOf inputVar) ∨
    (countVar attr.name = none ∧ ∃ setter : Setter, setter.kind = compiled.kind ∧
      setter.isList = compiled.isList ∧ compiled.binding = .param setter compiled.var)

theorem Setter.of_eq_some {kind : AttrKind} {isList : Bool} {s : Setter}
    (h : Setter.of? kind isList = some s) : s.kind = kind ∧ s.isList = isList := by
  unfold Setter.of? at h
  split at h
  · cases h
    exact ⟨rfl, rfl⟩
  · cases h

/-- An attribute other than the element type's is compiled by its definition. -/
theorem Attribute.compile_ok {op : String} {attr : AttrDef} {countVar : String → Option String}
    {r : Option Attribute} (h : Attribute.compile op attr countVar = .ok r) :
    (attr.name = elementTypeAttr ∧ r = none) ∨
    (attr.name ≠ elementTypeAttr ∧ ∃ compiled, r = some compiled ∧
      Attribute.Compiles countVar attr compiled) := by
  unfold Attribute.compile at h
  by_cases hn : attr.name = elementTypeAttr
  · rw [if_pos hn] at h
    cases h
    exact .inl ⟨hn, rfl⟩
  · rw [if_neg hn] at h
    refine .inr ⟨hn, ?_⟩
    cases hk : AttrKind.ofName? (splitKind attr.kind).1 with
    | none =>
      simp only [hk] at h
      cases h
    | some kind =>
      simp only [hk] at h
      cases hc : countVar attr.name with
      | some inputVar =>
        simp only [hc] at h
        cases h
        exact ⟨_, rfl, rfl, rfl, hk, rfl, rfl, rfl, rfl, rfl, by rw [hc], .inl ⟨inputVar, hc, rfl⟩⟩
      | none =>
        simp only [hc] at h
        cases hs : Setter.of? kind (splitKind attr.kind).2 with
        | none =>
          simp only [hs] at h
          cases h
        | some setter =>
          simp only [hs] at h
          cases h
          obtain ⟨hsk, hsl⟩ := Setter.of_eq_some hs
          exact ⟨_, rfl, rfl, rfl, hk, rfl, rfl, rfl, rfl, rfl, by rw [hc],
            .inr ⟨hc, setter, hsk, hsl, rfl⟩⟩

/-- The attributes that code is generated for. -/
def attrDefs (op : OpDef) : List AttrDef := op.attrs.filter fun a => a.name != elementTypeAttr

theorem compileAttrs_ok {op : OpDef} {attrs : List Attribute} (h : compileAttrs op = .ok attrs) :
    List.Forall₂ (Attribute.Compiles (countVar op.inputs)) (attrDefs op) attrs := by
  unfold compileAttrs at h
  cases hm : op.attrs.mapM fun attr => Attribute.compile op.name attr (countVar op.inputs) with
  | error e =>
    rw [hm] at h
    cases h
  | ok all =>
    rw [hm] at h
    cases h
    have hall := mapM_ok_iff.1 hm
    unfold attrDefs
    clear hm
    generalize op.attrs = defs at hall
    induction hall with
    | nil => exact .nil
    | @cons attr r defs rs hr _ ih =>
      rcases Attribute.compile_ok hr with ⟨hn, rfl⟩ | ⟨hn, compiled, rfl, hc⟩
      · rw [List.filter_cons_of_neg (by simpa using hn)]
        exact ih
      · rw [List.filter_cons_of_pos (by simpa using hn)]
        exact .cons hc ih

theorem mem_requiredFirst {a : Attribute} {attrs : List Attribute} :
    a ∈ requiredFirst attrs ↔ a ∈ attrs := by
  rw [requiredFirst, List.mem_append, List.mem_filter, List.mem_filter]
  cases a.optional <;> simp

/-- What a compiled operation takes from its definition. -/
structure Compiles (op : OpDef) (doc : Documentation) (compiled : Operation) : Prop where
  name : compiled.name = op.name
  function : compiled.function = Naming.functionName op.name
  inputs : compiled.inputs = op.inputs.map Input.compile
  attrs : ∃ attrs, List.Forall₂ (Attribute.Compiles (countVar op.inputs)) (attrDefs op) attrs ∧
    compiled.attrs = requiredFirst attrs
  doc : compiled.doc = doc
  arity : compiled.arity = Arity.ofOutputs op.outputs

theorem compile_ok {op : OpDef} {doc : Documentation} {compiled : Operation}
    (h : compile op doc = .ok compiled) : Compiles op doc compiled := by
  unfold compile at h
  cases ha : compileAttrs op with
  | error e =>
    rw [ha] at h
    cases h
  | ok attrs =>
    rw [ha] at h
    cases h
    exact ⟨rfl, rfl, rfl, ⟨attrs, compileAttrs_ok ha, rfl⟩, rfl, rfl⟩

end OpStubs.Operation
