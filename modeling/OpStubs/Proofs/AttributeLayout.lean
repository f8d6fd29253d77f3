import OpStubs.Generate
import OpStubs.Proofs.Settings

namespace OpStubs

open Operation

/-- The kinds of values that attributes have, alone or in lists. -/
def scalarKinds : List String :=
  ["func", "shape", "int", "float", "string", "type", "bool", "tensor"]

theorem splitKind_kindText (kind : AttrKind) (isList : Bool) :
    splitKind (kindText kind isList) = (kind.name, isList) := by
  cases isList <;> cases kind <;> decide

theorem mem_scalarKinds {k : String} : k ∈ scalarKinds ↔ ∃ kind : AttrKind, kind.name = k := by
  change k ∈ AttrKind.all.map AttrKind.name ↔ _
  simp [AttrKind.mem_all]

theorem kindText_eq_listTensor {kind : AttrKind} {isList : Bool} :
    kindText kind isList = "list(tensor)" ↔ kind = .tensor ∧ isList = true := by
  cases isList <;> cases kind <;> decide

theorem setter_of?_isSome_iff {kind : AttrKind} {isList : Bool} :
    (Setter.of? kind isList).isSome = true ↔ ¬ (kind = .tensor ∧ isList = true) := by
  cases isList <;> cases kind <;> decide

namespace OpDef

variable (op : OpDef)

/-- Whether some input has an attribute for the count of its tensors. -/
def IsCount (attr : String) : Prop := ∃ input ∈ op.inputs, input.numberAttr = some attr

/-- Whether the engine can be given an attribute: there are no lists of tensors, but a count is
given whatever its kind. -/
def Supports (attr : AttrDef) : Prop :=
  (∃ k ∈ scalarKinds, attr.kind = k ∨ attr.kind = "list(" ++ k ++ ")") ∧
    (attr.kind = "list(tensor)" → op.IsCount attr.name)

/-- The fault of an attribute that the engine cannot be given. -/
def unsupported (attr : AttrDef) : UnsupportedKind := ⟨op.name, attr.name, attr.kind⟩

variable {op}

theorem isSome_countVar_iff {attr : String} :
    (countVar op.inputs attr).isSome = true ↔ op.IsCount attr := by
  rw [countVar, Option.isSome_map, List.find?_isSome]
  simp [IsCount]

theorem supports_iff {attr : AttrDef} :
    op.Supports attr ↔ ∃ kind isList, attr.kind = kindText kind isList ∧
      (kind = .tensor ∧ isList = true → op.IsCount attr.name) := by
  constructor
  · rintro ⟨⟨k, hk, hkind⟩, hcount⟩
    obtain ⟨kind, rfl⟩ := mem_scalarKinds.1 hk
    rcases hkind with hkind | hkind
    · exact ⟨kind, false, hkind, by simp⟩
    · refine ⟨kind, true, hkind, fun h => hcount ?_⟩
      rw [hkind, h.1]
      rfl
  · rintro ⟨kind, isList, hkind, hcount⟩
    refine ⟨⟨kind.name, mem_scalarKinds.2 ⟨kind, rfl⟩, ?_⟩, fun h => hcount ?_⟩
    · rw [hkind, kindText]
      cases isList
      · exact .inl rfl
      · exact .inr rfl
    · rw [hkind] at h
      exact kindText_eq_listTensor.1 h

/-- An attribute is left out, compiled, or at fault. -/
theorem compile_attribute_cases (attr : AttrDef) :
    (attr.name = "T" ∧ Attribute.compile op.name attr (countVar op.inputs) = .ok none) ∨
    (attr.name ≠ "T" ∧ op.Supports attr ∧
      ∃ a, Attribute.compile op.name attr (countVar op.inputs) = .ok (some a)) ∨
    (attr.name ≠ "T" ∧ ¬ op.Supports attr ∧
      Attribute.compile op.name attr (countVar op.inputs) = .error (op.unsupported attr)) := by
  unfold Attribute.compile
  by_cases hn : attr.name = elementTypeAttr
  · exact .inl ⟨hn, if_pos hn⟩
  · right
    rw [if_neg hn]
    cases hk : AttrKind.ofName? (splitKind attr.kind).1 with
    | none =>
      refine .inr ⟨hn, fun h => ?_, by simp only [hk]; rfl⟩
      obtain ⟨kind, isList, hkind, -⟩ := supports_iff.1 h
      rw [hkind, splitKind_kindText, AttrKind.ofName?_name] at hk
      cases hk
    | some kind =>
      have hkind : attr.kind = kindText kind (splitKind attr.kind).2 := by
        rw [kindText, name_of_ofName hk]
        exact splitKind_eq attr.kind
      simp only [hk]
      cases hc : countVar op.inputs attr.name with
      | some inputVar =>
        have hcount : op.IsCount attr.name := isSome_countVar_iff.1 (by rw [hc]; rfl)
        exact .inl ⟨hn, supports_iff.2 ⟨kind, _, hkind, fun _ => hcount⟩, _, rfl⟩
      | none =>
        have hcount : ¬ op.IsCount attr.name := by
          rw [← isSome_countVar_iff, hc]
          exact Bool.false_ne_true
        cases hs : Setter.of? kind (splitKind attr.kind).2 with
        | none =>
          refine .inr ⟨hn, fun h => ?_, rfl⟩
          have hlist : kind = .tensor ∧ (splitKind attr.kind).2 = true := by
            by_contra hnot
            rw [← setter_of?_isSome_iff, hs] at hnot
            cases hnot
          refine hcount (h.2 ?_)
          rw [hkind]
          exact kindText_eq_listTensor.2 hlist
        | some setter =>
          have hlist : ¬ (kind = .tensor ∧ (splitKind attr.kind).2 = true) :=
            setter_of?_isSome_iff.1 (by rw [hs]; rfl)
          exact .inl ⟨hn, supports_iff.2 ⟨kind, _, hkind, fun h => absurd h hlist⟩, _, rfl⟩

/-- An attribute is taken exactly if it is left out or can be given. -/
theorem exists_compile_attribute_iff {attr : AttrDef} :
    (∃ r, Attribute.compile op.name attr (countVar op.inputs) = .ok r) ↔
      (attr.name ≠ "T" → op.Supports attr) := by
  rcases op.compile_attribute_cases attr with ⟨hn, h⟩ | ⟨hn, hs, a, h⟩ | ⟨hn, hs, h⟩
  · simp [hn, h]
  · simp [hs, h]
  · simp [hn, hs, h]

/-- An attribute is at fault exactly if it cannot be given. -/
theorem compile_attribute_error_iff {attr : AttrDef} {e : UnsupportedKind} :
    Attribute.compile op.name attr (countVar op.inputs) = .error e ↔
      attr.name ≠ "T" ∧ ¬ op.Supports attr ∧ e = op.unsupported attr := by
  rcases op.compile_attribute_cases attr with ⟨hn, h⟩ | ⟨hn, hs, a, h⟩ | ⟨hn, hs, h⟩
  · simp [hn, h]
  · simp [hs, h]
  · simp [hn, hs, h, eq_comm]

/-- An operation is compiled as far as its attributes are. -/
theorem compile_eq (op : OpDef) (doc : Documentation) :
    compile op doc = (op.attrs.mapM fun attr =>
        Attribute.compile op.name attr (countVar op.inputs)).map fun attrs => {
      name := op.name
      function := Naming.functionName op.name
      inputs := op.inputs.map Input.compile
      attrs := requiredFirst (attrs.filterMap id)
      doc
      arity := Arity.ofOutputs op.outputs } := by
  rw [compile, compileAttrs]
  cases op.attrs.mapM fun attr => Attribute.compile op.name attr (countVar op.inputs) <;> rfl

theorem exists_compile_iff {doc : Documentation} :
    (∃ compiled, compile op doc = .ok compiled) ↔
      ∀ attr ∈ op.attrs, attr.name ≠ "T" → op.Supports attr := by
  simp only [← exists_compile_attribute_iff, ← exists_mapM_iff, compile_eq]
  cases op.attrs.mapM fun attr => Attribute.compile op.name attr (countVar op.inputs) with
  | error e => exact iff_of_false nofun nofun
  | ok attrs => exact iff_of_true ⟨_, rfl⟩ ⟨_, rfl⟩

/-- The first attribute that cannot be given is at fault. -/
theorem compile_error_iff {doc : Documentation} {e : UnsupportedKind} :
    compile op doc = .error e ↔ ∃ before attr after, op.attrs = before ++ attr :: after ∧
      (∀ a ∈ before, a.name ≠ "T" → op.Supports a) ∧ attr.name ≠ "T" ∧ ¬ op.Supports attr ∧
      e = op.unsupported attr := by
  simp only [← exists_compile_attribute_iff, ← compile_attribute_error_iff]
  rw [← mapM_error_iff, compile_eq]
  cases op.attrs.mapM fun attr => Attribute.compile op.name attr (countVar op.inputs) with
  | error e' => exact ⟨fun h => by cases h; rfl, fun h => by cases h; rfl⟩
  | ok attrs => exact iff_of_false nofun nofun

/-- What an attribute of an operation is compiled to. A count is bound to the first input that it
counts the tensors of, any other attribute to its own parameter. -/
structure CompilesTo (op : OpDef) (attr : AttrDef) (a : Attribute) : Prop where
  name : a.name = attr.name
  var : a.var = Naming.attrVar attr.name
  kind : attr.kind = kindText a.kind a.isList
  optional : a.optional = op.isOptional attr
  derived : a.derived = true ↔ op.IsCount attr.name
  count : a.derived = true → ∃ before input after, op.inputs = before ++ input :: after ∧
    (∀ i ∈ before, i.numberAttr ≠ some attr.name) ∧ input.numberAttr = some attr.name ∧
    a.binding = .lengthOf (Naming.inputVar input.name)
  given : a.derived = false → ∃ setter, a.binding = .param setter a.var

theorem compilesTo_of_compiles {attr : AttrDef} {a : Attribute}
    (h : Attribute.Compiles (countVar op.inputs) attr a) : op.CompilesTo attr a where
  name := h.name
  var := h.var
  kind := kind_eq h
  optional := optional_eq h
  derived := by rw [h.derived, isSome_countVar_iff]
  count := by
    intro hderived
    rw [h.derived] at hderived
    rcases h.binding with ⟨inputVar, hvar, hbinding⟩ | ⟨hvar, -⟩
    · obtain ⟨input, hfind, hname⟩ := Option.map_eq_some_iff.1 hvar
      obtain ⟨hinput, before, after, hinputs, hbefore⟩ := List.find?_eq_some_iff_append.1 hfind
      refine ⟨before, input, after, hinputs, ?_, by simpa using hinput, by rw [hbinding, hname]⟩
      intro i hi
      simpa using hbefore i hi
    · rw [hvar] at hderived
      cases hderived
  given := by
    intro hderived
    rw [h.derived] at hderived
    rcases h.binding with ⟨inputVar, hvar, -⟩ | ⟨-, setter, -, -, hbinding⟩
    · rw [hvar] at hderived
      cases hderived
    · exact ⟨setter, hbinding⟩

/-- How what an operation is compiled to is laid out: its attributes, without that for the element
type, in order but for the optional ones, which stand behind the others; and its parameters, the
inputs and then what is given of the attributes. -/
structure LaidOut (op : OpDef) (compiled : Operation) : Prop where
  attrs : ∃ attrs, List.Forall₂ op.CompilesTo (op.attrs.filter fun attr => attr.name ≠ "T") attrs ∧
    compiled.attrs = attrs.filter (fun a => !a.optional) ++ attrs.filter fun a => a.optional
  params : compiled.params = op.inputs.map (fun input => Naming.inputVar input.name) ++
    (compiled.attrs.filter fun a => !a.derived).map fun a => a.var
  counted : ∀ a ∈ compiled.attrs, ∀ var, a.binding = .lengthOf var → var ∈ compiled.params

theorem laidOut_of_compile {doc : Documentation} {compiled : Operation}
    (h : compile op doc = .ok compiled) : op.LaidOut compiled := by
  have hc := compile_ok h
  obtain ⟨attrs, hattrs, hordered⟩ := hc.attrs
  have hparams : compiled.params = op.inputs.map (fun input => Naming.inputVar input.name) ++
      (compiled.attrs.filter fun a => !a.derived).map fun a => a.var := by
    rw [Operation.params, hc.inputs, List.map_map]
    rfl
  have hall : List.Forall₂ op.CompilesTo (op.attrs.filter fun attr => attr.name ≠ "T") attrs := by
    have hdefs : (op.attrs.filter fun attr => attr.name ≠ "T") = attrDefs op := by
      simp only [attrDefs, elementTypeAttr, bne, decide_not]
      rfl
    rw [hdefs]
    exact hattrs.imp fun _ _ => compilesTo_of_compiles
  refine ⟨⟨attrs, hall, hordered⟩, hparams, ?_⟩
  intro a ha var hvar
  rw [hordered, mem_requiredFirst] at ha
  obtain ⟨attr, -, hto⟩ := exists_of_forall₂ hall ha
  rw [hparams]
  refine List.mem_append_left _ ?_
  cases hderived : a.derived with
  | true =>
    obtain ⟨before, input, after, hinputs, -, -, hbinding⟩ := hto.count hderived
    rw [hbinding] at hvar
    cases hvar
    exact List.mem_map_of_mem (by rw [hinputs]; simp)
  | false =>
    obtain ⟨setter, hbinding⟩ := hto.given hderived
    rw [hbinding] at hvar
    cases hvar

/-- An operation compiles exactly if each attribute but that for the element type can be given.
Otherwise the first that cannot is at fault. What compiles has the attributes in order. -/
theorem compile_layout (op : OpDef) (doc : Documentation) :
    ((∃ compiled, compile op doc = .ok compiled) ↔
      ∀ attr ∈ op.attrs, attr.name ≠ "T" → op.Supports attr) ∧
    (∀ e, (compile op doc).mapError (GenerateError.compile op.name) = .error e ↔
      ∃ before attr after, op.attrs = before ++ attr :: after ∧
        (∀ a ∈ before, a.name ≠ "T" → op.Supports a) ∧ attr.name ≠ "T" ∧ ¬ op.Supports attr ∧
        e = .compile op.name ⟨op.name, attr.name, attr.kind⟩) ∧
    ∀ compiled, compile op doc = .ok compiled → op.LaidOut compiled := by
  refine ⟨exists_compile_iff, fun e => ?_, fun compiled h => laidOut_of_compile h⟩
  rw [mapError_error_iff]
  constructor
  · rintro ⟨_, h, rfl⟩
    obtain ⟨before, attr, after, hattrs, hbefore, hn, hs, rfl⟩ := compile_error_iff.1 h
    exact ⟨before, attr, after, hattrs, hbefore, hn, hs, rfl⟩
  · rintro ⟨before, attr, after, hattrs, hbefore, hn, hs, rfl⟩
    exact ⟨_, compile_error_iff.2 ⟨before, attr, after, hattrs, hbefore, hn, hs, rfl⟩, rfl⟩

/-- A list stands in front in spite of its default, since none is written for it. -/
example : (compile
    { name := "A", inputs := [{ name := "end", numberAttr := some "N" }]
      attrs := [{ name := "x", kind := "int", default := some (.int 1) },
        { name := "N", kind := "list(tensor)" }, { name := "T", kind := "none" },
        { name := "y", kind := "list(int)", default := some .composite }] } {}).toOption.map
      (fun c => (c.attrs.map (·.name), c.params)) = some (["N", "y", "x"], ["end_", "y", "x"]) := by
  decide

end OpDef

end OpStubs
