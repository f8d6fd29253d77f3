import OpStubs.Proofs.Compilation
import OpStubs.Proofs.Defaults

namespace OpStubs

open Lua Operation

/-- How the registry writes the kind of an attribute. -/
def kindText (kind : AttrKind) (isList : Bool) : String :=
  if isList then "list(" ++ kind.name ++ ")" else kind.name

theorem splitKind_eq (s : String) :
    s = if (splitKind s).2 then "list(" ++ (splitKind s).1 ++ ")" else (splitKind s).1 := by
  unfold splitKind
  split
  · rename_i inner h
    obtain ⟨rest, hopen, hclose⟩ := Option.bind_eq_some_iff.1 h
    rw [List.isPrefixOf?_eq_some_iff_append_eq] at hopen
    rw [List.isSuffixOf?_eq_some_iff_append_eq] at hclose
    have hinner : (String.ofList inner).toList = inner := String.toList_ofList
    rw [if_pos rfl, ← String.toList_inj, String.toList_append, String.toList_append, hinner,
      ← hopen, ← hclose, List.append_assoc]
    rfl
  · rfl

theorem name_of_ofName {s : String} {kind : AttrKind} (h : AttrKind.ofName? s = some kind) :
    kind.name = s := by
  have hfound := List.find?_some h
  simpa using hfound

theorem kind_eq {countVar : String → Option String} {attr : AttrDef} {compiled : Attribute}
    (h : Attribute.Compiles countVar attr compiled) :
    attr.kind = kindText compiled.kind compiled.isList := by
  rw [kindText, h.isList, name_of_ofName h.kind]
  exact splitKind_eq attr.kind

theorem lookup_setters (s : Setter) :
    setters.lookup (kindText s.kind s.isList) = some s.method := by
  obtain ⟨kind, isList, supported⟩ := s
  cases isList with
  | false => cases kind <;> rfl
  | true =>
    cases kind with
    | tensor => exact absurd (supported rfl) (by decide)
    | _ => rfl

theorem isOptional_kindText (kind : AttrKind) (isList : Bool) :
    ["func", "int", "float", "string", "type", "bool"].contains (kindText kind isList) =
      (!isList && kind != .shape && kind != .tensor) := by
  cases isList <;> cases kind <;> rfl

theorem derived_eq {op : OpDef} {attr : AttrDef} {compiled : Attribute}
    (h : Attribute.Compiles (countVar op.inputs) attr compiled) :
    compiled.derived = (op.counted? attr.name).isSome := by
  rw [h.derived, countVar, Option.isSome_map]
  rfl

theorem optional_eq {op : OpDef} {attr : AttrDef} {compiled : Attribute}
    (h : Attribute.Compiles (countVar op.inputs) attr compiled) :
    compiled.optional = op.isOptional attr := by
  rw [h.optional, Operation.isOptional, OpDef.isOptional, derived_eq h, kind_eq h,
    isOptional_kindText]

/-- The attributes are set in the order of their definitions. -/
theorem settings_compiles {op : OpDef} {doc : Documentation} {compiled : Operation}
    (h : Compiles op doc compiled) :
    List.Forall₂ (Attribute.Compiles (countVar op.inputs)) op.settings compiled.attrs := by
  obtain ⟨attrs, hattrs, hordered⟩ := h.attrs
  rw [hordered]
  refine List.rel_append (List.rel_filter ?_ hattrs) (List.rel_filter ?_ hattrs)
  · intro attr a ha
    simp only [optional_eq ha]
  · intro attr a ha
    simp only [optional_eq ha]

theorem defaultValue_of_not_literal {attr : AttrDef} {kind : AttrKind} {isList : Bool}
    (hkind : attr.kind = kindText kind isList) (h : (!isList && hasLiteral kind) = false) :
    attr.defaultValue? = none := by
  unfold AttrDef.defaultValue?
  rw [hkind]
  cases isList with
  | false =>
    cases kind with
    | shape => rfl
    | tensor => rfl
    | func => rfl
    | _ => cases h
  | true => cases kind <;> rfl

theorem defaultValue_of_literal {attr : AttrDef} {kind : AttrKind}
    (hkind : attr.kind = kindText kind false) (hlit : hasLiteral kind = true) :
    attr.defaultValue? = (attr.default.bind (Literal.ofValue? kind)).map Literal.value := by
  unfold AttrDef.defaultValue?
  rw [hkind]
  cases attr.default with
  | none => cases kind <;> rfl
  | some value =>
    cases kind with
    | int =>
      cases value with
      | int i => exact congrArg some (Literal.value_ofInt i).symm
      | _ => rfl
    | bool =>
      cases value with
      | bool b => rfl
      | _ => rfl
    | string =>
      cases value with
      | string s => rfl
      | _ => rfl
    | float =>
      cases value with
      | float x => exact congrArg some (Literal.value_ofFloat x).symm
      | _ => rfl
    | type =>
      cases value with
      | type t => exact congrArg some (Literal.value_ofInt t.code).symm
      | int code =>
        change (ElementType.ofCode? code).map _ = ((ElementType.ofCode? code).map _).map _
        cases ElementType.ofCode? code with
        | none => rfl
        | some t => exact congrArg some (Literal.value_ofInt code).symm
      | _ => rfl
    | shape => cases hlit
    | tensor => cases hlit
    | func => cases hlit

/-- A compiled default is a literal for the default of the definition. -/
theorem default_cases {countVar : String → Option String} {attr : AttrDef} {compiled : Attribute}
    (h : Attribute.Compiles countVar attr compiled) (hderived : compiled.derived = false) :
    (compiled.default = none ∧ attr.defaultValue? = none) ∨
    ∃ d, ∃ literal : Literal, compiled.default = some d ∧ literal.text = d.literal ∧
      attr.defaultValue? = some literal.value := by
  have hdefault := h.default
  have hkind := kind_eq h
  by_cases hlit : (!compiled.isList && hasLiteral compiled.kind) = true
  · obtain ⟨hlist, hhas⟩ := Bool.and_eq_true_iff.1 hlit
    rw [Bool.not_eq_true'] at hlist
    rw [hlist] at hkind
    rw [defaultValue_of_literal hkind hhas]
    rw [hderived, hlist, hhas] at hdefault
    cases hv : attr.default with
    | none =>
      rw [hv] at hdefault
      exact .inl ⟨hdefault, rfl⟩
    | some value =>
      rw [hv] at hdefault
      rw [Option.bind_some]
      cases hd : Default.ofValue? compiled.kind value with
      | none =>
        have htext := Literal.text_ofValue compiled.kind value
        rw [hd, Option.map_none, Option.map_eq_none_iff] at htext
        exact .inl ⟨hdefault.trans hd, by rw [htext, Option.map_none]⟩
      | some d =>
        obtain ⟨⟨literal, hliteral, htext⟩, -⟩ := Literal.of_default hd
        exact .inr ⟨d, literal, hdefault.trans hd, htext, by rw [hliteral, Option.map_some]⟩
  · left
    rw [Bool.not_eq_true] at hlit
    refine ⟨?_, defaultValue_of_not_literal hkind hlit⟩
    rw [hdefault, hderived, Bool.not_false, Bool.true_and, hlit]
    rfl

end OpStubs
