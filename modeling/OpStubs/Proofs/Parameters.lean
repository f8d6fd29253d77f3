import Mathlib.Data.List.Nodup
import OpStubs.Proofs.Settings

namespace OpStubs

namespace Naming

/-- The names that parameters do not keep, with what they become. -/
def renamings : List (String × String) :=
  ("tensor", "input_tensor") :: ("template", "template_arg") ::
    reservedWords.map fun word => (word, word ++ "_")

theorem escapeReserved_eq_or_mem (name : String) :
    escapeReserved name = name ∨ (name, escapeReserved name) ∈ renamings := by
  unfold escapeReserved
  split
  · rename_i h
    have hmem := List.mem_map_of_mem (f := fun word => (word, word ++ "_")) h
    exact .inr (List.mem_cons_of_mem _ (List.mem_cons_of_mem _ hmem))
  · exact .inl rfl

theorem inputVar_eq_or_mem (name : String) :
    inputVar name = name ∨ (name, inputVar name) ∈ renamings := by
  unfold inputVar
  split
  · rename_i h
    subst h
    exact .inr List.mem_cons_self
  · exact escapeReserved_eq_or_mem name

theorem attrVar_eq_or_mem (name : String) :
    attrVar name = name ∨ (name, attrVar name) ∈ renamings := by
  unfold attrVar
  split
  · rename_i h
    subst h
    exact .inr (List.mem_cons_of_mem _ List.mem_cons_self)
  · exact escapeReserved_eq_or_mem name

theorem renamings_injective : ∀ r ∈ renamings, ∀ r' ∈ renamings, r.2 = r'.2 → r.1 = r'.1 := by
  decide +kernel

/-- What a parameter is renamed to would be kept as a name. -/
theorem renamings_kept : ∀ r ∈ renamings, inputVar r.2 = r.2 ∧ attrVar r.2 = r.2 := by
  decide +kernel

end Naming

namespace OpDef

variable (op : OpDef)

/-- The attributes that a caller gives. -/
def supplied : List AttrDef := op.settings.filter fun attr => (op.counted? attr.name).isNone

/-- The names of what a caller gives, each with the name of its parameter. -/
def parameters : List (String × String) :=
  op.inputs.map (fun input => (input.name, Naming.inputVar input.name)) ++
    op.supplied.map fun attr => (attr.name, Naming.attrVar attr.name)

/-- The names of the inputs and the attributes. -/
def declared : List String := op.inputs.map (·.name) ++ op.attrs.map (·.name)

end OpDef

section
variable {op : OpDef} {doc : Documentation} {compiled : Operation}

theorem supplied_compiles (h : Operation.Compiles op doc compiled) :
    List.Forall₂ (Operation.Attribute.Compiles (Operation.countVar op.inputs)) op.supplied
      compiled.attrParams := by
  refine List.rel_filter ?_ (settings_compiles h)
  intro attr a ha
  simp [derived_eq ha]

theorem params_eq (h : Operation.Compiles op doc compiled) :
    compiled.params = op.parameters.map (·.2) := by
  have hattrs : compiled.attrParams.map (·.var) =
      op.supplied.map fun attr => Naming.attrVar attr.name := by
    have hall := supplied_compiles h
    generalize op.supplied = defs, compiled.attrParams = attrs at hall
    induction hall with
    | nil => rfl
    | cons ha _ ih => rw [List.map_cons, List.map_cons, ha.var, ih]
  rw [Operation.params, hattrs, h.inputs, OpDef.parameters, List.map_append, List.map_map,
    List.map_map, List.map_map]
  rfl

theorem perm_settings (op : OpDef) :
    (op.attrs.filter fun attr => attr.name != "T").Perm op.settings := by
  have hsplit := List.filter_append_perm (fun attr => !op.isOptional attr)
    (op.attrs.filter fun attr => attr.name != "T")
  simpa [OpDef.settings] using hsplit.symm

theorem mem_attrs_of_mem_supplied {attr : AttrDef} (h : attr ∈ op.supplied) : attr ∈ op.attrs :=
  List.mem_of_mem_filter ((perm_settings op).mem_iff.2 (List.mem_of_mem_filter h))

theorem nodup_names (h : op.declared.Nodup) : (op.parameters.map (·.1)).Nodup := by
  obtain ⟨hinputs, hattrs, hdisjoint⟩ := List.nodup_append'.1 h
  have hkept : ((op.attrs.filter fun attr => attr.name != "T").map (·.name)).Nodup :=
    hattrs.sublist (List.filter_sublist.map _)
  have hsettings := ((perm_settings op).map (·.name)).nodup_iff.1 hkept
  have hsupplied : (op.supplied.map (·.name)).Nodup := hsettings.sublist (List.filter_sublist.map _)
  rw [OpDef.parameters, List.map_append, List.map_map, List.map_map]
  refine List.nodup_append'.2 ⟨hinputs, hsupplied, ?_⟩
  intro name hinput hattr
  exact hdisjoint hinput (List.map_subset _ (fun _ => mem_attrs_of_mem_supplied) hattr)

theorem mem_parameters {p : String × String} (h : p ∈ op.parameters) :
    p.2 = Naming.inputVar p.1 ∨ p.2 = Naming.attrVar p.1 := by
  rcases List.mem_append.1 h with h | h
  · obtain ⟨input, -, rfl⟩ := List.mem_map.1 h
    exact .inl rfl
  · obtain ⟨attr, -, rfl⟩ := List.mem_map.1 h
    exact .inr rfl

theorem mem_renamings_of_ne {p : String × String} (h : p ∈ op.parameters) (hne : p.2 ≠ p.1) :
    p ∈ Naming.renamings := by
  rcases mem_parameters h with hp | hp
  · have hmem := (Naming.inputVar_eq_or_mem p.1).resolve_left (by rwa [← hp])
    rwa [← hp] at hmem
  · have hmem := (Naming.attrVar_eq_or_mem p.1).resolve_left (by rwa [← hp])
    rwa [← hp] at hmem

/-- Parameters are distinct exactly if none is renamed to what another one is called. -/
theorem nodup_params_iff (h : Operation.compile op doc = .ok compiled) (hnames : op.declared.Nodup) :
    compiled.params.Nodup ↔
      ∀ p ∈ op.parameters, p.2 ≠ p.1 → p.2 ∉ op.parameters.map (·.1) := by
  have hraw := nodup_names hnames
  have hinj : ∀ p ∈ op.parameters, ∀ q ∈ op.parameters, p.1 = q.1 → p = q :=
    fun p hp q hq => List.inj_on_of_nodup_map hraw hp hq
  rw [params_eq (Operation.compile_ok h), List.nodup_map_iff_inj_on (hraw.of_map _)]
  constructor
  · intro hvars p hp hne hmem
    obtain ⟨q, hq, hqp⟩ := List.mem_map.1 hmem
    have hkept := Naming.renamings_kept p (mem_renamings_of_ne hp hne)
    rw [← hqp] at hkept
    have hq2 : q.2 = q.1 := by
      rcases mem_parameters hq with h | h
      · exact h.trans hkept.1
      · exact h.trans hkept.2
    have hpq := hvars p hp q hq (hqp.symm.trans hq2.symm)
    subst hpq
    exact hne hqp.symm
  · -- Two parameters of one name are both kept, both renamed, or one takes the name of the other.
    intro hfree p hp q hq hpq
    refine hinj p hp q hq ?_
    by_cases hp1 : p.2 = p.1
    · by_cases hq1 : q.2 = q.1
      · rw [← hp1, hpq, hq1]
      · refine absurd ?_ (hfree q hq hq1)
        rw [← hpq, hp1]
        exact List.mem_map_of_mem hp
    · by_cases hq1 : q.2 = q.1
      · refine absurd ?_ (hfree p hp hp1)
        rw [hpq, hq1]
        exact List.mem_map_of_mem hq
      · exact Naming.renamings_injective p (mem_renamings_of_ne hp hp1) q
          (mem_renamings_of_ne hq hq1) hpq

/-- An operation whose parameters are all renamed. -/
def renamedInputs : OpDef :=
  { name := "A", inputs := [{ name := "tensor" }, { name := "end" }]
    attrs := [{ name := "template", kind := "string" }] }

theorem nodup_params_renamedInputs :
    renamedInputs.declared.Nodup ∧ ∃ compiled,
      Operation.compile renamedInputs {} = .ok compiled ∧
      compiled.params = ["input_tensor", "end_", "template_arg"] ∧ compiled.params.Nodup := by
  have hdeclared : renamedInputs.declared.Nodup := by decide
  exact ⟨hdeclared, _, rfl, rfl, (@nodup_params_iff renamedInputs {} _ rfl hdeclared).2 (by decide)⟩

/-- An operation one of whose inputs is called what the other is renamed to. -/
def clashingInputs : OpDef :=
  { name := "A", inputs := [{ name := "tensor" }, { name := "input_tensor" }] }

theorem not_nodup_params_clashingInputs :
    clashingInputs.declared.Nodup ∧ ∃ compiled,
      Operation.compile clashingInputs {} = .ok compiled ∧
      compiled.params = ["input_tensor", "input_tensor"] ∧ ¬ compiled.params.Nodup :=
  ⟨by decide, _, rfl, rfl, by decide⟩

end

end OpStubs
