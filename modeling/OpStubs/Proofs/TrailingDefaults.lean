import OpStubs.Proofs.AttributeLayout
import OpStubs.Proofs.Parameters
import OpStubs.Stub

namespace OpStubs

open Lua Operation

/-- Whether a value is one of a scalar kind that can be written. An element type may be given by its
code. -/
inductive AttrValue.Fits : AttrValue → String → Prop
  | int (i : Int) : Fits (.int i) "int"
  | float (x : Number.Binary32) : Fits (.float x) "float"
  | bool (b : Bool) : Fits (.bool b) "bool"
  | string (s : String) : Fits (.string s) "string"
  | type (t : ElementType) : Fits (.type t) "type"
  | code {code : Int} (h : (ElementType.ofCode? code).isSome = true) : Fits (.int code) "type"

/-- Gives `p` the value written `text` where it is `nil`. -/
def Lua.Stmt.coalescing (p text : String) : Stmt :=
  .ifThen (.equals (.ident p) (.literal "nil")) [.simple (.assign (.ident p) (.literal text))]

/-- Whether some statement gives `p` a default. -/
def Lua.Coalesces (body : List Stmt) (p : String) : Prop := ∃ text, Stmt.coalescing p text ∈ body

namespace OpDef

variable (op : OpDef)

instance (attr : String) : Decidable (op.IsCount attr) :=
  inferInstanceAs (Decidable (∃ input ∈ op.inputs, input.numberAttr = some attr))

/-- Whether an attribute is a scalar with a default that is neither a shape nor a tensor, and it is
no count of tensors. -/
def HasDefault (attr : AttrDef) : Prop :=
  attr.name ≠ "T" ∧ attr.default ≠ none ∧ attr.kind ∈ scalarKinds ∧ attr.kind ≠ "shape" ∧
    attr.kind ≠ "tensor" ∧ ¬ op.IsCount attr.name

instance (attr : AttrDef) : Decidable (op.HasDefault attr) :=
  inferInstanceAs (Decidable (_ ∧ _ ∧ _ ∧ _ ∧ _ ∧ _))

/-- The attributes with a default, in the order of their definitions. -/
def defaulted : List AttrDef := op.attrs.filter fun attr => op.HasDefault attr

/-- The attributes that a caller cannot leave out, in the order of their definitions. -/
def required : List AttrDef :=
  op.attrs.filter fun attr => attr.name ≠ "T" ∧ ¬ op.IsCount attr.name ∧ ¬ op.HasDefault attr

/-- Whether each default is a value of its kind, and functions have none. -/
structure DefaultsFit : Prop where
  value : ∀ attr ∈ op.attrs, attr.kind ∈ ["int", "float", "bool", "string", "type"] →
    ∀ v, attr.default = some v → v.Fits attr.kind
  func : ∀ attr ∈ op.attrs, attr.kind = "func" → attr.default = none

variable {op}

theorem counted_eq_none_iff {attr : String} : op.counted? attr = none ↔ ¬ op.IsCount attr := by
  rw [← isSome_countVar_iff, countVar, Option.isSome_map, Option.not_isSome_iff_eq_none]
  rfl

/-- What may have a default that can be written is what stands among the optional attributes. -/
theorem isOptional_iff_hasDefault {attr : AttrDef} (hname : attr.name ≠ "T")
    (hcount : ¬ op.IsCount attr.name) : op.isOptional attr = true ↔ op.HasDefault attr := by
  have hkinds : attr.kind ∈ ["func", "int", "float", "string", "type", "bool"] ↔
      attr.kind ∈ scalarKinds ∧ attr.kind ≠ "shape" ∧ attr.kind ≠ "tensor" := by
    constructor
    · intro h
      simp only [List.mem_cons, List.not_mem_nil, or_false] at h
      rcases h with h | h | h | h | h | h <;> rw [h] <;> decide
    · intro ⟨h, hshape, htensor⟩
      simp only [scalarKinds, List.mem_cons, List.not_mem_nil, or_false] at h ⊢
      simpa [hshape, htensor] using h
  have hcounted : (op.counted? attr.name).isSome = false := by
    rw [counted_eq_none_iff.2 hcount]
    rfl
  rw [OpDef.isOptional, hcounted, Bool.false_or, Bool.and_eq_true, List.contains_iff_mem, hkinds,
    Option.isSome_iff_ne_none]
  simp only [HasDefault, hname, hcount, ne_eq, not_false_eq_true, true_and, and_true]

/-- The attributes that a caller gives are the required ones and then those with a default. -/
theorem supplied_eq : op.supplied = op.required ++ op.defaulted := by
  have hkeep (keep : AttrDef → Bool) (p : AttrDef → Prop) [DecidablePred p]
      (h : ∀ attr : AttrDef, attr.name ≠ "T" → ¬ op.IsCount attr.name → (keep attr = true ↔ p attr)) :
      (((op.attrs.filter fun attr => attr.name != "T").filter keep).filter fun attr =>
        (op.counted? attr.name).isNone) =
        op.attrs.filter fun attr => attr.name ≠ "T" ∧ ¬ op.IsCount attr.name ∧ p attr := by
    rw [List.filter_filter, List.filter_filter]
    apply List.filter_congr
    intro attr _
    by_cases hname : attr.name = "T"
    · simp [hname]
    by_cases hcount : op.IsCount attr.name
    · have hsome : op.counted? attr.name ≠ none := by simp [counted_eq_none_iff, hcount]
      simp [hname, hcount, hsome]
    · have hnone := counted_eq_none_iff.2 hcount
      simp [hname, hcount, hnone, ← h attr hname hcount]
  have hrequired := hkeep (fun attr => !op.isOptional attr) (fun attr => ¬ op.HasDefault attr) <| by
    intro attr hname hcount
    rw [← isOptional_iff_hasDefault hname hcount]
    simp
  have hdefaulted := hkeep op.isOptional op.HasDefault fun attr => isOptional_iff_hasDefault
  rw [supplied, settings, List.filter_append, hrequired, hdefaulted, required, defaulted]
  congr 1
  apply List.filter_congr
  intro attr _
  rw [decide_eq_decide]
  exact ⟨fun h => h.2.2, fun h => ⟨h.1, h.2.2.2.2.2, h⟩⟩

theorem mem_kinds_of_defaultValue {attr : AttrDef} {v : Value} (h : attr.defaultValue? = some v) :
    attr.default ≠ none ∧ attr.kind ∈ ["int", "bool", "string", "float", "type"] := by
  unfold AttrDef.defaultValue? at h
  split at h
  · simp_all
  · simp_all
  · simp_all
  · simp_all
  · simp_all
  · simp_all
  · cases h

/-- A default that fits its attribute has a value. -/
theorem exists_defaultValue_of_fits {attr : AttrDef} {v : AttrValue} (h : attr.default = some v)
    (hfits : v.Fits attr.kind) : ∃ x, attr.defaultValue? = some x := by
  obtain ⟨name, kind, default⟩ := attr
  cases h
  cases hfits with
  | int i => exact ⟨_, rfl⟩
  | float x => exact ⟨_, rfl⟩
  | bool b => exact ⟨_, rfl⟩
  | string s => exact ⟨_, rfl⟩
  | type t => exact ⟨_, rfl⟩
  | @code c hc =>
    obtain ⟨t, ht⟩ := Option.isSome_iff_exists.1 hc
    refine ⟨.number c, ?_⟩
    change (ElementType.ofCode? c).map _ = _
    rw [ht, Option.map_some]

/-- Where the defaults fit, a default can be written exactly if the attribute has one. -/
theorem DefaultsFit.hasDefault_iff (hfit : op.DefaultsFit) {attr : AttrDef} (hmem : attr ∈ op.attrs)
    (hname : attr.name ≠ "T") (hcount : ¬ op.IsCount attr.name) :
    op.HasDefault attr ↔ ∃ v, attr.defaultValue? = some v := by
  constructor
  · intro ⟨_, hdefault, hkind, hshape, htensor, _⟩
    obtain ⟨v, hv⟩ := Option.ne_none_iff_exists'.1 hdefault
    refine exists_defaultValue_of_fits hv (hfit.value attr hmem ?_ v hv)
    have hfunc : attr.kind ≠ "func" := by
      intro h
      exact hdefault (hfit.func attr hmem h)
    simp only [scalarKinds, List.mem_cons, List.not_mem_nil, or_false] at hkind ⊢
    simp only [hshape, htensor, hfunc, false_or, or_false] at hkind
    tauto
  · intro ⟨v, hv⟩
    obtain ⟨hdefault, hkind⟩ := mem_kinds_of_defaultValue hv
    refine ⟨hname, hdefault, ?_, ?_, ?_, hcount⟩
    all_goals
      simp only [List.mem_cons, List.not_mem_nil, or_false] at hkind
      rcases hkind with h | h | h | h | h <;> rw [h] <;> decide

/-- Whether a statement gives the parameter of an attribute its default where it is `nil`. -/
def CoalescesTo (attr : AttrDef) (s : Stmt) : Prop :=
  ∃ literal : Literal, attr.defaultValue? = some literal.value ∧
    s = .coalescing (Naming.attrVar attr.name) literal.text

/-- An attribute that a caller gives is coalesced exactly if it has a default. -/
theorem DefaultsFit.coalesce_cases (hfit : op.DefaultsFit) {attr : AttrDef} {a : Attribute}
    (h : Attribute.Compiles (countVar op.inputs) attr a) (hmem : attr ∈ op.attrs)
    (hname : attr.name ≠ "T") (hcount : ¬ op.IsCount attr.name) :
    (op.HasDefault attr ∧ ∃ s, Stub.coalesce a = some s ∧ CoalescesTo attr s) ∨
    (¬ op.HasDefault attr ∧ Stub.coalesce a = none) := by
  have hderived : a.derived = false := by
    rw [derived_eq h, counted_eq_none_iff.2 hcount]
    rfl
  rw [hfit.hasDefault_iff hmem hname hcount]
  rcases default_cases h hderived with ⟨hnone, hvalue⟩ | ⟨d, literal, hd, htext, hvalue⟩
  · right
    rw [hvalue, Stub.coalesce, hnone]
    exact ⟨by simp, rfl⟩
  · left
    rw [Stub.coalesce, hd, Option.map_some, ← htext, h.var]
    exact ⟨⟨_, hvalue⟩, _, rfl, literal, hvalue, rfl⟩

/-- The attributes with a default are coalesced in their order. -/
theorem DefaultsFit.coalesced (hfit : op.DefaultsFit) {defs : List AttrDef} {attrs : List Attribute}
    (h : List.Forall₂ (Attribute.Compiles (countVar op.inputs)) defs attrs)
    (hdefs : ∀ attr ∈ defs, attr ∈ op.attrs ∧ attr.name ≠ "T" ∧ ¬ op.IsCount attr.name) :
    List.Forall₂ CoalescesTo (defs.filter fun attr => op.HasDefault attr)
      (attrs.filterMap Stub.coalesce) := by
  induction h with
  | nil => exact .nil
  | @cons attr a defs attrs ha _ ih =>
    obtain ⟨⟨hmem, hname, hcount⟩, hrest⟩ := List.forall_mem_cons.1 hdefs
    have htail := ih hrest
    rcases hfit.coalesce_cases ha hmem hname hcount with ⟨hhas, s, hs, hto⟩ | ⟨hhas, hs⟩
    · rw [List.filter_cons_of_pos (by simpa using hhas), List.filterMap_cons_some hs]
      exact .cons hto htail
    · rw [List.filter_cons_of_neg (by simpa using hhas), List.filterMap_cons_none hs]
      exact htail

/-- Where no attribute without a default stands behind one with a default, none that is not coalesced
stands behind one that is. -/
theorem DefaultsFit.pairwise_coalesce (hfit : op.DefaultsFit) {defs : List AttrDef}
    {attrs : List Attribute}
    (h : List.Forall₂ (Attribute.Compiles (countVar op.inputs)) defs attrs)
    (hdefs : ∀ attr ∈ defs, attr ∈ op.attrs ∧ attr.name ≠ "T" ∧ ¬ op.IsCount attr.name)
    (hlast : defs.Pairwise fun a b => op.HasDefault a → op.HasDefault b) :
    attrs.Pairwise fun a b =>
      (Stub.coalesce a).isSome = true → (Stub.coalesce b).isSome = true := by
  have hcoalesce {attr : AttrDef} {a : Attribute}
      (ha : Attribute.Compiles (countVar op.inputs) attr a) (hmem : attr ∈ op.attrs)
      (hname : attr.name ≠ "T") (hcount : ¬ op.IsCount attr.name) :
      (Stub.coalesce a).isSome = true ↔ op.HasDefault attr := by
    rcases hfit.coalesce_cases ha hmem hname hcount with ⟨hhas, s, hs, -⟩ | ⟨hhas, hs⟩
    · simp [hs, hhas]
    · simp [hs, hhas]
  induction h with
  | nil => exact .nil
  | @cons attr a defs attrs ha hrest ih =>
    obtain ⟨⟨hmem, hname, hcount⟩, hdefs⟩ := List.forall_mem_cons.1 hdefs
    obtain ⟨hfirst, hlast⟩ := List.pairwise_cons.1 hlast
    refine List.pairwise_cons.2 ⟨?_, ih hdefs hlast⟩
    intro b hb hsome
    obtain ⟨other, hother, hcompiles⟩ := exists_of_forall₂ hrest hb
    obtain ⟨hmem', hname', hcount'⟩ := hdefs other hother
    rw [hcoalesce ha hmem hname hcount] at hsome
    rw [hcoalesce hcompiles hmem' hname' hcount']
    exact hfirst other hother hsome

theorem supplied_pairwise :
    op.supplied.Pairwise fun a b => op.HasDefault a → op.HasDefault b := by
  have hdefaulted {attr : AttrDef} (h : attr ∈ op.defaulted) : op.HasDefault attr :=
    of_decide_eq_true (List.mem_filter.1 h).2
  have hrequired {attr : AttrDef} (h : attr ∈ op.required) : ¬ op.HasDefault attr :=
    (of_decide_eq_true (List.mem_filter.1 h).2).2.2
  rw [supplied_eq]
  refine List.pairwise_append.2 ⟨?_, ?_, fun _ _ _ hb _ => hdefaulted hb⟩
  · apply List.pairwise_of_forall_mem_list
    intro a ha _ _ hhas
    exact absurd hhas (hrequired ha)
  · apply List.pairwise_of_forall_mem_list
    intro _ _ b hb _
    exact hdefaulted hb

theorem mem_supplied_iff {attr : AttrDef} :
    attr ∈ op.supplied ↔ attr ∈ op.attrs ∧ attr.name ≠ "T" ∧ ¬ op.IsCount attr.name := by
  rw [supplied_eq, List.mem_append, required, defaulted, List.mem_filter, List.mem_filter,
    decide_eq_true_eq, decide_eq_true_eq]
  constructor
  · rintro (⟨hmem, hname, hcount, -⟩ | ⟨hmem, hhas⟩)
    · exact ⟨hmem, hname, hcount⟩
    · exact ⟨hmem, hhas.1, hhas.2.2.2.2.2⟩
  · intro ⟨hmem, hname, hcount⟩
    by_cases hhas : op.HasDefault attr
    · exact .inr ⟨hmem, hhas⟩
    · exact .inl ⟨hmem, hname, hcount, hhas⟩

theorem filter_supplied : (op.supplied.filter fun attr => op.HasDefault attr) = op.defaulted := by
  have hrequired : (op.required.filter fun attr => op.HasDefault attr) = [] := by
    apply List.filter_eq_nil_iff.2
    intro attr hmem
    have h := of_decide_eq_true (List.mem_filter.1 hmem).2
    simpa using h.2.2
  rw [supplied_eq, List.filter_append, hrequired, List.nil_append, defaulted, List.filter_filter]
  simp only [Bool.and_self]

end OpDef

/-- The parameters of a function in their order, each with the statement that gives it a default. -/
def Stub.slots (op : Operation) : List (String × Option Stmt) :=
  op.inputs.map (fun input => (input.var, none)) ++ op.attrParams.map fun a => (a.var, coalesce a)

/-- How the parameters with a default stand in the signature and the body of a function: they are
the last ones, they and no others are coalesced, and the body starts with that. Parameters are told
apart by their places, since two of them may have one name. -/
structure OpDef.DefaultsTrail (op : OpDef) (compiled : Operation) : Prop where
  params : compiled.params = op.inputs.map (fun input => Naming.inputVar input.name) ++
    op.required.map (fun attr => Naming.attrVar attr.name) ++
      op.defaulted.map fun attr => Naming.attrVar attr.name
  coalesced : ∀ p, Coalesces (Stub.body compiled) p ↔
    p ∈ op.defaulted.map fun attr => Naming.attrVar attr.name
  slots : (Stub.slots compiled).map Prod.fst = compiled.params
  own : ∀ p s, (p, some s) ∈ Stub.slots compiled → ∃ text, s = .coalescing p text
  last : (Stub.slots compiled).Pairwise fun p q => p.2.isSome = true → q.2.isSome = true
  body : ∃ calls, Stub.body compiled = (Stub.slots compiled).filterMap Prod.snd ++ calls ∧
    List.Forall₂ OpDef.CoalescesTo op.defaulted ((Stub.slots compiled).filterMap Prod.snd) ∧
    ∀ p, ¬ Coalesces calls p

section
variable {op : OpDef} {doc : Documentation} {compiled : Operation}

theorem coalesces_append {xs ys : List Stmt} {p : String} :
    Coalesces (xs ++ ys) p ↔ Coalesces xs p ∨ Coalesces ys p := by
  simp only [Coalesces, List.mem_append, exists_or]

theorem coalesces_iff {defs : List AttrDef} {statements : List Stmt}
    (h : List.Forall₂ OpDef.CoalescesTo defs statements) {p : String} :
    Coalesces statements p ↔ p ∈ defs.map fun attr => Naming.attrVar attr.name := by
  induction h with
  | nil => simp [Coalesces]
  | @cons attr s defs statements hto _ ih =>
    obtain ⟨literal, -, rfl⟩ := hto
    have hone : Coalesces [.coalescing (Naming.attrVar attr.name) literal.text] p ↔
        p = Naming.attrVar attr.name := by
      simp [Coalesces, Stmt.coalescing, Expr.equals]
    rw [← List.singleton_append, coalesces_append, hone, ih, List.map_cons, List.mem_cons]

/-- What follows the defaults in a body holds no condition. -/
theorem exists_calls (compiled : Operation) :
    ∃ calls, Stub.body compiled = compiled.attrParams.filterMap Stub.coalesce ++ calls ∧
      ∀ p, ¬ Coalesces calls p := by
  refine ⟨[Stub.newHandle compiled] ++ compiled.inputs.map (fun i => Stub.eval (Stub.addInput i)) ++
    compiled.attrs.map (fun a => Stub.eval (Stub.setAttr a)) ++ [Stub.execute compiled.arity],
    by simp only [Stub.body, List.append_assoc], ?_⟩
  intro p
  have hexecute : ¬ Coalesces [Stub.execute compiled.arity] p := by
    cases compiled.arity <;> simp [Coalesces, Stub.execute, Stmt.coalescing, Stub.eval, Stub.ret]
  simp only [coalesces_append, hexecute, or_false]
  simp [Coalesces, Stmt.coalescing, Stub.newHandle, Stub.declare, Stub.eval]

theorem map_fst_slots (compiled : Operation) :
    (Stub.slots compiled).map Prod.fst = compiled.params := by
  simp only [Stub.slots, List.map_append, List.map_map]
  rfl

theorem filterMap_snd_slots (compiled : Operation) :
    (Stub.slots compiled).filterMap Prod.snd = compiled.attrParams.filterMap Stub.coalesce := by
  have hinputs : (compiled.inputs.map fun input => (input.var, (none : Option Stmt))).filterMap
      Prod.snd = [] := by
    rw [List.filterMap_map]
    exact List.filterMap_eq_nil_iff.2 fun _ _ => rfl
  rw [Stub.slots, List.filterMap_append, hinputs, List.nil_append, List.filterMap_map]
  rfl

theorem coalescing_of_mem_slots {p : String} {s : Stmt} (h : (p, some s) ∈ Stub.slots compiled) :
    ∃ text, s = .coalescing p text := by
  rcases List.mem_append.1 h with hinput | hattr
  · obtain ⟨_, _, heq⟩ := List.mem_map.1 hinput
    cases (Prod.mk.inj heq).2
  · obtain ⟨a, _, heq⟩ := List.mem_map.1 hattr
    obtain ⟨rfl, hs⟩ := Prod.mk.inj heq
    obtain ⟨d, _, rfl⟩ := Option.map_eq_some_iff.1 hs
    exact ⟨d.literal, rfl⟩

/-- Where the defaults fit their attributes, the parameters that have one are the last of the
signature, and the function begins by giving them theirs. -/
theorem defaulted_params_trail (hfit : op.DefaultsFit)
    (h : Operation.compile op doc = .ok compiled) : op.DefaultsTrail compiled := by
  have hc := compile_ok h
  have hstatements : List.Forall₂ OpDef.CoalescesTo op.defaulted
      (compiled.attrParams.filterMap Stub.coalesce) := by
    rw [← OpDef.filter_supplied]
    exact hfit.coalesced (supplied_compiles hc) fun attr => OpDef.mem_supplied_iff.1
  have hparams : compiled.params = op.inputs.map (fun input => Naming.inputVar input.name) ++
      op.required.map (fun attr => Naming.attrVar attr.name) ++
        op.defaulted.map fun attr => Naming.attrVar attr.name := by
    rw [params_eq hc, OpDef.parameters, OpDef.supplied_eq]
    simp only [List.map_append, List.map_map, List.append_assoc]
    rfl
  obtain ⟨calls, hbody, hcalls⟩ := exists_calls compiled
  have hcoalesced : ∀ p, Coalesces (Stub.body compiled) p ↔
      p ∈ op.defaulted.map fun attr => Naming.attrVar attr.name := by
    intro p
    rw [hbody, coalesces_append, coalesces_iff hstatements]
    exact or_iff_left (hcalls p)
  have hlast : (Stub.slots compiled).Pairwise fun p q => p.2.isSome = true → q.2.isSome = true := by
    have hattrs := hfit.pairwise_coalesce (supplied_compiles hc)
      (fun attr => OpDef.mem_supplied_iff.1) OpDef.supplied_pairwise
    refine List.pairwise_append.2 ⟨?_, List.pairwise_map.2 hattrs, ?_⟩
    · apply List.pairwise_map.2
      exact List.pairwise_of_forall fun _ _ hsome => absurd hsome (by simp)
    · intro p hp _ _ hsome
      obtain ⟨_, _, rfl⟩ := List.mem_map.1 hp
      cases hsome
  rw [← filterMap_snd_slots] at hbody hstatements
  exact ⟨hparams, hcoalesced, map_fst_slots compiled, fun _ _ => coalescing_of_mem_slots, hlast,
    calls, hbody, hstatements, hcalls⟩

/-- An operation with a count, a default that is a code and one that cannot be written. -/
def paddedOp : OpDef where
  name := "Pad"
  inputs := [{ name := "values", numberAttr := some "N" }]
  attrs :=
    [{ name := "N", kind := "int", default := some (.int 2) },
     { name := "axis", kind := "int", default := some (.int (-1)) },
     { name := "T", kind := "type" },
     { name := "mode", kind := "string" },
     { name := "to", kind := "type", default := some (.int 9) },
     { name := "shape", kind := "shape", default := some .composite }]

theorem defaulted_params_trail_paddedOp :
    paddedOp.DefaultsFit ∧ ∃ compiled, Operation.compile paddedOp {} = .ok compiled ∧
      compiled.params = ["values", "mode", "shape", "axis", "to"] ∧
      paddedOp.DefaultsTrail compiled := by
  have hfit : paddedOp.DefaultsFit := by
    refine ⟨?_, by decide⟩
    simp only [paddedOp, List.forall_mem_cons]
    refine ⟨?_, ?_, ?_, ?_, ?_, ?_, by simp⟩
    · rintro - v ⟨⟩
      exact .int 2
    · rintro - v ⟨⟩
      exact .int (-1)
    · rintro - v ⟨⟩
    · rintro - v ⟨⟩
    · rintro - v ⟨⟩
      exact .code rfl
    · intro h
      simp at h
  exact ⟨hfit, _, rfl, rfl, defaulted_params_trail hfit rfl⟩

end

end OpStubs
