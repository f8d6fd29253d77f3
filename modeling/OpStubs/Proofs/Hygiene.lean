import OpStubs.Proofs.Execution
import OpStubs.Proofs.Identifier
import OpStubs.Proofs.Lua.Scope
import OpStubs.Proofs.Parameters

namespace OpStubs

open Lua

namespace OpDef

variable (op : OpDef)

/-- The handle of the operation. -/
def handleUse : Use := ⟨"op", some .inner⟩

/-- A local of the module. -/
def outerUse (name : String) : Use := ⟨name, some .outer⟩

/-- The parameter for an input. -/
def inputUse (input : ArgDef) : Use :=
  ⟨Naming.inputVar input.name, some (.param (op.inputs.idxOf input))⟩

/-- The parameter for an attribute. -/
def attrUse (attr : AttrDef) : Use :=
  ⟨Naming.attrVar attr.name, some (.param (op.inputs.length + op.supplied.idxOf attr))⟩

/-- What an attribute's default is filled in with. -/
def defaultUses (attr : AttrDef) : List Use :=
  match attr.defaultValue? with
  | none => []
  | some (.infinity _) => [op.attrUse attr, op.attrUse attr, outerUse "float_infinity"]
  | some _ => [op.attrUse attr, op.attrUse attr]

/-- What an input is passed on with. -/
def inputUses (input : ArgDef) : List Use :=
  if input.isVariadic then [handleUse, outerUse "pack_tfe_handle", op.inputUse input]
  else [handleUse, op.inputUse input, op.inputUse input]

/-- What an attribute is set with. -/
def settingUses (attr : AttrDef) : List Use :=
  match op.counted? attr.name with
  | some input => [handleUse, op.inputUse input]
  | none =>
    if attr.kind = "tensor" then [handleUse, op.attrUse attr, op.attrUse attr]
    else [handleUse, op.attrUse attr]

/-- What the results are handed on with. -/
def resultUses : List Use :=
  match op.outputs with
  | [] => [handleUse]
  | [output] =>
    if output.isVariadic then [outerUse "wrap_result_list", handleUse]
    else [outerUse "parse_execute_results", handleUse]
  | _ => [outerUse "wrap_result_list", handleUse]

/-- What is meant up to the declaration of the handle. -/
def usesBefore : List Use := op.supplied.flatMap op.defaultUses ++ [outerUse "get_context"]

/-- What is meant behind it. -/
def usesAfter : List Use :=
  op.inputs.flatMap op.inputUses ++ op.settings.flatMap op.settingUses ++ op.resultUses

/-- What the names in the function of an operation are meant to stand for. -/
def uses : List Use := op.usesBefore ++ op.usesAfter

end OpDef

/-- What the name of a use stands for. -/
def Lua.Use.seen (env : Env) (u : Use) : Use := env.use u.name

theorem flatMap_of_forall₂ {α β γ : Type} {r : α → β → Prop} {xs : List α} {ys : List β}
    {f : β → List γ} {g : α → List γ} (h : List.Forall₂ r xs ys)
    (hfg : ∀ x ∈ xs, ∀ y, r x y → f y = g x) : ys.flatMap f = xs.flatMap g := by
  induction h with
  | nil => rfl
  | @cons x y xs ys hxy _ ih =>
    obtain ⟨hx, hxs⟩ := List.forall_mem_cons.1 hfg
    rw [List.flatMap_cons, List.flatMap_cons, hx y hxy, ih hxs]

section
variable {op : OpDef} {doc : Documentation} {compiled : Operation}

theorem uses_literal (env : Env) (l : Literal) :
    (Expr.literal l.text).exp.uses env =
      match l.value with
      | .infinity _ => [env.use Operation.infinityLocal]
      | _ => [] := by
  rw [exp_literal]
  cases l with
  | numeral negative n => cases negative <;> rfl
  | infinity negative => cases negative <;> rfl
  | _ => rfl

theorem uses_coalesce (env : Env) {attr : AttrDef} {a : Operation.Attribute}
    (h : Operation.Attribute.Compiles (Operation.countVar op.inputs) attr a)
    (hattr : attr ∈ op.supplied) :
    ((Stub.coalesce a).toList.map Stmt.stat).flatMap (Stat.uses env) =
      (op.defaultUses attr).map (Use.seen env) := by
  have hderived : a.derived = false := by
    rw [derived_eq h]
    have := (List.mem_filter.1 hattr).2
    simpa using this
  rcases default_cases h hderived with ⟨hnone, hvalue⟩ | ⟨d, literal, hd, htext, hvalue⟩
  · rw [Stub.coalesce, hnone, OpDef.defaultUses, hvalue]
    rfl
  · have hnil : (Expr.literal "nil").exp = .nil := exp_literal .nil
    have hliteral := uses_literal env literal
    rw [htext] at hliteral
    have hstat : ((Stub.coalesce a).toList.map Stmt.stat).flatMap (Stat.uses env) =
        env.use a.var :: env.use a.var :: (Expr.literal d.literal).exp.uses env := by
      rw [Stub.coalesce, hd]
      change [Stat.ifThen (.binary (.name a.var) .eq (Expr.literal "nil").exp)
        [.assign (.name a.var) (Expr.literal d.literal).exp]].flatMap (Stat.uses env) = _
      simp [hnil, Stat.uses, Stat.usesAll, Exp.uses]
    rw [hstat, hliteral, OpDef.defaultUses, hvalue, h.var]
    cases literal.value <;> rfl

theorem uses_addInput (op : OpDef) (env : Env) (input : ArgDef) :
    (Stmt.stat (Stub.eval (Stub.addInput (Operation.Input.compile input)))).uses env =
      (op.inputUses input).map (Use.seen env) := by
  unfold Stub.addInput OpDef.inputUses
  cases hv : input.isVariadic with
  | true =>
    rw [if_pos (show (Operation.Input.compile input).variadic = true from hv), if_pos rfl]
    rfl
  | false =>
    rw [if_neg (by simp [Operation.Input.compile, hv]), if_neg (by simp)]
    rfl

theorem uses_setAttr (env : Env) {attr : AttrDef} {a : Operation.Attribute}
    (h : Operation.Attribute.Compiles (Operation.countVar op.inputs) attr a) :
    (Stmt.stat (Stub.eval (Stub.setAttr a))).uses env =
      (op.settingUses attr).map (Use.seen env) := by
  unfold Stub.setAttr OpDef.settingUses
  rcases h.binding with ⟨inputVar, hcount, hbinding⟩ | ⟨hcount, setter, hkind, hlist, hbinding⟩
  · obtain ⟨input, hfind, rfl⟩ := Option.map_eq_some_iff.1 hcount
    have hcounted : op.counted? attr.name = some input := hfind
    rw [hbinding, hcounted]
    rfl
  · have hcounted : op.counted? attr.name = none := Option.map_eq_none_iff.1 hcount
    have htensor : attr.kind = "tensor" ↔ setter.kind = .tensor := by
      rw [kind_eq h, ← hkind, ← hlist, kindText_eq_tensor]
      exact ⟨fun hk => hk.1, fun hk => ⟨hk, setter.supported hk⟩⟩
    rw [hbinding, hcounted, h.var]
    by_cases hk : setter.kind = .tensor
    · simp only [if_pos hk, if_pos (htensor.2 hk)]
      rfl
    · simp only [if_neg hk, if_neg (mt htensor.1 hk)]
      rfl

theorem uses_execute (env : Env) :
    (Stmt.stat (Stub.execute (Operation.Arity.ofOutputs op.outputs))).uses env =
      op.resultUses.map (Use.seen env) := by
  unfold OpDef.resultUses
  cases op.outputs with
  | nil => rfl
  | cons output rest =>
    cases rest with
    | nil =>
      cases hv : output.isVariadic <;> simp only [Operation.Arity.ofOutputs, hv] <;> rfl
    | cons => rfl

/-- A function fills in the defaults, opens the handle, and then only calls. -/
theorem block_body (h : Operation.Compiles op doc compiled) :
    Stmt.block (Stub.body compiled) =
      compiled.attrParams.flatMap (fun a => ((Stub.coalesce a).toList.map Stmt.stat)) ++
        (Stub.newHandle compiled).stat ::
          (op.inputs.map (fun i => (Stub.eval (Stub.addInput (Operation.Input.compile i))).stat) ++
            compiled.attrs.map (fun a => (Stub.eval (Stub.setAttr a)).stat) ++
              [(Stub.execute (Operation.Arity.ofOutputs op.outputs)).stat]) := by
  rw [Stmt.block_eq, Stub.body, h.inputs, h.arity]
  simp [List.filterMap_eq_flatMap_toList, List.map_flatMap, Function.comp_def]

theorem declared?_coalesce (attrs : List Operation.Attribute) :
    ∀ s ∈ attrs.flatMap fun a => ((Stub.coalesce a).toList.map Stmt.stat), s.declared? = none := by
  intro s hs
  obtain ⟨a, -, hs⟩ := List.mem_flatMap.1 hs
  obtain ⟨st, hst, rfl⟩ := List.mem_map.1 hs
  obtain ⟨d, -, rfl⟩ := Option.map_eq_some_iff.1 (Option.mem_toList.1 hst)
  rfl

theorem declared?_calls (inputs : List ArgDef) (attrs : List Operation.Attribute)
    (arity : Operation.Arity) :
    ∀ s ∈ inputs.map (fun i => (Stub.eval (Stub.addInput (Operation.Input.compile i))).stat) ++
      attrs.map (fun a => (Stub.eval (Stub.setAttr a)).stat) ++ [(Stub.execute arity).stat],
    s.declared? = none := by
  intro s hs
  simp only [List.mem_append, List.mem_map, List.mem_singleton] at hs
  rcases hs with (⟨i, -, rfl⟩ | ⟨a, -, rfl⟩) | rfl
  · rfl
  · rfl
  · cases arity <;> rfl

/-- What the names in a function stand for, before the handle is declared and behind it. -/
theorem uses_function (h : Operation.Compiles op doc compiled) (ops : List Operation) :
    (Stub.moduleOf ops).uses (Stub.function compiled) =
      op.usesBefore.map (Use.seen ((Stub.moduleOf ops).env.params 0 compiled.params)) ++
        op.usesAfter.map (Use.seen
          ((Stub.handle, .inner) :: (Stub.moduleOf ops).env.params 0 compiled.params)) := by
  change Stat.usesAll ((Stub.moduleOf ops).env.params 0 compiled.params)
    (Stmt.block (Stub.body compiled)) = _
  generalize (Stub.moduleOf ops).env.params 0 compiled.params = env
  have hbefore := flatMap_of_forall₂ (supplied_compiles h) fun attr hattr a ha =>
    uses_coalesce env ha hattr
  have hset := flatMap_of_forall₂ (settings_compiles h) fun attr _ a ha =>
    uses_setAttr ((Stub.handle, .inner) :: env) ha
  rw [block_body h, Stat.usesAll_append env (declared?_coalesce _), Stat.usesAll]
  change _ ++ ([env.use "get_context"] ++ Stat.usesAll ((Stub.handle, .inner) :: env) _) = _
  rw [Stat.usesAll_of_declared _ (declared?_calls _ _ _), List.flatMap_assoc, hbefore]
  simp only [OpDef.usesBefore, OpDef.usesAfter, List.flatMap_append, List.map_append,
    List.flatMap_map, hset, List.map_flatMap, uses_addInput op, List.flatMap_singleton,
    uses_execute, List.append_assoc]
  rfl

end

/-- The locals of a module that a function may use. -/
def outerNames : List String :=
  ["float_infinity", "get_context", "pack_tfe_handle", "wrap_result_list", "parse_execute_results"]

/-- What may be meant besides the handle: a parameter of that name at its position, or a local of the
module. -/
inductive OpDef.Means (op : OpDef) : Use → Prop
  | param {n : String} {k : Nat} (h : (op.parameters.map (·.2))[k]? = some n) :
    Means op ⟨n, some (.param k)⟩
  | outer {n : String} (h : n ∈ outerNames) : Means op (OpDef.outerUse n)

namespace OpDef

variable {op : OpDef}

theorem map_parameters (op : OpDef) :
    op.parameters.map (·.2) = op.inputs.map (fun input => Naming.inputVar input.name) ++
      op.supplied.map fun attr => Naming.attrVar attr.name := by
  rw [parameters, List.map_append, List.map_map, List.map_map]
  rfl

theorem means_inputUse {input : ArgDef} (h : input ∈ op.inputs) : op.Means (op.inputUse input) := by
  refine .param ?_
  have hlt := List.idxOf_lt_length_of_mem h
  rw [map_parameters, List.getElem?_append_left (by rwa [List.length_map]), List.getElem?_map,
    List.getElem?_idxOf h]
  rfl

theorem means_attrUse {attr : AttrDef} (h : attr ∈ op.supplied) : op.Means (op.attrUse attr) := by
  refine .param ?_
  rw [map_parameters, List.getElem?_append_right (by simp), List.length_map,
    Nat.add_sub_cancel_left, List.getElem?_map, List.getElem?_idxOf h]
  rfl

theorem mem_supplied {attr : AttrDef} :
    attr ∈ op.supplied ↔ attr ∈ op.settings ∧ op.counted? attr.name = none := by
  rw [supplied, List.mem_filter, Option.isNone_iff_eq_none]

theorem means_defaultUses {attr : AttrDef} (h : attr ∈ op.supplied) :
    ∀ u ∈ op.defaultUses attr, op.Means u := by
  have hmeans := means_attrUse h
  have hinfinity : op.Means (outerUse "float_infinity") := .outer (by decide)
  unfold defaultUses
  split
  · simp
  · simp [hmeans, hinfinity]
  · simp [hmeans]

theorem means_usesBefore : ∀ u ∈ op.usesBefore, op.Means u := by
  have hcontext : op.Means (outerUse "get_context") := .outer (by decide)
  refine List.forall_mem_append.2 ⟨?_, by simpa using hcontext⟩
  intro u hu
  obtain ⟨attr, hattr, hu⟩ := List.mem_flatMap.1 hu
  exact means_defaultUses hattr u hu

theorem means_inputUses {input : ArgDef} (h : input ∈ op.inputs) :
    ∀ u ∈ op.inputUses input, u = handleUse ∨ op.Means u := by
  have hmeans := means_inputUse h
  have hpack : op.Means (outerUse "pack_tfe_handle") := .outer (by decide)
  unfold inputUses
  split
  · simp [hmeans, hpack]
  · simp [hmeans]

theorem means_settingUses {attr : AttrDef} (h : attr ∈ op.settings) :
    ∀ u ∈ op.settingUses attr, u = handleUse ∨ op.Means u := by
  unfold settingUses
  split
  · rename_i input hcounted
    simp [means_inputUse (List.mem_of_find?_eq_some hcounted)]
  · rename_i hcounted
    have hmeans := means_attrUse (mem_supplied.2 ⟨h, hcounted⟩)
    split <;> simp [hmeans]

theorem means_resultUses : ∀ u ∈ op.resultUses, u = handleUse ∨ op.Means u := by
  have hlist : op.Means (outerUse "wrap_result_list") := .outer (by decide)
  have hresults : op.Means (outerUse "parse_execute_results") := .outer (by decide)
  unfold resultUses
  split
  · simp
  · split <;> simp [hlist, hresults]
  · simp [hlist]

theorem means_usesAfter : ∀ u ∈ op.usesAfter, u = handleUse ∨ op.Means u := by
  intro u hu
  simp only [usesAfter, List.mem_append, List.mem_flatMap] at hu
  rcases hu with (⟨input, hinput, hu⟩ | ⟨attr, hattr, hu⟩) | hu
  · exact means_inputUses hinput u hu
  · exact means_settingUses hattr u hu
  · exact means_resultUses u hu

theorem handleUse_mem_usesAfter (op : OpDef) : handleUse ∈ op.usesAfter := by
  refine List.mem_append_right _ ?_
  unfold resultUses
  split
  · exact List.mem_cons_self
  · split <;> exact List.mem_cons_of_mem _ List.mem_cons_self
  · exact List.mem_cons_of_mem _ List.mem_cons_self

theorem inputUse_mem_usesAfter {input : ArgDef} (h : input ∈ op.inputs) :
    op.inputUse input ∈ op.usesAfter := by
  have hmem : op.inputUse input ∈ op.inputUses input := by
    unfold inputUses
    split <;> simp
  refine List.mem_append_left _ (List.mem_append_left _ ?_)
  exact List.mem_flatMap.2 ⟨input, h, hmem⟩

theorem attrUse_mem_usesAfter {attr : AttrDef} (h : attr ∈ op.supplied) :
    op.attrUse attr ∈ op.usesAfter := by
  obtain ⟨hsettings, hcounted⟩ := mem_supplied.1 h
  have hmem : op.attrUse attr ∈ op.settingUses attr := by
    unfold settingUses
    rw [hcounted]
    simp only
    split <;> simp
  refine List.mem_append_left _ (List.mem_append_right _ ?_)
  exact List.mem_flatMap.2 ⟨attr, hsettings, hmem⟩

theorem idxOf_le_of_getElem? {α : Type} [DecidableEq α] {l : List α} {x : α} {k : Nat}
    (h : l[k]? = some x) : l.idxOf x ≤ k := by
  have htake : x ∈ l.take (k + 1) := by
    refine List.mem_of_getElem? (i := k) ?_
    rw [List.getElem?_take_of_lt (Nat.lt_succ_self k), h]
  exact Nat.le_of_lt_succ ((List.mem_take_iff_idxOf_lt (List.mem_of_getElem? h)).1 htake)

/-- Each parameter is used. Of equal ones the first is meant. -/
theorem exists_use {n : String} {k : Nat} (h : (op.parameters.map (·.2))[k]? = some n) :
    ∃ i ≤ k, ⟨n, some (.param i)⟩ ∈ op.usesAfter := by
  rw [map_parameters] at h
  by_cases hk : k < op.inputs.length
  · rw [List.getElem?_append_left (by rwa [List.length_map]), List.getElem?_map] at h
    obtain ⟨input, hinput, rfl⟩ := Option.map_eq_some_iff.1 h
    exact ⟨_, idxOf_le_of_getElem? hinput, inputUse_mem_usesAfter (List.mem_of_getElem? hinput)⟩
  · have hle : op.inputs.length ≤ k := Nat.le_of_not_lt hk
    rw [List.getElem?_append_right (by rwa [List.length_map]), List.length_map,
      List.getElem?_map] at h
    obtain ⟨attr, hattr, rfl⟩ := Option.map_eq_some_iff.1 h
    have hidx := idxOf_le_of_getElem? hattr
    exact ⟨_, by omega, attrUse_mem_usesAfter (List.mem_of_getElem? hattr)⟩

end OpDef

theorem lookup_outer (ops : List Operation) {n : String} (h : n ∈ outerNames) :
    (Stub.moduleOf ops).env.lookup n = some .outer ∧ n ≠ Stub.handle := by
  have henv : (Stub.moduleOf ops).env = (Stub.moduleOf []).env := rfl
  have hall : ∀ n ∈ outerNames,
      (Stub.moduleOf []).env.lookup n = some .outer ∧ n ≠ Stub.handle := by
    decide
  rw [henv]
  exact hall n h

theorem map_seen_eq_iff {env : Env} {us : List Use} :
    us.map (Use.seen env) = us ↔ ∀ u ∈ us, env.lookup u.name = u.binder := by
  have hid : us.map (Use.seen env) = us.map id ↔ ∀ u ∈ us, Use.seen env u = u := List.map_inj_left
  rw [List.map_id] at hid
  rw [hid]
  refine forall₂_congr fun u _ => ?_
  obtain ⟨name, binder⟩ := u
  simp [Use.seen, Env.use]

theorem lookup_handle (env : Env) (n : String) :
    ((Stub.handle, Binder.inner) :: env).lookup n =
      if n = Stub.handle then some .inner else env.lookup n := by
  rw [List.lookup_cons]
  by_cases h : n = Stub.handle
  · rw [if_pos h, beq_iff_eq.2 h]
  · rw [if_neg h, beq_eq_false_iff_ne.2 h]

section
variable {op : OpDef} {env : Env}

/-- Where each parameter that is used is the one that is meant, no two are equal. -/
theorem nodup_of_lookup (h : ∀ u ∈ op.usesAfter,
      ((Stub.handle, Binder.inner) :: env.params 0 (op.parameters.map (·.2))).lookup u.name =
        u.binder) : (op.parameters.map (·.2)).Nodup := by
  rw [List.nodup_iff_getElem?_ne_getElem?]
  intro i j hij hj heq
  obtain ⟨n, hn⟩ : ∃ n, (op.parameters.map (·.2))[j]? = some n :=
    ⟨_, List.getElem?_eq_getElem hj⟩
  obtain ⟨k, hk, hmem⟩ := OpDef.exists_use (heq.trans hn)
  have hseen := h _ hmem
  obtain ⟨l, hlookup, -, hlast⟩ := Env.lookup_params_of_mem env (List.mem_of_getElem? hn) 0
  rw [lookup_handle, hlookup] at hseen
  -- The use means the first parameter of the name, but sees the last.
  have hl := hlast j hn
  split at hseen
  · cases hseen
  · simp only [Option.some.injEq, Binder.param.injEq] at hseen
    omega

/-- No parameter is called like a local that is used. -/
theorem not_mem_of_lookup {u : Use}
    (h : ∀ u ∈ op.usesAfter,
      ((Stub.handle, Binder.inner) :: env.params 0 (op.parameters.map (·.2))).lookup u.name =
        u.binder)
    (hu : (env.params 0 (op.parameters.map (·.2))).lookup u.name = u.binder ∨ u ∈ op.usesAfter)
    (hlocal : u.binder = some .inner ∨ u.binder = some .outer) :
    u.name ∉ op.parameters.map (·.2) := by
  intro hmem
  obtain ⟨k, hk⟩ := List.mem_iff_getElem?.1 hmem
  obtain ⟨i, -, hi⟩ := OpDef.exists_use hk
  have hseen := h _ hi
  have hparam : u.binder ≠ some (.param i) := by
    rcases hlocal with hl | hl <;> rw [hl] <;> simp
  rcases hu with hu | hu
  · rw [lookup_handle] at hseen
    split at hseen
    · cases hseen
    · exact hparam (hu.symm.trans hseen)
  · exact hparam ((h u hu).symm.trans hseen)

/-- What is meant is seen if no two parameters are equal and none hides a local that is meant. -/
theorem lookup_of_means (ops : List Operation) {u : Use} (h : op.Means u)
    (hnodup : (op.parameters.map (·.2)).Nodup)
    (hfree : u.binder = some .outer → u.name ∉ op.parameters.map (·.2)) :
    ((Stub.moduleOf ops).env.params 0 (op.parameters.map (·.2))).lookup u.name = u.binder := by
  cases h with
  | param hk => exact Env.lookup_params_of_nodup _ hnodup hk
  | outer hn =>
    exact (Env.lookup_params_of_not_mem _ (hfree rfl) 0).trans (lookup_outer ops hn).1

/-- In the function of an operation each name stands for what it is meant to exactly if the parameters
are distinct and none is called like a local that the function uses. -/
theorem uses_function_iff {doc : Documentation} {compiled : Operation}
    (h : Operation.compile op doc = .ok compiled) (ops : List Operation) :
    (Stub.moduleOf ops).uses (Stub.function compiled) = op.uses ↔
      compiled.params.Nodup ∧ ∀ u ∈ op.uses,
        u.binder = some .inner ∨ u.binder = some .outer → u.name ∉ compiled.params := by
  have hc := Operation.compile_ok h
  rw [uses_function hc ops, params_eq hc, OpDef.uses]
  constructor
  · intro heq
    obtain ⟨hbefore, hafter⟩ := List.append_inj heq (by simp)
    rw [map_seen_eq_iff] at hbefore hafter
    refine ⟨nodup_of_lookup hafter, ?_⟩
    intro u hu hlocal
    exact not_mem_of_lookup hafter ((List.mem_append.1 hu).imp_left (hbefore u)) hlocal
  · rintro ⟨hnodup, hfree⟩
    have hhandle : Stub.handle ∉ op.parameters.map (·.2) :=
      hfree _ (List.mem_append_right _ (OpDef.handleUse_mem_usesAfter op)) (.inl rfl)
    congr 1
    · refine map_seen_eq_iff.2 fun u hu => ?_
      exact lookup_of_means ops (OpDef.means_usesBefore u hu) hnodup fun ho =>
        hfree u (List.mem_append_left _ hu) (.inr ho)
    · refine map_seen_eq_iff.2 fun u hu => ?_
      rw [lookup_handle]
      rcases OpDef.means_usesAfter u hu with rfl | hmeans
      · exact if_pos rfl
      · have hne : u.name ≠ Stub.handle := by
          cases hmeans with
          | param hk => exact ne_of_mem_of_not_mem (List.mem_of_getElem? hk) hhandle
          | outer hn => exact (lookup_outer ops hn).2
        rw [if_neg hne]
        exact lookup_of_means ops hmeans hnodup fun ho =>
          hfree u (List.mem_append_right _ hu) (.inr ho)

theorem uses_function_addN :
    Operation.compile addN {} = .ok addNCompiled ∧
      (Stub.moduleOf [addNCompiled]).uses (Stub.function addNCompiled) = addN.uses := by
  have hcompile : Operation.compile addN {} = .ok addNCompiled := rfl
  exact ⟨hcompile, (uses_function_iff hcompile [addNCompiled]).2 ⟨by decide, by decide⟩⟩

/-- An operation whose input is called like the handle. -/
def handleInput : OpDef := { name := "A", inputs := [{ name := "op" }] }

theorem uses_function_ne_handleInput :
    (∀ n ∈ handleInput.declared, Naming.IsIdentifier n.toList) ∧ handleInput.declared.Nodup ∧
    ∃ compiled, Operation.compile handleInput {} = .ok compiled ∧
      (Stub.moduleOf [compiled]).uses (Stub.function compiled) ≠ handleInput.uses :=
  ⟨by decide, by decide, _, rfl, by decide⟩

end

end OpStubs
