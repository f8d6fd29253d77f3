import OpStubs.Proofs.Calls
import OpStubs.Proofs.Lua.Locals
import OpStubs.Proofs.Settings

namespace OpStubs

open Lua Operation

theorem block_append (xs ys : List Stmt) :
    Stmt.block (xs ++ ys) = Stmt.block xs ++ Stmt.block ys := by
  rw [Stmt.block_eq, Stmt.block_eq, Stmt.block_eq, List.map_append]

section Coalesce

variable {w : World} {l : Locals} {params : List String} {f : String → Value} {s : Store}

theorem value_equals_nil (v : Value) : v.equals .nil = decide (v = .nil) := by
  cases v <;> rfl

/-- A parameter that is `nil` gets its default. -/
theorem exec_coalesce {countVar : String → Option String} {attr : AttrDef} {a : Attribute}
    (h : Attribute.Compiles countVar attr a) (hderived : a.derived = false)
    (hl : l.Holds params f) (hp : a.var ∈ params) (hinf : infinityLocal ∉ params) :
    ∃ l', execBlock (Scope.module w) (Stmt.block (Stub.coalesce a).toList) l s = some (none, l', s) ∧
      l'.Holds params (Function.update f a.var (attr.given (f a.var))) := by
  rcases default_cases h hderived with ⟨hnone, hvalue⟩ | ⟨d, literal, hd, htext, hvalue⟩
  · have hgiven : attr.given (f a.var) = f a.var := by
      rw [AttrDef.given, hvalue, Option.getD_none]
      split
      · rename_i hnil
        rw [hnil]
      · rfl
    rw [Stub.coalesce, hnone, hgiven, Function.update_eq_self]
    exact ⟨l, rfl, hl⟩
  · have hvar := hl.lookup_of_mem hp
    have hnil : (Expr.literal "nil").exp = .nil := exp_literal .nil
    have hcondition : eval (Scope.module w) l
        (Expr.equals (.ident a.var) (.literal "nil")).exp s =
          some (.bool (decide (f a.var = .nil)), s) := by
      change eval _ l (.binary (.name a.var) .eq (Expr.literal "nil").exp) s = _
      rw [hnil, eval, eval_local hvar, Option.bind_eq_bind, Option.bind_some]
      simp only [eval, Option.bind_some, value_equals_nil]
    have hliteral : eval (Scope.module w) l (Expr.literal d.literal).exp s =
        some (literal.value, s) := by
      rw [← htext, exp_literal]
      exact literal.eval_exp (Scope.module_infinity w) (hl.lookup_of_not_mem hinf) s
    rw [Stub.coalesce, hd, AttrDef.given, hvalue, Option.getD_some]
    change ∃ l', execBlock _ [.ifThen (Expr.equals (.ident a.var) (.literal "nil")).exp
      [.assign (.name a.var) (Expr.literal d.literal).exp]] l s = _ ∧ _
    by_cases hfnil : f a.var = .nil
    · obtain ⟨l', hassign, hlen, hl'⟩ := hl.assign hp literal.value
      refine ⟨l', ?_, by rwa [if_pos hfnil]⟩
      rw [decide_eq_true hfnil] at hcondition
      have hbody : execBlock (Scope.module w)
          [.assign (.name a.var) (Expr.literal d.literal).exp] l s = some (none, l', s) := by
        rw [execBlock_cons (exec_assign hliteral hassign), execBlock]
      rw [execBlock_cons (exec_ifThen_true hcondition hbody hlen), execBlock]
    · refine ⟨l, ?_, ?_⟩
      · rw [decide_eq_false hfnil] at hcondition
        rw [execBlock_ifThen_false [] hcondition, execBlock]
      · rw [if_neg hfnil, Function.update_eq_self]
        exact hl

/-- All parameters that are `nil` get their defaults. -/
theorem exec_coalesceAll {countVar : String → Option String} {defs : List AttrDef}
    {attrs : List Attribute} (h : List.Forall₂ (Attribute.Compiles countVar) defs attrs)
    (hl : l.Holds params f) (hinf : infinityLocal ∉ params)
    (hmem : ∀ a ∈ attrs, a.derived = false → a.var ∈ params)
    (hnodup : ((attrs.filter fun a => !a.derived).map (·.var)).Nodup) :
    ∃ l' f', execBlock (Scope.module w)
        (Stmt.block ((attrs.filter fun a => !a.derived).filterMap Stub.coalesce)) l s =
          some (none, l', s) ∧ l'.Holds params f' ∧
      (∀ p ∉ (attrs.filter fun a => !a.derived).map (·.var), f' p = f p) ∧
      List.Forall₂ (fun attr a => a.derived = false → f' a.var = attr.given (f a.var))
        defs attrs := by
  induction h generalizing l f with
  | nil => exact ⟨l, f, rfl, hl, fun _ _ => rfl, .nil⟩
  | @cons attr a defs attrs ha hrest ih =>
    have hmem' : ∀ b ∈ attrs, b.derived = false → b.var ∈ params :=
      fun b hb => hmem b (List.mem_cons_of_mem a hb)
    by_cases hderived : a.derived = true
    · rw [List.filter_cons_of_neg (by simp [hderived])] at hnodup ⊢
      obtain ⟨l', f', hexec, hl', hother, hgiven⟩ := ih hl hmem' hnodup
      refine ⟨l', f', hexec, hl', hother, .cons ?_ hgiven⟩
      intro hfalse
      rw [hderived] at hfalse
      cases hfalse
    · rw [Bool.not_eq_true] at hderived
      rw [List.filter_cons_of_pos (by simp [hderived]), List.map_cons] at hnodup ⊢
      obtain ⟨hnot, hnodup'⟩ := List.nodup_cons.1 hnodup
      obtain ⟨l₁, hexec₁, hl₁⟩ := exec_coalesce (w := w) (s := s) ha hderived hl
        (hmem a List.mem_cons_self hderived) hinf
      obtain ⟨l', f', hexec, hl', hother, hgiven⟩ := ih hl₁ hmem' hnodup'
      refine ⟨l', f', ?_, hl', ?_, .cons ?_ ?_⟩
      · have hcons : (a :: attrs.filter fun a => !a.derived).filterMap Stub.coalesce =
            (Stub.coalesce a).toList ++
              (attrs.filter fun a => !a.derived).filterMap Stub.coalesce := by
          rw [List.filterMap_cons]
          cases Stub.coalesce a with
          | none => rfl
          | some st => rfl
        rw [hcons, block_append, execBlock_append hexec₁, hexec]
      · intro p hp
        rw [List.mem_cons, not_or] at hp
        rw [hother p hp.2, Function.update_of_ne hp.1]
      · intro _
        rw [hother _ hnot, Function.update_self]
      · obtain ⟨hlen, hzip⟩ := List.forall₂_iff_zip.1 hgiven
        refine List.forall₂_iff_zip.2 ⟨hlen, fun {attr b} hb hfalse => ?_⟩
        have hmem : b ∈ attrs.filter fun a => !a.derived :=
          List.mem_filter.2 ⟨(List.of_mem_zip hb).2, by simp [hfalse]⟩
        have hne : b.var ≠ a.var := fun heq => hnot (heq ▸ List.mem_map_of_mem hmem)
        rw [hzip hb hfalse, Function.update_of_ne hne]

end Coalesce

section Calls

variable {op : OpDef} {w : World} {l : Locals} {h : Nat} {arg : String → Value}

theorem performs_addInput (haccepts : op.Accepts w arg) {input : ArgDef} (hinput : input ∈ op.inputs)
    (hl : l.lookup Stub.handle = some (.object h)) (hpack : l.lookup Stub.packHandles = none)
    (hvar : l.lookup (Naming.inputVar input.name) = some (arg (Naming.inputVar input.name))) :
    Performs w l (Stub.addInput (Input.compile input)) (OpDef.inputCall w arg h input) := by
  have hhas : w.Has (arg (Naming.inputVar input.name)) := fun id hid => haccepts.exists_table hid
  unfold Stub.addInput OpDef.inputCall Input.compile
  dsimp only
  by_cases hv : input.isVariadic = true
  · obtain ⟨id, hid⟩ := haccepts.variadic input hinput hv
    have hmember := haccepts.member input hinput hv
    rw [if_pos hv, if_pos hv]
    apply performs_callHandle hl
    intro s hs
    rw [hid] at hvar hmember ⊢
    have hmembers := World.getElem_members (haccepts.exists_table hid) hs
    have hcall := (eval_call (s := s) hpack rfl (eval_local hvar s)).trans
      (Scope.module_packHandles w hmembers hmember)
    have hlast : (s.withTable ((w.members (.table id)).map (w.unwrap "_handle"))).item
        (.table s.tables.length) =
          .sequence ((w.members (.table id)).map (w.unwrap "_handle")) := by
      simp [Store.item, Store.withTable]
    refine ⟨_, _, evalAll_one hcall, List.prefix_append _ _, rfl, ?_⟩
    rw [List.map_singleton, hlast]
  · rw [if_neg hv, if_neg hv]
    rw [Bool.not_eq_true] at hv
    apply performs_callHandle hl
    intro s hs
    have hunwrap := eval_unwrap (eval_local (g := Scope.module w) hvar s)
      (haccepts.input input hinput hv) "_handle"
    refine ⟨_, s, evalAll_one hunwrap, List.prefix_rfl, rfl, ?_⟩
    rw [List.map_singleton]
    exact congrArg (fun item => [item]) ((hhas.unwrap "_handle").item_eq hs)

theorem defaultValue_ne_table (attr : AttrDef) (id : Nat) :
    attr.defaultValue? ≠ some (.table id) := by
  intro h
  unfold AttrDef.defaultValue? at h
  split at h
  · cases h
  · cases h
  · cases h
  · unfold floatValue at h
    split at h
    · cases h
    · split at h
      · cases h
      · cases h
  · cases h
  · obtain ⟨_, _, h⟩ := Option.map_eq_some_iff.1 h
    cases h
  · cases h

theorem has_given {v : Value} (hv : w.Has v) (attr : AttrDef) : w.Has (attr.given v) := by
  unfold AttrDef.given
  split
  · intro id hid
    cases hd : attr.defaultValue? with
    | none =>
      rw [hd] at hid
      cases hid
    | some x =>
      rw [hd, Option.getD_some] at hid
      rw [hid] at hd
      exact absurd hd (defaultValue_ne_table attr id)
  · exact hv

theorem kindText_eq_tensor {kind : AttrKind} {isList : Bool} :
    kindText kind isList = "tensor" ↔ kind = .tensor ∧ isList = false := by
  cases isList <;> cases kind <;> decide

theorem counted_of_countVar {attr inputVar : String}
    (hc : countVar op.inputs attr = some inputVar) :
    ∃ input ∈ op.inputs, op.counted? attr = some input ∧ input.isVariadic = true ∧
      inputVar = Naming.inputVar input.name := by
  obtain ⟨input, hfind, hname⟩ := Option.map_eq_some_iff.1 hc
  have hnumber : input.numberAttr = some attr := by
    have hfound := List.find?_some hfind
    simpa using hfound
  refine ⟨input, List.mem_of_find?_eq_some hfind, hfind, ?_, hname.symm⟩
  rw [ArgDef.isVariadic, hnumber]
  rfl

theorem counted_of_countVar_eq_none {attr : String} (hc : countVar op.inputs attr = none) :
    op.counted? attr = none :=
  Option.map_eq_none_iff.1 hc

/-- The value that a parameter is set with. -/
theorem eval_setting (haccepts : op.Accepts w arg) {attr : AttrDef}
    (hattr : attr ∈ op.settings) (hcounted : op.counted? attr.name = none) {s : Store}
    (hvar : l.lookup (Naming.attrVar attr.name) =
      some (attr.given (arg (Naming.attrVar attr.name)))) {isTensor : Bool}
    (htensor : isTensor = true ↔ attr.kind = "tensor") :
    eval (Scope.module w) l
      (if isTensor then .orElse (.member (.ident (Naming.attrVar attr.name)) "_tensor")
          (.ident (Naming.attrVar attr.name))
        else .ident (Naming.attrVar attr.name) : Expr).exp s =
      some (if attr.kind = "tensor" then
          w.unwrap "_tensor" (attr.given (arg (Naming.attrVar attr.name)))
        else attr.given (arg (Naming.attrVar attr.name)), s) := by
  have hlocal := eval_local (g := Scope.module w) hvar s
  by_cases hkind : attr.kind = "tensor"
  · have hfields := haccepts.tensor attr hattr hcounted hkind
    have hgiven : attr.given (arg (Naming.attrVar attr.name)) = arg (Naming.attrVar attr.name) := by
      rw [AttrDef.given, if_neg]
      intro hnil
      rw [hnil] at hfields
      cases hfields
    rw [if_pos (htensor.2 hkind), if_pos hkind]
    rw [hgiven] at hlocal ⊢
    exact eval_unwrap hlocal hfields "_tensor"
  · rw [if_neg (fun h => hkind (htensor.1 h)), if_neg hkind]
    exact hlocal

theorem performs_setAttr (haccepts : op.Accepts w arg) {attr : AttrDef} {a : Attribute}
    (ha : Attribute.Compiles (countVar op.inputs) attr a) (hattr : attr ∈ op.settings)
    (hl : l.lookup Stub.handle = some (.object h))
    (hinputs : ∀ input ∈ op.inputs,
      l.lookup (Naming.inputVar input.name) = some (arg (Naming.inputVar input.name)))
    (hvar : a.derived = false → l.lookup a.var = some (attr.given (arg a.var))) :
    ∃ call, op.attrCall? w arg h attr = some call ∧ Performs w l (Stub.setAttr a) call := by
  unfold OpDef.attrCall? Stub.setAttr
  rcases ha.binding with ⟨inputVar, hc, hbinding⟩ | ⟨hc, setter, hkind, hlist, hbinding⟩
  · obtain ⟨input, hinput, hcounted, hv, rfl⟩ := counted_of_countVar hc
    obtain ⟨id, hid⟩ := haccepts.variadic input hinput hv
    have hlookup := hinputs input hinput
    rw [hid] at hlookup
    rw [hbinding, hcounted]
    refine ⟨_, rfl, performs_callHandle hl _ ?_⟩
    intro s hs
    have hlen : eval (Scope.module w) l (Expr.len (.ident (Naming.inputVar input.name))).exp s =
        some (.number (w.members (.table id)).length, s) := by
      have hmembers := World.getElem_members (haccepts.exists_table hid) hs
      change eval _ l (.unary .length (.name (Naming.inputVar input.name))) s = _
      rw [eval, eval_local hlookup, Option.bind_eq_bind, Option.bind_some]
      simp [List.getD, hmembers]
    refine ⟨_, s, evalAll_named _ hlen, List.prefix_rfl, rfl, ?_⟩
    rw [ha.name, hid]
    rfl
  · have hderived : a.derived = false := by
      rw [ha.derived, hc]
      rfl
    have hcounted := counted_of_countVar_eq_none hc
    have hlookup := hvar hderived
    rw [ha.var] at hlookup
    have hsetter : setters.lookup attr.kind = some setter.method := by
      rw [kind_eq ha, ← hkind, ← hlist]
      exact lookup_setters setter
    have htensor : decide (setter.kind = .tensor) = true ↔ attr.kind = "tensor" := by
      rw [kind_eq ha, ← hkind, ← hlist, kindText_eq_tensor, decide_eq_true_iff]
      exact ⟨fun hk => ⟨hk, setter.supported hk⟩, fun hk => hk.1⟩
    rw [hbinding, hcounted, hsetter, ha.var]
    refine ⟨_, rfl, performs_callHandle hl _ ?_⟩
    intro s hs
    have heval := eval_setting haccepts hattr hcounted (s := s) hlookup htensor
    simp only [decide_eq_true_eq] at heval
    refine ⟨_, s, evalAll_named _ heval, List.prefix_rfl, rfl, ?_⟩
    have hhas : w.Has (if attr.kind = "tensor" then
        w.unwrap "_tensor" (attr.given (arg (Naming.attrVar attr.name)))
      else attr.given (arg (Naming.attrVar attr.name))) := by
      have hgiven : w.Has (attr.given (arg (Naming.attrVar attr.name))) :=
        has_given (fun id hid => haccepts.exists_table hid) attr
      split
      · exact hgiven.unwrap "_tensor"
      · exact hgiven
    rw [List.map_cons, List.map_singleton, hhas.item_eq hs, ha.name]
    rfl

theorem exec_newHandle (hl : l.lookup Stub.getContext = none) (compiled : Operation) (s : Store) :
    execBlock (Scope.module w) (Stmt.block [Stub.newHandle compiled]) l s =
      some (none,
        (Stub.handle, .object (w.newOp (s.calls ++
          [⟨w.context, "newOp", [.value (.string compiled.name)]⟩]))) :: l,
        { s with calls := s.calls ++ [⟨w.context, "newOp", [.value (.string compiled.name)]⟩] }) := by
  have hcontext : eval (Scope.module w) l (.call (.name Stub.getContext) []) s =
      some (.object w.context, s) := by
    rw [eval, eval_global hl]
    simp only [evalAll, Option.bind_eq_bind, Option.bind_some]
    rfl
  have hargs : evalAll (Scope.module w) l [.string compiled.name] s =
      some ([.string compiled.name], s) := by
    simp only [evalAll, eval, Option.bind_eq_bind, Option.bind_some]
  have hdeclare := exec_declare (eval_method hcontext "newOp" hargs) Stub.handle
  exact (execBlock_cons hdeclare).trans (execBlock_nil _ _ _)

/-- Whether a block ends with an item after some calls. -/
def Ends (w : World) (l : Locals) (s : Store) (block : List Stmt) (calls : List Call)
    (item : Item) : Prop :=
  ∃ r s', execBlock (Scope.module w) (Stmt.block block) l s = some (r, l, s') ∧
    s'.calls = calls ∧ s.tables <+: s'.tables ∧ item.Is s' (r.getD .nil)

section Execute

variable {calls : List Call} {s : Store}

/-- What there is after the operation was run. -/
def executed (w : World) (s : Store) (calls : List Call) : Store :=
  Store.withTable ⟨s.tables, calls⟩ (w.execute calls)

theorem eval_execute (hl : l.lookup Stub.handle = some (.object h))
    (hcalls : s.calls ++ [⟨h, "execute", []⟩] = calls) :
    eval (Scope.module w) l (Stub.callHandle "execute" []).exp s =
      some (.table s.tables.length, executed w s calls) := by
  have hargs : evalAll (Scope.module w) l (Expr.expAll []) s = some ([], s) := by
    rw [Expr.expAll, evalAll]
  rw [← hcalls]
  exact eval_callHandle hl "execute" hargs

theorem prefix_executed : s.tables <+: (executed w s calls).tables := List.prefix_append _ _

theorem getElem_executed :
    (executed w s calls).tables[s.tables.length]? = some (w.execute calls) := by
  rw [executed, Store.withTable, List.getElem?_concat_length]

theorem ends_none (hl : l.lookup Stub.handle = some (.object h))
    (hcalls : s.calls ++ [⟨h, "execute", []⟩] = calls) :
    Ends w l s [Stub.execute .none] calls (.value .nil) := by
  refine ⟨none, executed w s calls, ?_, rfl, prefix_executed, rfl⟩
  exact (execBlock_cons (exec_eval (eval_execute hl hcalls))).trans (execBlock_nil _ _ _)

theorem ends_single (hl : l.lookup Stub.handle = some (.object h))
    (hresults : l.lookup Stub.wrapResults = none)
    (hcalls : s.calls ++ [⟨h, "execute", []⟩] = calls) :
    Ends w l s [Stub.execute .single] calls (.ofTensors ((w.execute calls).map w.wrap)) := by
  obtain ⟨v, s', hinvoke, hgives⟩ := Scope.module_wrapResults w (getElem_executed (w := w) (s := s))
  have heval := (eval_call hresults rfl (eval_execute hl hcalls)).trans hinvoke
  exact ⟨some v, s', execBlock_ret [] heval, hgives.calls, prefix_executed.trans hgives.tables,
    hgives.is⟩

theorem ends_many (hl : l.lookup Stub.handle = some (.object h))
    (hlist : l.lookup Stub.wrapList = none)
    (hcalls : s.calls ++ [⟨h, "execute", []⟩] = calls) :
    Ends w l s [Stub.execute .many] calls (.sequence ((w.execute calls).map w.wrap)) := by
  have hget : (executed w s calls).tables[s.tables.length]? = some (w.execute calls) :=
    getElem_executed
  have hinvoke := Scope.module_wrapList w hget
  have hgives := Scope.gives_withTable (executed w s calls) ((w.execute calls).map w.wrap)
  have heval := (eval_call hlist rfl (eval_execute hl hcalls)).trans hinvoke
  exact ⟨some _, _, execBlock_ret [] heval, hgives.calls, prefix_executed.trans hgives.tables,
    hgives.is⟩

/-- The last statement runs the operation and hands its results on. -/
theorem ends_execute (op : OpDef) (hl : l.lookup Stub.handle = some (.object h))
    (hresults : l.lookup Stub.wrapResults = none) (hlist : l.lookup Stub.wrapList = none)
    (hcalls : s.calls ++ [⟨h, "execute", []⟩] = calls) :
    Ends w l s [Stub.execute (Arity.ofOutputs op.outputs)] calls (op.result w calls) := by
  unfold OpDef.result
  match op.outputs with
  | [] => exact ends_none hl hcalls
  | [output] =>
    by_cases hv : output.isVariadic = true
    · simp only [Arity.ofOutputs, hv, if_true]
      exact ends_many hl hlist hcalls
    · simp only [Arity.ofOutputs, hv]
      exact ends_single hl hresults hcalls
  | _ :: _ :: _ => exact ends_many hl hlist hcalls

end Execute

/-- The settings make the calls that the attributes say. -/
theorem performs_settings {f : AttrDef → Option Call} {defs : List AttrDef}
    {attrs : List Attribute}
    (hsets : List.Forall₂
      (fun attr a => ∃ call, f attr = some call ∧ Performs w l (Stub.setAttr a) call) defs attrs) :
    ∃ calls, defs.mapM f = some calls ∧
      List.Forall₂ (Performs w l) (attrs.map Stub.setAttr) calls := by
  induction hsets with
  | nil => exact ⟨[], rfl, .nil⟩
  | @cons attr a defs attrs ha _ ih =>
    obtain ⟨call, hcall, hperforms⟩ := ha
    obtain ⟨calls, hcalls, hrest⟩ := ih
    refine ⟨call :: calls, ?_, .cons hperforms hrest⟩
    rw [List.mapM_cons, hcall, hcalls]
    rfl

end Calls

/-- The names that a function uses besides its parameters. -/
def reserved : List String :=
  ["op", "get_context", "pack_tfe_handle", "wrap_result_list", "parse_execute_results",
   "TFLTensor", "float_infinity"]

section Function

variable {op : OpDef} {doc : Documentation} {compiled : Operation} {w : World}
  {arg : String → Value}

/-- The variables of a function while it makes its calls. -/
structure Ready (op : OpDef) (arg : String → Value) (compiled : Operation) (h : Nat)
    (l : Locals) : Prop where
  handle : l.lookup Stub.handle = some (.object h)
  input : ∀ input ∈ op.inputs,
    l.lookup (Naming.inputVar input.name) = some (arg (Naming.inputVar input.name))
  attr : List.Forall₂ (fun attr a => a.derived = false →
    l.lookup a.var = some (attr.given (arg a.var))) op.settings compiled.attrs
  free : ∀ n ∈ reserved, n ≠ Stub.handle → l.lookup n = none

/-- Defaults are filled in, and the handle is made. -/
theorem exec_prologue (w : World) (arg : String → Value) (hc : Compiles op doc compiled)
    (hnodup : compiled.params.Nodup) (hfree : ∀ p ∈ compiled.params, p ∉ reserved) {create : Call}
    (hcreate : create = ⟨w.context, "newOp", [.value (.string op.name)]⟩) :
    ∃ l, execBlock (Scope.module w)
        (Stmt.block (compiled.attrParams.filterMap Stub.coalesce ++ [Stub.newHandle compiled]))
        (Locals.ofCall compiled.params (compiled.params.map arg)) ⟨w.tables, []⟩ =
          some (none, l, ⟨w.tables, [create]⟩) ∧
      Ready op arg compiled (w.newOp [create]) l := by
  have hinf : infinityLocal ∉ compiled.params := fun h => hfree _ h (by decide)
  have hholds := Locals.holds_ofCall compiled.params arg
  have hattrs : ∀ a ∈ compiled.attrs, a.derived = false → a.var ∈ compiled.params := by
    intro a ha hderived
    rw [Operation.params, List.mem_append]
    exact .inr (List.mem_map_of_mem (List.mem_filter.2 ⟨ha, by simp [hderived]⟩))
  have hinputs : ∀ input ∈ op.inputs,
      Naming.inputVar input.name ∈ compiled.inputs.map (·.var) := by
    intro input hinput
    rw [hc.inputs, List.map_map]
    exact List.mem_map_of_mem (f := (·.var) ∘ Input.compile) hinput
  obtain ⟨l, f, hexec, hl, hother, hgiven⟩ := exec_coalesceAll (w := w) (s := ⟨w.tables, []⟩)
    (settings_compiles hc) hholds hinf hattrs (List.Nodup.of_append_right hnodup)
  have hcontext : l.lookup Stub.getContext = none :=
    hl.lookup_of_not_mem fun h => hfree _ h (by decide)
  have hnew := exec_newHandle (w := w) hcontext compiled ⟨w.tables, []⟩
  rw [hc.name, List.nil_append, ← hcreate] at hnew
  have hready := hl.declare Stub.handle (.object (w.newOp [create]))
  have hparam : ∀ p ∈ compiled.params,
      List.lookup p ((Stub.handle, .object (w.newOp [create])) :: l) = some (f p) := by
    intro p hp
    have hne : p ≠ Stub.handle := fun h => hfree p hp (by rw [h]; decide)
    rw [hready.lookup_of_mem (List.mem_cons_of_mem _ hp), Function.update_of_ne hne]
  refine ⟨(Stub.handle, .object (w.newOp [create])) :: l, ?_, ?_, ?_, ?_, ?_⟩
  · rw [block_append]
    exact (execBlock_append hexec).trans hnew
  · rw [hready.lookup_of_mem List.mem_cons_self, Function.update_self]
  · intro input hinput
    have hnot : Naming.inputVar input.name ∉ compiled.attrParams.map (·.var) :=
      List.disjoint_of_nodup_append hnodup (hinputs input hinput)
    rw [hparam _ (List.mem_append_left _ (hinputs input hinput)), hother _ hnot]
  · obtain ⟨hlen, hzip⟩ := List.forall₂_iff_zip.1 hgiven
    refine List.forall₂_iff_zip.2 ⟨hlen, fun {attr a} ha hderived => ?_⟩
    rw [hparam _ (hattrs a (List.of_mem_zip ha).2 hderived), hzip ha hderived]
  · intro n hn hne
    refine hready.lookup_of_not_mem ?_
    rw [List.mem_cons, not_or]
    exact ⟨hne, fun h => hfree n h hn⟩

/-- A generated function makes exactly the calls of its operation, and its result is what comes of
theirs. -/
theorem function_run (hcompile : Operation.compile op doc = .ok compiled)
    (hnodup : compiled.params.Nodup) (hfree : ∀ p ∈ compiled.params, p ∉ reserved)
    (haccepts : op.Accepts w arg) :
    ∃ v s, (Scope.module w).run (Stub.function compiled) (compiled.params.map arg)
        ⟨w.tables, []⟩ = some (v, s) ∧
      op.calls? w arg = some s.calls ∧ (op.result w s.calls).Is s v ∧ w.tables <+: s.tables := by
  have hc := compile_ok hcompile
  set create : Call := ⟨w.context, "newOp", [.value (.string op.name)]⟩ with hcreate
  obtain ⟨l, hprologue, hready⟩ := exec_prologue w arg hc hnodup hfree hcreate
  have hpack := hready.free Stub.packHandles (by decide) (by decide)
  have hresults := hready.free Stub.wrapResults (by decide) (by decide)
  have hlist := hready.free Stub.wrapList (by decide) (by decide)
  have hinputs : List.Forall₂ (Performs w l) (compiled.inputs.map Stub.addInput)
      (op.inputs.map (OpDef.inputCall w arg (w.newOp [create]))) := by
    rw [hc.inputs, List.map_map, List.forall₂_map_left_iff, List.forall₂_map_right_iff,
      List.forall₂_same]
    intro input hinput
    exact performs_addInput haccepts hinput hready.handle hpack (hready.input input hinput)
  have hsets : List.Forall₂ (fun attr a => ∃ call,
      op.attrCall? w arg (w.newOp [create]) attr = some call ∧
        Performs w l (Stub.setAttr a) call) op.settings compiled.attrs := by
    obtain ⟨hlen, hcompiles⟩ := List.forall₂_iff_zip.1 (settings_compiles hc)
    obtain ⟨-, hgiven⟩ := List.forall₂_iff_zip.1 hready.attr
    refine List.forall₂_iff_zip.2 ⟨hlen, fun {attr a} ha => ?_⟩
    exact performs_setAttr haccepts (hcompiles ha) (List.of_mem_zip ha).1 hready.handle
      hready.input (hgiven ha)
  obtain ⟨sets, hcalls, hperforms⟩ := performs_settings hsets
  have hall : List.Forall₂ (Performs w l)
      (compiled.inputs.map Stub.addInput ++ compiled.attrs.map Stub.setAttr)
      (op.inputs.map (OpDef.inputCall w arg (w.newOp [create])) ++ sets) :=
    List.rel_append hinputs hperforms
  obtain ⟨s₁, hexec, htables, hmade⟩ :=
    execBlock_performs hall (s := ⟨w.tables, [create]⟩) List.prefix_rfl
  obtain ⟨r, s, hend, hmade', htables', hitem⟩ := ends_execute op (w := w) (s := s₁)
    hready.handle hresults hlist rfl
  have hbody : Stub.body compiled =
      (compiled.attrParams.filterMap Stub.coalesce ++ [Stub.newHandle compiled]) ++
        ((compiled.inputs.map Stub.addInput ++ compiled.attrs.map Stub.setAttr).map Stub.eval ++
          [Stub.execute (Arity.ofOutputs op.outputs)]) := by
    rw [Stub.body, hc.arity, List.map_append, List.map_map, List.map_map]
    simp only [List.append_assoc]
    rfl
  have hrun : execBlock (Scope.module w) (Stmt.block (Stub.body compiled))
      (Locals.ofCall compiled.params (compiled.params.map arg)) ⟨w.tables, []⟩ =
        some (r, l, s) := by
    rw [hbody, block_append, execBlock_append hprologue, block_append, execBlock_append hexec, hend]
  refine ⟨r.getD .nil, s, ?_, ?_, ?_, htables.trans htables'⟩
  · exact congrArg (Option.bind · fun r => some (r.1.getD .nil, r.2.2)) hrun
  · rw [OpDef.calls?]
    simp only [← hcreate, hcalls, hmade', hmade, Option.bind_eq_bind, Option.bind_some]
    rfl
  · rw [hmade']
    exact hitem

end Function

/-- An operation that counts its inputs and has an attribute that may be left out. -/
def addN : OpDef where
  name := "AddN"
  inputs := [{ name := "inputs", typeAttr := some "T", numberAttr := some "N" }]
  outputs := [{ name := "sum", typeAttr := some "T" }]
  attrs :=
    [{ name := "axis", kind := "int", default := some (.int 3) }, { name := "N", kind := "int" },
     { name := "T", kind := "type" }]

def addNCompiled : Operation where
  name := "AddN"
  function := Naming.functionName "AddN"
  inputs := [⟨"inputs", "inputs", true⟩]
  attrs :=
    [{ name := "N", var := "N", kind := .int, isList := false, hostType := "number",
       foreignType := some "int64_t", default := none, optional := false, derived := true,
       binding := .lengthOf "inputs" },
     { name := "axis", var := "axis", kind := .int, isList := false, hostType := "number",
       foreignType := some "int64_t", default := some ⟨"3", "3"⟩, optional := true,
       derived := false, binding := .param .int "axis" }]
  doc := {}
  arity := .single

/-- Tensors whose handles are the numbers from 10 on. -/
def pairWorld : World where
  tables := [[.object 1, .object 2]]
  field object name := if name = "_handle" then .object (10 + object) else .nil
  field_lt := by
    intro object name id h
    split at h <;> cases h
  context := 100
  newOp _ := 101
  execute _ := [.object 200]
  reply _ := .nil
  wrap _ := .object 1

theorem function_run_addN :
    ∃ v s, (Scope.module pairWorld).run (Stub.function addNCompiled) [.table 0, .nil]
        ⟨[[.object 1, .object 2]], []⟩ = some (v, s) ∧ v = .object 1 ∧
      s.calls =
        [⟨100, "newOp", [.value (.string "AddN")]⟩,
         ⟨101, "addInputList", [.sequence [.object 11, .object 12]]⟩,
         ⟨101, "setAttrInt", [.value (.string "N"), .value (.number 2)]⟩,
         ⟨101, "setAttrInt", [.value (.string "axis"), .value (.number 3)]⟩,
         ⟨101, "execute", []⟩] := by
  have hcompile : Operation.compile addN {} = .ok addNCompiled := rfl
  have haccepts : addN.Accepts pairWorld fun p => if p = "inputs" then .table 0 else .nil := by
    have hkinds : (addN.settings.all fun attr => attr.kind != "tensor") = true := rfl
    refine ⟨?_, by simp [addN, ArgDef.isVariadic], ?_, ?_, ?_⟩
    · intro p id h
      split at h
      · cases h
        decide
      · cases h
    · intro input hinput _
      obtain rfl := List.mem_singleton.1 hinput
      exact ⟨0, rfl⟩
    · intro input hinput _
      obtain rfl := List.mem_singleton.1 hinput
      exact List.all_eq_true.1 rfl
    · intro attr hattr _ htensor
      have hkind := List.all_eq_true.1 hkinds attr hattr
      rw [htensor] at hkind
      cases hkind
  obtain ⟨v, s, hrun, hcalls, hitem, -⟩ :=
    function_run hcompile (by decide) (by decide) haccepts
  refine ⟨v, s, hrun, hitem, ?_⟩
  have hexpected := Option.some_inj.1 hcalls
  rw [← hexpected]
  rfl

end OpStubs
