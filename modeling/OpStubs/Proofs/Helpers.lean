import OpStubs.Proofs.Lua.Evaluation

namespace OpStubs.Lua

/-- The variables of `Stub.mapList` around its loop. -/
def mapLocals (list : String) (id ret : Nat) : Locals := [("ret", .table ret), (list, .table id)]

/-- What there is after `k` turns of the loop. -/
def mapStore (f : Value → Value) (vs : List Value) (s : Store) (k : Nat) : Store :=
  s.withTable ((vs.take k).map f)

section MapList

variable {g : Scope} {list : String} {value : Expr} {id : Nat} {vs : List Value}
  {f : Value → Value} {s : Store}

/-- Whether an expression is `f` of the member that the loop is at. -/
def Maps (g : Scope) (list : String) (id : Nat) (vs : List Value) (f : Value → Value)
    (value : Exp) : Prop :=
  ∀ (ret k : Nat) {v : Value} {s : Store}, vs[k]? = some v → s.tables[id]? = some vs →
    eval g (("i", .number (k + 1)) :: mapLocals list id ret) value s = some (f v, s)

theorem getElem_mapStore (hvs : s.tables[id]? = some vs) (k : Nat) :
    (mapStore f vs s k).tables[id]? = some vs :=
  Store.getElem_withTable hvs _

/-- One turn of the loop puts the next member at the end. -/
theorem put_mapStore {k : Nat} (hk : k < vs.length) :
    (mapStore f vs s k).put? s.tables.length k (f vs[k]) = some (mapStore f vs s (k + 1)) := by
  have hlen : ((vs.take k).map f).length = k := by
    rw [List.length_map, List.length_take]
    omega
  have hend := s.put_end ((vs.take k).map f) (f vs[k])
  rw [hlen] at hend
  rw [mapStore, mapStore, hend, List.take_add_one, List.getElem?_eq_getElem hk, List.map_append]
  rfl

theorem exec_mapTurn {value : Exp} (hvs : s.tables[id]? = some vs)
    (hvalue : Maps g list id vs f value) {k : Nat} (hk : k < vs.length) :
    execBlock g [.assign (.index (.name "ret") (.name "i")) value]
        (("i", .number (k + 1)) :: mapLocals list id s.tables.length) (mapStore f vs s k) =
      some (none, ("i", .number (k + 1)) :: mapLocals list id s.tables.length,
        mapStore f vs s (k + 1)) := by
  have hret : eval g (("i", .number (k + 1)) :: mapLocals list id s.tables.length) (.name "ret")
      (mapStore f vs s k) = some (.table s.tables.length, mapStore f vs s k) := by
    rw [eval]
    rfl
  have hi : eval g (("i", .number (k + 1)) :: mapLocals list id s.tables.length) (.name "i")
      (mapStore f vs s k) = some (.number (k + 1), mapStore f vs s k) := by
    rw [eval]
    rfl
  have hv := hvalue s.tables.length k (List.getElem?_eq_getElem hk)
    (getElem_mapStore (f := f) hvs k)
  rw [execBlock_cons (exec_put hret hi hv (put_mapStore hk)), execBlock]

theorem toNat_turns (n : Nat) : (((n : Rat) - 1).floor + 1).toNat = n := by
  have hcast : (n : Rat) - 1 = ((n - 1 : Int) : Rat) := by push_cast; rfl
  rw [hcast, Rat.floor_intCast]
  omega

theorem exec_mapLoop (hlist : list ≠ "ret") {value : Exp} (hvs : s.tables[id]? = some vs)
    (hvalue : Maps g list id vs f value) :
    exec g (.count "i" (Expr.literal "1").exp (.unary .length (.name list))
        [.assign (.index (.name "ret") (.name "i")) value])
        (mapLocals list id s.tables.length) (mapStore f vs s 0) =
      some (none, mapLocals list id s.tables.length, mapStore f vs s vs.length) := by
  have hfirst : eval g (mapLocals list id s.tables.length) (Expr.literal "1").exp
      (mapStore f vs s 0) = some (.number (1 : Nat), mapStore f vs s 0) := eval_natural g _ 1 _
  have hlast : eval g (mapLocals list id s.tables.length) (.unary .length (.name list))
      (mapStore f vs s 0) = some (.number vs.length, mapStore f vs s 0) := by
    have hname : (mapLocals list id s.tables.length).lookup list = some (.table id) := by
      simp [mapLocals, List.lookup_cons, beq_eq_false_iff_ne.2 hlist]
    rw [eval, eval, hname]
    simp [List.getD, getElem_mapStore hvs 0]
  have hloop := iterate_of_steps (mapStore f vs s) 0 vs.length
    (l := mapLocals list id s.tables.length)
    (b := fun i l s =>
      (execBlock g [.assign (.index (.name "ret") (.name "i")) value] (("i", .number i) :: l) s).bind
        fun r => some (r.1, Locals.restore l r.2.1, r.2.2))
    fun k _ hk => by
      rw [exec_mapTurn hvs hvalue (by omega)]
      rfl
  rw [Nat.zero_add, Nat.cast_zero, zero_add] at hloop
  rw [exec, hfirst, Option.bind_eq_bind, Option.bind_some]
  simp only [hlast, Option.bind_eq_bind, Option.bind_some, Nat.cast_one, toNat_turns]
  exact hloop

/-- The sequence of what `value` is for each member is made and returned. -/
theorem exec_mapList (hlist : list ≠ "ret") (hvs : s.tables[id]? = some vs)
    (hvalue : Maps g list id vs f value.exp) :
    execBlock g (Stmt.block (Stub.mapList list value)) [(list, .table id)] s =
      some (some (.table s.tables.length), mapLocals list id s.tables.length,
        s.withTable (vs.map f)) := by
  have hdeclare : exec g (.declare "ret" .table) [(list, .table id)] s =
      some (none, mapLocals list id s.tables.length, mapStore f vs s 0) := by
    rw [exec, eval]
    rfl
  have hret : eval g (mapLocals list id s.tables.length) (.name "ret")
      (mapStore f vs s vs.length) = some (.table s.tables.length, mapStore f vs s vs.length) := by
    rw [eval]
    rfl
  change execBlock g [.declare "ret" .table, .count "i" (Expr.literal "1").exp
    (.unary .length (.name list)) [.assign (.index (.name "ret") (.name "i")) value.exp],
    .ret (.name "ret")] _ s = _
  rw [execBlock_cons hdeclare, execBlock_cons (exec_mapLoop hlist hvs hvalue), execBlock, exec,
    hret, mapStore, List.take_length]
  rfl

theorem eval_mapMember {g : Scope} {list : String} (hlist : list ∉ ["i", "ret"]) {id k : Nat}
    {vs : List Value} {v : Value} {s : Store} (ret : Nat) (hvs : s.tables[id]? = some vs)
    (hv : vs[k]? = some v) :
    eval g (("i", .number (k + 1)) :: mapLocals list id ret)
      (.index (.name list) (.name "i")) s = some (v, s) := by
  have hl : (("i", .number (k + 1)) :: mapLocals list id ret).lookup list = some (.table id) := by
    rw [List.mem_cons, List.mem_singleton, not_or] at hlist
    simp [mapLocals, List.lookup_cons, beq_eq_false_iff_ne.2 hlist.1, beq_eq_false_iff_ne.2 hlist.2]
  exact eval_member hl (eval_local rfl s) hvs hv

end MapList

namespace Scope

/-- A scope that has the class of tensors. -/
structure HasTensor (g : Scope) : Prop where
  value : g.value Stub.tensorClass = .function Stub.tensorClass
  invoke : ∀ v s, g.invoke Stub.tensorClass [v] s = some (g.world.wrap v, s)

theorem header_hasTensor (w : World) : (header w).HasTensor := ⟨rfl, fun _ _ => rfl⟩

theorem HasTensor.declare {g : Scope} (h : g.HasTensor) {f : Function}
    (hf : Stub.tensorClass ≠ f.name) : (g.declare f).HasTensor where
  value := (if_neg hf).trans h.value
  invoke v s := (if_neg hf).trans (h.invoke v s)

/-- Members of a sequence become their handles. -/
theorem run_packHandles {g : Scope} {id : Nat} {vs : List Value} {s : Store}
    (hvs : s.tables[id]? = some vs) (hfields : ∀ v ∈ vs, v.hasFields = true) :
    g.run Stub.packHandlesHelper [.table id] s =
      some (.table s.tables.length, s.withTable (vs.map (g.world.unwrap "_handle"))) := by
  have hmaps : Maps g "tensors" id vs (g.world.unwrap "_handle")
      (Stub.unwrapped (.index (.ident "tensors") (.ident "i"))).exp := by
    intro ret k v s hv hs
    have hlist : "tensors" ∉ ["i", "ret"] := by decide
    have hmember := eval_mapMember (g := g) hlist ret hs hv
    exact eval_unwrap hmember (hfields v (List.mem_of_getElem? hv)) "_handle"
  exact run_of_returns (exec_mapList (by decide) hvs hmaps)

/-- Members of a sequence become tensors. -/
theorem run_wrapList {g : Scope} (hg : g.HasTensor) {id : Nat} {vs : List Value} {s : Store}
    (hvs : s.tables[id]? = some vs) :
    g.run Stub.wrapListHelper [.table id] s =
      some (.table s.tables.length, s.withTable (vs.map g.world.wrap)) := by
  have hmaps : Maps g "res" id vs g.world.wrap
      (Expr.callName Stub.tensorClass [.index (.ident "res") (.ident "i")]).exp := by
    intro ret k v s hv hs
    have hlist : "res" ∉ ["i", "ret"] := by decide
    have hmember := eval_mapMember (g := g) hlist ret hs hv
    exact (eval_call rfl hg.value hmember).trans (hg.invoke v s)
  exact run_of_returns (exec_mapList (by decide) hvs hmaps)

/-- Whether a run gave an item. It made no calls and left the sequences that there were. -/
structure Gives (s : Store) (item : Item) (v : Value) (s' : Store) : Prop where
  calls : s'.calls = s.calls
  tables : s.tables <+: s'.tables
  is : item.Is s' v

theorem gives_withTable (s : Store) (vs : List Value) :
    Gives s (.sequence vs) (.table s.tables.length) (s.withTable vs) where
  calls := rfl
  tables := List.prefix_append _ _
  is := ⟨_, rfl, by rw [Store.withTable, List.getElem?_concat_length]⟩

/-- Results become tensors: `nil` for none, a tensor for one, a sequence for more. -/
theorem run_wrapResults {g : Scope} (hg : g.HasTensor)
    (hvalue : g.value Stub.wrapList = .function Stub.wrapList)
    (hinvoke : ∀ {id vs s}, s.tables[id]? = some vs → g.invoke Stub.wrapList [.table id] s =
      some (.table s.tables.length, s.withTable (vs.map g.world.wrap)))
    {id : Nat} {vs : List Value} {s : Store} (hvs : s.tables[id]? = some vs) :
    ∃ v s', g.run Stub.wrapResultsHelper [.table id] s = some (v, s') ∧
      Gives s (.ofTensors (vs.map g.world.wrap)) v s' := by
  have hl : List.lookup "res" (Locals.ofCall ["res"] [.table id]) = some (.table id) := rfl
  have hzero := eval_lengthEquals (g := g) hl hvs 0
  have hone := eval_lengthEquals (g := g) hl hvs 1
  match vs, hvs with
  | [], hvs =>
    have hnil : eval g (Locals.ofCall ["res"] [.table id]) (Expr.literal "nil").exp s =
        some (.nil, s) := by
      have hexp : (Expr.literal "nil").exp = .nil := exp_literal .nil
      rw [hexp, eval]
    have hrun : g.run Stub.wrapResultsHelper [.table id] s = some (.nil, s) :=
      run_of_returns (execBlock_ifThen_ret _ hzero hnil)
    exact ⟨.nil, s, hrun, rfl, List.prefix_rfl, rfl⟩
  | [v], hvs =>
    have hmember : eval g (Locals.ofCall ["res"] [.table id])
        (.index (.name "res") (Expr.literal "1").exp) s = some (v, s) := by
      refine eval_member hl (k := 0) ?_ hvs rfl
      rw [Nat.cast_zero, zero_add, ← Nat.cast_one]
      exact eval_natural g _ 1 s
    have htensor := (eval_call rfl hg.value hmember).trans (hg.invoke v s)
    have hrun : g.run Stub.wrapResultsHelper [.table id] s = some (g.world.wrap v, s) :=
      run_of_returns
        ((execBlock_ifThen_false _ hzero).trans (execBlock_ifThen_ret _ hone htensor))
    exact ⟨_, s, hrun, rfl, List.prefix_rfl, rfl⟩
  | v :: w :: rest, hvs =>
    have hcall := (eval_call (g := g) rfl hvalue (eval_local hl s)).trans (hinvoke hvs)
    have hrun : g.run Stub.wrapResultsHelper [.table id] s =
        some (.table s.tables.length, s.withTable ((v :: w :: rest).map g.world.wrap)) :=
      run_of_returns ((execBlock_ifThen_false _ hzero).trans
        ((execBlock_ifThen_false _ hone).trans (execBlock_ret [] hcall)))
    exact ⟨_, _, hrun, gives_withTable _ _⟩

section Module

variable (w : World)

theorem module_infinity : (module w).value Operation.infinityLocal = .infinity false := rfl

theorem module_packHandles {id : Nat} {vs : List Value} {s : Store} (hvs : s.tables[id]? = some vs)
    (hfields : ∀ v ∈ vs, v.hasFields = true) :
    (module w).invoke Stub.packHandles [.table id] s =
      some (.table s.tables.length, s.withTable (vs.map (w.unwrap "_handle"))) :=
  run_packHandles (g := header w) hvs hfields

theorem module_wrapList {id : Nat} {vs : List Value} {s : Store} (hvs : s.tables[id]? = some vs) :
    (module w).invoke Stub.wrapList [.table id] s =
      some (.table s.tables.length, s.withTable (vs.map w.wrap)) :=
  run_wrapList ((header_hasTensor w).declare (by decide)) hvs

theorem module_wrapResults {id : Nat} {vs : List Value} {s : Store}
    (hvs : s.tables[id]? = some vs) :
    ∃ v s', (module w).invoke Stub.wrapResults [.table id] s = some (v, s') ∧
      Gives s (.ofTensors (vs.map w.wrap)) v s' := by
  have htensor := ((header_hasTensor w).declare (f := Stub.packHandlesHelper) (by decide)).declare
    (f := Stub.wrapListHelper) (by decide)
  exact run_wrapResults htensor rfl (module_wrapList w) hvs

end Module

end Scope

end OpStubs.Lua
