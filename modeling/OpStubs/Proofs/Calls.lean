import OpStubs.Proofs.Helpers
import OpStubs.Proofs.Lua.PrintRead

namespace OpStubs.Lua

theorem World.call_spec (w : World) (object : Nat) (method : String) (args : List Value)
    (s : Store) :
    (w.call object method args s).2.calls = s.calls ++ [⟨object, method, args.map s.item⟩] ∧
      s.tables <+: (w.call object method args s).2.tables := by
  unfold World.call
  dsimp only
  split
  · exact ⟨rfl, List.prefix_rfl⟩
  · split
    · exact ⟨rfl, List.prefix_append _ _⟩
    · exact ⟨rfl, List.prefix_rfl⟩

namespace World

variable (w : World)

/-- Whether a value that is a sequence is one of the caller. -/
def Has (v : Value) : Prop := ∀ id, v = .table id → id < w.tables.length

variable {w}

theorem Has.unwrap {v : Value} (h : w.Has v) (field : String) : w.Has (w.unwrap field v) := by
  intro id hid
  cases v with
  | object o =>
    rw [World.unwrap] at hid
    split at hid
    · exact w.field_lt hid
    · cases hid
  | table t => exact h id hid
  | _ => cases hid

theorem Has.item_eq {v : Value} (h : w.Has v) {s : Store} (hs : w.tables <+: s.tables) :
    s.item v = w.item v := by
  cases v with
  | table id =>
    have hlt := h id rfl
    have hget : s.tables[id]? = w.tables[id]? := by
      obtain ⟨rest, hrest⟩ := hs
      rw [← hrest, List.getElem?_append_left hlt]
    simp [World.item, Store.item, List.getD, hget]
  | _ => rfl

theorem getElem_members {id : Nat} (h : id < w.tables.length) {s : Store}
    (hs : w.tables <+: s.tables) : s.tables[id]? = some (w.members (.table id)) := by
  obtain ⟨rest, hrest⟩ := hs
  rw [← hrest, List.getElem?_append_left h, World.members, List.getD,
    List.getElem?_eq_getElem h, Option.getD_some]

end World

/-- Whether an expression makes one call, whatever calls were made before. -/
def Performs (w : World) (l : Locals) (e : Expr) (call : Call) : Prop :=
  ∀ s, w.tables <+: s.tables → ∃ v s', eval (Scope.module w) l e.exp s = some (v, s') ∧
    w.tables <+: s'.tables ∧ s'.calls = s.calls ++ [call]

section Calls

variable {w : World} {l : Locals} {h : Nat}

theorem eval_method {g : Scope} {object : Exp} {args : List Exp} {id : Nat} {vs : List Value}
    {s s' : Store} (ho : eval g l object s = some (.object id, s)) (method : String)
    (hargs : evalAll g l args s = some (vs, s')) :
    eval g l (.method object method args) s = some (g.world.call id method vs s') := by
  rw [eval, ho, Option.bind_eq_bind, Option.bind_some]
  simp only [hargs, Option.bind_eq_bind, Option.bind_some]

theorem eval_callHandle (hl : l.lookup Stub.handle = some (.object h)) (method : String)
    {args : List Expr} {vs : List Value} {s s' : Store}
    (hargs : evalAll (Scope.module w) l (Expr.expAll args) s = some (vs, s')) :
    eval (Scope.module w) l (Stub.callHandle method args).exp s =
      some (w.call h method vs s') :=
  eval_method (eval_local hl s) method hargs

theorem performs_callHandle (hl : l.lookup Stub.handle = some (.object h)) (method : String)
    {args : List Expr} {items : List Item}
    (hargs : ∀ s, w.tables <+: s.tables → ∃ vs s',
      evalAll (Scope.module w) l (Expr.expAll args) s = some (vs, s') ∧
        s.tables <+: s'.tables ∧ s'.calls = s.calls ∧ vs.map s'.item = items) :
    Performs w l (Stub.callHandle method args) ⟨h, method, items⟩ := by
  intro s hs
  obtain ⟨vs, s', heval, htables, hcalls, hitems⟩ := hargs s hs
  obtain ⟨hcall, hkeep⟩ := w.call_spec h method vs s'
  rw [hcalls, hitems] at hcall
  exact ⟨_, _, eval_callHandle hl method heval, (hs.trans htables).trans hkeep, hcall⟩

theorem evalAll_one {g : Scope} {e : Expr} {s s' : Store} {v : Value}
    (he : eval g l e.exp s = some (v, s')) :
    evalAll g l (Expr.expAll [e]) s = some ([v], s') := by
  simp only [Expr.expAll, evalAll, he, Option.bind_eq_bind, Option.bind_some]

theorem evalAll_named {g : Scope} (t : String) {e : Expr} {s s' : Store} {v : Value}
    (he : eval g l e.exp s = some (v, s')) :
    evalAll g l (Expr.expAll [.str t, e]) s = some ([.string t, v], s') := by
  simp only [Expr.expAll, Expr.exp, evalAll, eval, he, Option.bind_eq_bind, Option.bind_some]

theorem execBlock_performs {es : List Expr} {calls : List Call}
    (hes : List.Forall₂ (Performs w l) es calls) {s : Store} (hs : w.tables <+: s.tables) :
    ∃ s', execBlock (Scope.module w) (Stmt.block (es.map Stub.eval)) l s = some (none, l, s') ∧
      w.tables <+: s'.tables ∧ s'.calls = s.calls ++ calls := by
  induction hes generalizing s with
  | nil => exact ⟨s, rfl, hs, (List.append_nil _).symm⟩
  | @cons e call es calls he _ ih =>
    obtain ⟨v, s₁, heval, hs₁, hcalls₁⟩ := he s hs
    obtain ⟨s', hexec, hs', hcalls⟩ := ih hs₁
    refine ⟨s', ?_, hs', by rw [hcalls, hcalls₁, List.append_assoc]; rfl⟩
    have hst : exec (Scope.module w) (Stub.eval e).stat l s = some (none, l, s₁) := by
      change exec _ (.eval e.exp) l s = _
      rw [exec, heval]
      rfl
    rw [List.map_cons, Stmt.block, execBlock_cons hst, hexec]

end Calls

end OpStubs.Lua
