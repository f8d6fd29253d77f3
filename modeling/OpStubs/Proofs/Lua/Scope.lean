import OpStubs.Proofs.Lua.PrintRead

namespace OpStubs.Lua

/-- What a declaration of a name is. -/
inductive Binder where
  /-- A local of the module. -/
  | outer
  /-- A parameter, by its position. -/
  | param (position : Nat)
  /-- A local of a function. -/
  | inner
  deriving DecidableEq, Repr

/-- The declarations that a piece of code sees, the last one first. -/
abbrev Env := List (String × Binder)

/-- A name in the code and its declaration. A global has none. -/
structure Use where
  name : String
  binder : Option Binder
  deriving DecidableEq, Repr

namespace Env

def use (env : Env) (name : String) : Use := ⟨name, env.lookup name⟩

/-- Declares parameters, the first at a position. -/
def params (env : Env) : Nat → List String → Env
  | _, [] => env
  | i, p :: ps => params ((p, .param i) :: env) (i + 1) ps

end Env

mutual

/-- The names in an expression from left to right. -/
def Exp.uses (env : Env) : Exp → List Use
  | .nil | .bool _ | .numeral _ | .string _ | .table => []
  | .name n => [env.use n]
  | .call callee args => callee.uses env ++ Exp.usesAll env args
  | .method object _ args => object.uses env ++ Exp.usesAll env args
  | .field object _ => object.uses env
  | .index object key => object.uses env ++ key.uses env
  | .unary _ value => value.uses env
  | .binary left _ right => left.uses env ++ right.uses env
  | .paren value => value.uses env

def Exp.usesAll (env : Env) : List Exp → List Use
  | [] => []
  | e :: rest => e.uses env ++ Exp.usesAll env rest

end

/-- The name that a statement declares for those behind it. -/
def Stat.declared? : Stat → Option String
  | .declare name _ => some name
  | .localFunction name _ _ => some name
  | _ => none

/-- What is seen behind a statement. -/
def Stat.scope (env : Env) (s : Stat) : Env := (s.declared?.map (·, Binder.inner)).toList ++ env

mutual

/-- The names in a statement in their order. A declaration is not seen in its own value. -/
def Stat.uses (env : Env) : Stat → List Use
  | .declare _ value => value.uses env
  | .assign target value => target.uses env ++ value.uses env
  | .eval call => call.uses env
  | .ret value => value.uses env
  | .ifThen condition body => condition.uses env ++ Stat.usesAll env body
  | .count var first last body =>
    first.uses env ++ (last.uses env ++ Stat.usesAll ((var, .inner) :: env) body)
  | .function path params body =>
    path.head?.toList.map env.use ++ Stat.usesAll (env.params 0 params) body
  | .localFunction name params body => Stat.usesAll (Env.params ((name, .inner) :: env) 0 params) body

def Stat.usesAll (env : Env) : List Stat → List Use
  | [] => []
  | s :: rest => s.uses env ++ Stat.usesAll (s.scope env) rest

end

/-- What the exported functions of a module see. -/
def Module.env (m : Module) : Env :=
  ((Stmt.block m.header ++ m.helpers.map Function.stat).filterMap Stat.declared?).reverse.map
    (·, .outer)

/-- The names in the body of a function of a module. -/
def Module.uses (m : Module) (f : Function) : List Use :=
  Stat.usesAll (m.env.params 0 f.params) (Stmt.block f.body)

namespace Env

variable (env : Env) {ps : List String} {n : String}

theorem lookup_params_of_not_mem (h : n ∉ ps) (i : Nat) :
    (env.params i ps).lookup n = env.lookup n := by
  induction ps generalizing env i with
  | nil => rfl
  | cons p ps ih =>
    rw [List.mem_cons, not_or] at h
    rw [params, ih _ h.2, List.lookup_cons, beq_eq_false_iff_ne.2 h.1]

/-- The last parameter of a name hides the others. -/
theorem lookup_params_of_mem (h : n ∈ ps) (i : Nat) :
    ∃ k, (env.params i ps).lookup n = some (.param (i + k)) ∧ ps[k]? = some n ∧
      ∀ j, ps[j]? = some n → j ≤ k := by
  induction ps generalizing env i with
  | nil => cases h
  | cons p ps ih =>
    rw [params]
    by_cases hn : n ∈ ps
    · obtain ⟨k, hlookup, hk, hlast⟩ := ih ((p, .param i) :: env) hn (i + 1)
      refine ⟨k + 1, by rw [hlookup, Nat.add_right_comm, Nat.add_assoc], hk, ?_⟩
      intro j hj
      cases j with
      | zero => exact Nat.zero_le _
      | succ j => exact Nat.succ_le_succ (hlast j hj)
    · obtain rfl := (List.mem_cons.1 h).resolve_right hn
      refine ⟨0, by rw [lookup_params_of_not_mem _ hn]; simp, rfl, ?_⟩
      intro j hj
      cases j with
      | zero => exact Nat.le_refl 0
      | succ j =>
        rw [List.getElem?_cons_succ] at hj
        exact absurd (List.mem_of_getElem? hj) hn

theorem lookup_params_of_nodup (h : ps.Nodup) {k : Nat} (hk : ps[k]? = some n) :
    (env.params 0 ps).lookup n = some (.param k) := by
  obtain ⟨i, hlookup, hi, -⟩ := lookup_params_of_mem env (List.mem_of_getElem? hk) 0
  obtain ⟨hlt, -⟩ := List.getElem?_eq_some_iff.1 hk
  obtain rfl := (List.getElem?_inj hlt h).1 (hk.trans hi.symm)
  rw [hlookup, Nat.zero_add]

end Env

namespace Stat

theorem scope_of_declared {env : Env} {s : Stat} (h : s.declared? = none) : s.scope env = env := by
  rw [scope, h]
  rfl

/-- Statements without declarations all see the same. -/
theorem usesAll_append (env : Env) {ss : List Stat} (h : ∀ s ∈ ss, s.declared? = none)
    (rest : List Stat) : usesAll env (ss ++ rest) = ss.flatMap (uses env) ++ usesAll env rest := by
  induction ss with
  | nil => rfl
  | cons s ss ih =>
    obtain ⟨hs, hss⟩ := List.forall_mem_cons.1 h
    rw [List.cons_append, usesAll, scope_of_declared hs, ih hss, List.flatMap_cons,
      List.append_assoc]

theorem usesAll_of_declared (env : Env) {ss : List Stat} (h : ∀ s ∈ ss, s.declared? = none) :
    usesAll env ss = ss.flatMap (uses env) := by
  have happend := usesAll_append env h []
  rwa [List.append_nil, usesAll, List.append_nil] at happend

end Stat

end OpStubs.Lua
