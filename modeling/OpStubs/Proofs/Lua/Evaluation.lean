import OpStubs.Proofs.Contract
import OpStubs.Proofs.Lua.DefaultLiteral

namespace OpStubs.Lua

/-- The number of a decimal. -/
def rational (d : Number.Decimal) : Rat := mkRat d.num d.den

theorem rational_natural (n : Nat) : rational ⟨n, 0⟩ = n := by
  simp [rational, Number.Decimal.num, Number.Decimal.den, Rat.mkRat_one]

theorem eval_numeral (g : Scope) (l : Locals) (n : Numeral) (s : Store) :
    eval g l (.numeral n.text) s = some (.number (rational n.value), s) := by
  rw [eval, Numeral.text, String.toList_ofList, n.parse_chars]
  rfl

namespace Literal

/-- What a literal stands for. -/
def value : Literal → Value
  | nil => .nil
  | bool b => .bool b
  | string s => .string s
  | numeral negative n => .number (if negative then -rational n.value else rational n.value)
  | infinity negative => .infinity negative
  | undefined => .undefined

/-- A literal stands for its value wherever the name of infinity is not taken. -/
theorem eval_exp {g : Scope} {l : Locals} (hg : g.value Operation.infinityLocal = .infinity false)
    (hl : l.lookup Operation.infinityLocal = none) (literal : Literal) (s : Store) :
    eval g l literal.exp s = some (literal.value, s) := by
  have hname : eval g l (.name Operation.infinityLocal) s = some (.infinity false, s) := by
    rw [eval, hl, Option.getD_none, hg]
  cases literal with
  | nil => rw [exp, eval, value]
  | bool b => rw [exp, eval, value]
  | string t => rw [exp, eval, value]
  | numeral negative n =>
    cases negative with
    | false => exact eval_numeral g l n s
    | true =>
      rw [exp, signed, if_pos rfl, eval, eval_numeral]
      rfl
  | infinity negative =>
    cases negative with
    | false => exact hname
    | true =>
      rw [exp, signed, if_pos rfl, eval, hname]
      rfl
  | undefined =>
    have hzero : rational Numeral.zero.value = 0 := rational_natural 0
    rw [exp, eval, eval]
    simp only [eval_numeral, hzero, Option.bind_eq_bind, Option.bind_some]
    rfl

end Literal

theorem exp_literal (l : Literal) : (Expr.literal l.text).exp = l.exp := by
  rw [Expr.exp, l.readExp_text]
  rfl

/-- A natural number stands for itself. -/
theorem eval_natural (g : Scope) (l : Locals) (n : Nat) (s : Store) :
    eval g l (Expr.literal n.repr).exp s = some (.number n, s) := by
  have htext : (Literal.numeral false (.ofNat n)).text = n.repr := by
    rw [Literal.text, Numeral.text_ofNat]
    exact String.empty_append
  rw [← htext, exp_literal]
  refine (eval_numeral g l (.ofNat n) s).trans ?_
  rw [Numeral.value_ofNat, rational_natural]

/-- A loop whose body neither returns nor changes the variables goes from store to store. -/
theorem iterate_of_steps {b : Rat → Locals → Store → Option Outcome} {l : Locals}
    (store : Nat → Store) (first n : Nat)
    (h : ∀ k, first ≤ k → k < first + n → b (k + 1) l (store k) = some (none, l, store (k + 1))) :
    iterate b n (first + 1) l (store first) = some (none, l, store (first + n)) := by
  induction n generalizing first with
  | zero => rfl
  | succ n ih =>
    have hfirst := h first le_rfl (by omega)
    have hrest := ih (first + 1) fun k hk hlt => h k (by omega) (by omega)
    rw [iterate, hfirst]
    simp only [Option.bind_eq_bind, Option.bind_some]
    rw [← Nat.cast_succ, hrest, Nat.add_assoc, Nat.add_comm 1 n]

theorem position_succ (k : Nat) : (Value.number (k + 1)).position? = some k := by
  have hcast : ((k : Rat) + 1) = ((k + 1 : Nat) : Rat) := by push_cast; rfl
  rw [Value.position?, hcast, Rat.den_natCast, Rat.num_natCast]
  simp

namespace Store

/-- A sequence that is made behind others. -/
def withTable (s : Store) (vs : List Value) : Store := { s with tables := s.tables ++ [vs] }

theorem put_end (s : Store) (vs : List Value) (v : Value) :
    (s.withTable vs).put? s.tables.length vs.length v = some (s.withTable (vs ++ [v])) := by
  simp [withTable, put?]

theorem getElem_withTable {s : Store} {id : Nat} {vs : List Value} (h : s.tables[id]? = some vs)
    (ws : List Value) : (s.withTable ws).tables[id]? = some vs := by
  have hlt := (List.getElem?_eq_some_iff.1 h).1
  rw [withTable, List.getElem?_append_left hlt, h]

end Store

theorem exec_put {g : Scope} {l : Locals} {object key value : Exp} {s s' : Store} {id p : Nat}
    {v : Value} (ho : eval g l object s = some (.table id, s))
    (hk : eval g l key s = some (.number (p + 1), s)) (hv : eval g l value s = some (v, s))
    (hput : s.put? id p v = some s') :
    exec g (.assign (.index object key) value) l s = some (none, l, s') := by
  rw [exec]
  simp only [ho, hk, hv, hput, position_succ, Option.bind_eq_bind, Option.bind_some]

theorem execBlock_nil (g : Scope) (l : Locals) (s : Store) :
    execBlock g [] l s = some (none, l, s) := by
  rw [execBlock]

theorem execBlock_cons {g : Scope} {st : Stat} {rest : List Stat} {l l' : Locals} {s s' : Store}
    (h : exec g st l s = some (none, l', s')) :
    execBlock g (st :: rest) l s = execBlock g rest l' s' := by
  rw [execBlock, h]
  rfl

theorem eval_local {g : Scope} {l : Locals} {name : String} {v : Value}
    (h : l.lookup name = some v) (s : Store) : eval g l (.name name) s = some (v, s) := by
  rw [eval, h, Option.getD_some]

theorem eval_global {g : Scope} {l : Locals} {name : String} (h : l.lookup name = none)
    (s : Store) : eval g l (.name name) s = some (g.value name, s) := by
  rw [eval, h, Option.getD_none]

/-- A field of a value, or the value itself. -/
theorem eval_unwrap {g : Scope} {l : Locals} {e : Exp} {s : Store} {v : Value}
    (h : eval g l e s = some (v, s)) (hv : v.hasFields = true) (field : String) :
    eval g l (.binary (.field e field) .or e) s = some (g.world.unwrap field v, s) := by
  rw [eval, eval, h]
  cases v with
  | object id =>
    simp only [Option.bind_eq_bind, Option.bind_some, World.unwrap]
    split
    · rfl
    · exact h
  | table id => exact h
  | _ => cases hv

/-- A member of a sequence. -/
theorem eval_member {g : Scope} {l : Locals} {list : String} {key : Exp} {id k : Nat}
    {vs : List Value} {v : Value} {s : Store} (hl : l.lookup list = some (.table id))
    (hk : eval g l key s = some (.number (k + 1), s)) (hvs : s.tables[id]? = some vs)
    (hv : vs[k]? = some v) :
    eval g l (.index (.name list) key) s = some (v, s) := by
  rw [eval, eval_local hl, Option.bind_eq_bind, Option.bind_some]
  simp only [hk, position_succ, Option.bind_some]
  rw [List.getD, hvs, Option.getD_some, hv, Option.getD_some]

/-- A call of a function of the module with one argument. -/
theorem eval_call {g : Scope} {l : Locals} {name : String} {e : Exp} {s s' : Store} {v : Value}
    (hl : l.lookup name = none) (hg : g.value name = .function name)
    (he : eval g l e s = some (v, s')) :
    eval g l (.call (.name name) [e]) s = g.invoke name [v] s' := by
  have hargs : evalAll g l [e] s = some ([v], s') := by
    simp only [evalAll, he, Option.bind_eq_bind, Option.bind_some]
  rw [eval, eval_global hl, hg]
  simp only [hargs, Option.bind_eq_bind, Option.bind_some]

theorem eval_lengthEquals {g : Scope} {l : Locals} {list : String} {id : Nat} {vs : List Value}
    {s : Store} (hl : l.lookup list = some (.table id)) (hvs : s.tables[id]? = some vs) (n : Nat) :
    eval g l (Expr.equals (.len (.ident list)) (.literal n.repr)).exp s =
      some (.bool (vs.length == n), s) := by
  have hlen : eval g l (.unary .length (.name list)) s = some (.number vs.length, s) := by
    rw [eval, eval_local hl, Option.bind_eq_bind, Option.bind_some]
    simp [List.getD, hvs]
  have hequals : (Value.number vs.length).equals (.number n) = (vs.length == n) := by
    simp [Value.equals, Bool.beq_eq_decide_eq]
  change eval g l (.binary (.unary .length (.name list)) .eq (Expr.literal n.repr).exp) s = _
  rw [eval, hlen, Option.bind_eq_bind, Option.bind_some]
  simp only [eval_natural, hequals, Option.bind_some]

theorem execBlock_append {g : Scope} {xs ys : List Stat} {l l' : Locals} {s s' : Store}
    (h : execBlock g xs l s = some (none, l', s')) :
    execBlock g (xs ++ ys) l s = execBlock g ys l' s' := by
  induction xs generalizing l s with
  | nil =>
    rw [execBlock] at h
    cases h
    rfl
  | cons st xs ih =>
    rw [execBlock] at h
    rw [List.cons_append, execBlock]
    cases hst : exec g st l s with
    | none =>
      rw [hst] at h
      cases h
    | some r =>
      obtain ⟨_ | v, l₁, s₁⟩ := r
      · rw [hst] at h
        exact ih h
      · rw [hst] at h
        cases h

theorem execBlock_ret {g : Scope} {l : Locals} {e : Exp} (rest : List Stat) {s s' : Store}
    {v : Value} (h : eval g l e s = some (v, s')) :
    execBlock g (.ret e :: rest) l s = some (some v, l, s') := by
  rw [execBlock, exec, h]
  rfl

theorem execBlock_ifThen_false {g : Scope} {l : Locals} {condition : Exp} {body : List Stat}
    (rest : List Stat) {s : Store} (h : eval g l condition s = some (.bool false, s)) :
    execBlock g (.ifThen condition body :: rest) l s = execBlock g rest l s := by
  apply execBlock_cons
  rw [exec, h]
  rfl

theorem exec_declare {g : Scope} {l : Locals} {e : Exp} {s s' : Store} {v : Value}
    (he : eval g l e s = some (v, s')) (name : String) :
    exec g (.declare name e) l s = some (none, (name, v) :: l, s') := by
  rw [exec, he]
  rfl

theorem exec_eval {g : Scope} {l : Locals} {e : Exp} {s s' : Store} {v : Value}
    (he : eval g l e s = some (v, s')) : exec g (.eval e) l s = some (none, l, s') := by
  rw [exec, he]
  rfl

theorem exec_assign {g : Scope} {l l' : Locals} {name : String} {e : Exp} {s s' : Store} {v : Value}
    (he : eval g l e s = some (v, s')) (h : Locals.assign? name v l = some l') :
    exec g (.assign (.name name) e) l s = some (none, l', s') := by
  rw [exec, he, Option.bind_eq_bind, Option.bind_some]
  simp only [h, Option.bind_eq_bind, Option.bind_some]

/-- An `if` whose body declares nothing. -/
theorem exec_ifThen_true {g : Scope} {l l' : Locals} {condition : Exp} {body : List Stat}
    {s s' : Store} (h : eval g l condition s = some (.bool true, s))
    (hbody : execBlock g body l s = some (none, l', s')) (hlen : l'.length = l.length) :
    exec g (.ifThen condition body) l s = some (none, l', s') := by
  rw [exec, h, Option.bind_eq_bind, Option.bind_some]
  simp [Value.isTrue, hbody, Locals.restore, hlen]

theorem execBlock_ifThen_ret {g : Scope} {l : Locals} {condition e : Exp} (rest : List Stat)
    {s s' : Store} {v : Value} (h : eval g l condition s = some (.bool true, s))
    (he : eval g l e s = some (v, s')) :
    execBlock g (.ifThen condition [.ret e] :: rest) l s = some (some v, l, s') := by
  rw [execBlock, exec, h]
  simp [Value.isTrue, execBlock_ret [] he, Locals.restore]

theorem Scope.run_of_returns {g : Scope} {f : Function} {args : List Value} {s s' : Store} {l : Locals}
    {v : Value}
    (h : execBlock g (Stmt.block f.body) (Locals.ofCall f.params args) s = some (some v, l, s')) :
    g.run f args s = some (v, s') := by
  rw [run, h]
  rfl

end OpStubs.Lua
