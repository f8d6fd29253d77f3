import OpStubs.Proofs.Lua.PrintSafe
import OpStubs.Stub

namespace OpStubs.Lua

/-- Values of Lua. Numbers are kept exact. -/
inductive Value where
  | nil
  | bool (b : Bool)
  | number (q : Rat)
  | infinity (negative : Bool)
  /-- What is no number. -/
  | undefined
  | string (s : String)
  /-- An object of the engine or of the caller. -/
  | object (id : Nat)
  /-- A sequence, by its place in the store. -/
  | table (id : Nat)
  /-- A function of the module. -/
  | function (name : String)
  deriving DecidableEq, Repr

namespace Value

def isTrue : Value → Bool
  | nil => false
  | bool b => b
  | _ => true

def equals (v w : Value) : Bool := v != undefined && v == w

def negate? : Value → Option Value
  | number q => some (number (-q))
  | infinity negative => some (infinity !negative)
  | undefined => some undefined
  | _ => none

/-- Division of numbers, by zero too. -/
def divide? : Value → Value → Option Value
  | number p, number q =>
    if q ≠ 0 then some (number (p / q))
    else if p = 0 then some undefined
    else some (infinity (decide (p < 0)))
  | _, _ => none

/-- The position in a sequence that a value stands for, the first being 1. -/
def position? : Value → Option Nat
  | number q => if q.den = 1 ∧ 0 < q.num then some (q.num.toNat - 1) else none
  | _ => none

end Value

/-- What a call passes on: a value, or the members of a sequence. -/
inductive Item where
  | value (v : Value)
  | sequence (vs : List Value)
  deriving DecidableEq, Repr

/-- A call of a method of an object. -/
structure Call where
  object : Nat
  method : String
  args : List Item
  deriving DecidableEq, Repr

/-- The sequences that there are, and the calls that were made. -/
structure Store where
  tables : List (List Value)
  calls : List Call
  deriving DecidableEq, Repr

namespace Store

def item (s : Store) : Value → Item
  | .table id => .sequence (s.tables.getD id [])
  | v => .value v

/-- Makes a sequence. -/
def alloc (s : Store) (vs : List Value) : Value × Store :=
  (.table s.tables.length, { s with tables := s.tables ++ [vs] })

/-- Puts a value at a position of a sequence, or behind its last one. -/
def put? (s : Store) (id position : Nat) (v : Value) : Option Store := do
  let vs ← s.tables[id]?
  if position < vs.length then some { s with tables := s.tables.set id (vs.set position v) }
  else if position = vs.length then some { s with tables := s.tables.set id (vs ++ [v]) }
  else none

end Store

/-- What is outside of the module: the sequences of the caller, the fields of objects, where those
that an object has not are `nil`, and the answers of the engine, which may depend on all calls so
far. -/
structure World where
  tables : List (List Value)
  field : Nat → String → Value
  field_lt : ∀ {object name id}, field object name = .table id → id < tables.length
  context : Nat
  newOp : List Call → Nat
  execute : List Call → List Value
  reply : List Call → Value
  /-- The tensor made of a result. -/
  wrap : Value → Value

/-- Calls a method of an object. -/
def World.call (w : World) (object : Nat) (method : String) (args : List Value) (s : Store) :
    Value × Store :=
  let calls := s.calls ++ [⟨object, method, args.map s.item⟩]
  let s := { s with calls }
  if method = "newOp" then (.object (w.newOp calls), s)
  else if method = "execute" then s.alloc (w.execute calls)
  else (w.reply calls, s)

/-- The variables of a function, the last declared first. -/
abbrev Locals := List (String × Value)

def Locals.assign? (name : String) (v : Value) : Locals → Option Locals
  | [] => none
  | (n, w) :: rest =>
    if n = name then some ((n, v) :: rest)
    else (Locals.assign? name v rest).map ((n, w) :: ·)

/-- What a function sees besides its own variables. -/
structure Scope where
  world : World
  value : String → Value
  invoke : String → List Value → Store → Option (Value × Store)

mutual

/-- The value of an expression. Nothing where Lua would raise an error, and for what generated code
never has. -/
def eval (g : Scope) (l : Locals) : Exp → Store → Option (Value × Store)
  | .nil, s => some (.nil, s)
  | .bool b, s => some (.bool b, s)
  | .numeral text, s =>
    (Number.Decimal.parse? text.toList).map fun d => (.number (mkRat d.num d.den), s)
  | .string v, s => some (.string v, s)
  | .name n, s => some ((l.lookup n).getD (g.value n), s)
  | .table, s => some (s.alloc [])
  | .call callee args, s => do
    let (f, s) ← eval g l callee s
    let (vs, s) ← evalAll g l args s
    match f with
    | .function name => g.invoke name vs s
    | _ => none
  | .method object name args, s => do
    let (o, s) ← eval g l object s
    let (vs, s) ← evalAll g l args s
    match o with
    | .object id => some (g.world.call id name vs s)
    | _ => none
  | .field object name, s => do
    let (o, s) ← eval g l object s
    match o with
    | .object id => some (g.world.field id name, s)
    | .table _ => some (.nil, s)
    | _ => none
  | .index object key, s => do
    let (o, s) ← eval g l object s
    let (k, s) ← eval g l key s
    match o with
    | .table id => some ((k.position?.bind fun p => (s.tables.getD id [])[p]?).getD .nil, s)
    | _ => none
  | .unary .length e, s => do
    let (v, s) ← eval g l e s
    match v with
    | .table id => some (.number (s.tables.getD id []).length, s)
    | .string t => some (.number t.utf8ByteSize, s)
    | _ => none
  | .unary .not e, s => do
    let (v, s) ← eval g l e s
    some (.bool !v.isTrue, s)
  | .unary .negate e, s => do
    let (v, s) ← eval g l e s
    let v ← v.negate?
    some (v, s)
  | .binary a .or b, s => do
    let (v, s) ← eval g l a s
    if v.isTrue then some (v, s) else eval g l b s
  | .binary a .and b, s => do
    let (v, s) ← eval g l a s
    if v.isTrue then eval g l b s else some (v, s)
  | .binary a .eq b, s => do
    let (v, s) ← eval g l a s
    let (w, s) ← eval g l b s
    some (.bool (v.equals w), s)
  | .binary a .div b, s => do
    let (v, s) ← eval g l a s
    let (w, s) ← eval g l b s
    let v ← v.divide? w
    some (v, s)
  | .binary _ _ _, _ => none
  | .paren e, s => eval g l e s

def evalAll (g : Scope) (l : Locals) : List Exp → Store → Option (List Value × Store)
  | [], s => some ([], s)
  | e :: rest, s => do
    let (v, s) ← eval g l e s
    let (vs, s) ← evalAll g l rest s
    some (v :: vs, s)

end

/-- What there is after a statement: the value that it returned, if it did, and the variables. -/
abbrev Outcome := Option Value × Locals × Store

/-- Forgets the variables that a block declared. -/
def Locals.restore (before after : Locals) : Locals := after.drop (after.length - before.length)

/-- Runs the body of a loop `n` times from a first number, unless it returns. -/
def iterate (body : Rat → Locals → Store → Option Outcome) :
    Nat → Rat → Locals → Store → Option Outcome
  | 0, _, l, s => some (none, l, s)
  | n + 1, i, l, s => do
    let (r, l', s) ← body i l s
    match r with
    | some v => some (some v, l', s)
    | none => iterate body n (i + 1) l' s

mutual

def exec (g : Scope) : Stat → Locals → Store → Option Outcome
  | .declare name e, l, s => do
    let (v, s) ← eval g l e s
    some (none, (name, v) :: l, s)
  | .assign (.name n) e, l, s => do
    let (v, s) ← eval g l e s
    let l ← Locals.assign? n v l
    some (none, l, s)
  | .assign (.index object key) e, l, s => do
    let (o, s) ← eval g l object s
    let (k, s) ← eval g l key s
    let (v, s) ← eval g l e s
    match o with
    | .table id => do
      let p ← k.position?
      let s ← s.put? id p v
      some (none, l, s)
    | _ => none
  | .eval e, l, s => do
    let (_, s) ← eval g l e s
    some (none, l, s)
  | .ret e, l, s => do
    let (v, s) ← eval g l e s
    some (some v, l, s)
  | .ifThen condition body, l, s => do
    let (v, s) ← eval g l condition s
    if v.isTrue then do
      let (r, l', s) ← execBlock g body l s
      some (r, Locals.restore l l', s)
    else some (none, l, s)
  | .count var first last body, l, s => do
    let (a, s) ← eval g l first s
    let (b, s) ← eval g l last s
    match a, b with
    | .number a, .number b =>
      iterate (fun i l s => do
        let (r, l', s) ← execBlock g body ((var, .number i) :: l) s
        some (r, Locals.restore l l', s)) ((b - a).floor + 1).toNat a l s
    | _, _ => none
  | _, _, _ => none

/-- Runs statements one after the other up to one that returns. -/
def execBlock (g : Scope) : List Stat → Locals → Store → Option Outcome
  | [], l, s => some (none, l, s)
  | st :: rest, l, s => do
    let (r, l, s) ← exec g st l s
    match r with
    | some v => some (some v, l, s)
    | none => execBlock g rest l s

end

attribute [grind =] eval evalAll exec execBlock

/-- The parameters of a call. Those that get no argument are `nil`. -/
def Locals.ofCall : List String → List Value → Locals
  | [], _ => []
  | p :: ps, [] => (p, .nil) :: Locals.ofCall ps []
  | p :: ps, v :: vs => (p, v) :: Locals.ofCall ps vs

/-- Calls a function that sees a scope. -/
def Scope.run (g : Scope) (f : Function) (args : List Value) (s : Store) :
    Option (Value × Store) := do
  let (r, _, s) ← execBlock g (Stmt.block f.body) (Locals.ofCall f.params args) s
  some (r.getD .nil, s)

/-- A scope with one more function. -/
def Scope.declare (g : Scope) (f : Function) : Scope where
  world := g.world
  value n := if n = f.name then .function f.name else g.value n
  invoke n args s := if n = f.name then g.run f args s else g.invoke n args s

/-- What the header of a module declares. -/
def Scope.header (w : World) : Scope where
  world := w
  value n :=
    if n = Operation.infinityLocal then .infinity false
    else if n = Stub.getContext then .function Stub.getContext
    else if n = Stub.tensorClass then .function Stub.tensorClass
    else .nil
  invoke n args s :=
    if n = Stub.getContext then some (.object w.context, s)
    else if n = Stub.tensorClass then some (w.wrap (args.headD .nil), s)
    else none

/-- What the exported functions of a module see. -/
def Scope.module (w : World) : Scope :=
  (((Scope.header w).declare Stub.packHandlesHelper).declare Stub.wrapListHelper).declare
    Stub.wrapResultsHelper

end OpStubs.Lua
