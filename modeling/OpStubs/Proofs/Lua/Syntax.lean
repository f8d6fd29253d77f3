import OpStubs.Lua.Print

namespace OpStubs.Lua

inductive UnaryOperator where
  | not
  | length
  | negate
  deriving DecidableEq, Repr

/-- The binary operators of Lua. -/
inductive Operator where
  | or
  | and
  | lt
  | gt
  | le
  | ge
  | ne
  | eq
  | concat
  | add
  | sub
  | mul
  | div
  | mod
  | pow
  deriving DecidableEq, Repr

namespace Operator

/-- How tightly an operator holds the operand on its left. -/
def left : Operator → Nat
  | or => 1
  | and => 2
  | lt | gt | le | ge | ne | eq => 3
  | concat => 5
  | add | sub => 6
  | mul | div | mod => 7
  | pow => 10

/-- How tightly an operator holds the operand on its right. It is less only where operators of one
kind group from the right. -/
def right : Operator → Nat
  | concat => 4
  | pow => 9
  | op => op.left

end Operator

/-- How tightly the unary operators hold their operand. -/
def unaryPriority : Nat := 8

/-- Expressions as Lua's grammar has them. -/
inductive Exp where
  | nil
  | bool (value : Bool)
  | numeral (text : String)
  | string (value : String)
  | name (name : String)
  /-- A table without entries. -/
  | table
  | call (callee : Exp) (args : List Exp)
  | method (object : Exp) (name : String) (args : List Exp)
  | field (object : Exp) (name : String)
  | index (object : Exp) (key : Exp)
  | unary (op : UnaryOperator) (value : Exp)
  | binary (left : Exp) (op : Operator) (right : Exp)
  | paren (value : Exp)
  deriving Repr

/-- Statements as Lua's grammar has them. -/
inductive Stat where
  | declare (name : String) (value : Exp)
  | assign (target value : Exp)
  /-- A call for its effect. -/
  | eval (call : Exp)
  | ret (value : Exp)
  | ifThen (condition : Exp) (body : List Stat)
  | count (var : String) (first last : Exp) (body : List Stat)
  /-- A function that is stored in a field of a field of a name. -/
  | function (path : List String) (params : List String) (body : List Stat)
  | localFunction (name : String) (params : List String) (body : List Stat)
  deriving Repr

end OpStubs.Lua
