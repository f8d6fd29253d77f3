namespace OpStubs.Lua

inductive BinaryOp where
  | eq
  | or
  deriving DecidableEq, Repr

inductive Expr where
  | ident (name : String)
  /-- A number, `true`, `false` or `nil`, already in Lua's spelling. -/
  | literal (text : String)
  /-- A string, quoted when printed. -/
  | str (value : String)
  | emptyTable
  | call (callee : Expr) (args : List Expr)
  | method (object : Expr) (name : String) (args : List Expr)
  | member (object : Expr) (field : String)
  | index (object : Expr) (key : Expr)
  | len (value : Expr)
  | binary (left : Expr) (op : BinaryOp) (right : Expr)
  deriving Repr

namespace Expr

def callName (name : String) (args : List Expr) : Expr := call (ident name) args

def equals (left right : Expr) : Expr := binary left .eq right

/-- The left side unless it is `nil` or `false`. -/
def orElse (left right : Expr) : Expr := binary left .or right

end Expr

inductive Simple where
  | declare (name : String) (value : Expr)
  | assign (target value : Expr)
  | eval (call : Expr)
  | ret (value : Expr)
  deriving Repr

inductive Stmt where
  | simple (s : Simple)
  | ifThen (condition : Expr) (body : List Stmt)
  /-- Counts `var` from `first` to `last`. -/
  | count (var : String) (first last : Expr) (body : List Stmt)
  deriving Repr

/-- An `if` around one of these is written on one line. A declaration is kept off such a line, where
its scope would end at once. -/
def Simple.isInline : Simple → Bool
  | declare .. => false
  | _ => true

def Stmt.isInline : Stmt → Bool
  | .simple s => s.isInline
  | _ => false

inductive DocLine where
  | text (line : String)
  | param (name type description : String)
  | returns (type description : String)
  deriving DecidableEq, Repr

/-- A function definition. The name of one that is not local may have dots. -/
structure Function where
  doc : List DocLine := []
  name : String
  isLocal : Bool := false
  params : List String := []
  body : List Stmt := []
  deriving Repr

/-- A module: locals, then local helpers, then exported functions, then the table it returns. -/
structure Module where
  title : String
  header : List Stmt := []
  helpers : List Function := []
  functions : List Function := []
  exported : String
  deriving Repr

end OpStubs.Lua
