import OpStubs.Lua.Quoted
import OpStubs.Lua.Tree

namespace OpStubs.Lua

def BinaryOp.print : BinaryOp → String
  | eq => "=="
  | or => "or"

def separated (sep : String) : List String → String
  | [] => ""
  | [s] => s
  | s :: rest => s ++ sep ++ separated sep rest

mutual

def Expr.print : Expr → String
  | .ident name => name
  | .literal text => text
  | .str value => quote value
  | .emptyTable => "\x7b\x7d"
  | .call callee args => callee.print ++ "(" ++ separated ", " (Expr.printAll args) ++ ")"
  | .method object name args =>
    object.print ++ ":" ++ name ++ "(" ++ separated ", " (Expr.printAll args) ++ ")"
  | .member object field => object.print ++ "." ++ field
  | .index object key => object.print ++ "[" ++ key.print ++ "]"
  | .len value => "#" ++ value.print
  | .binary left op right => left.print ++ " " ++ op.print ++ " " ++ right.print

def Expr.printAll : List Expr → List String
  | [] => []
  | e :: rest => e.print :: Expr.printAll rest

end

def Simple.print : Simple → String
  | declare name value => "local " ++ name ++ " = " ++ value.print
  | assign target value => target.print ++ " = " ++ value.print
  | eval call => call.print
  | ret value => "return " ++ value.print

def tabs (n : Nat) : String := String.ofList (List.replicate n '\t')

/-- One line at a depth of indentation, a tab a level. -/
def line (depth : Nat) (text : String) : String := tabs depth ++ text ++ "\n"

/-- The one statement of a body that goes on the line of its `if`. -/
def inlineBody? : List Stmt → Option Simple
  | [.simple s] => if s.isInline then some s else none
  | _ => none

mutual

def Stmt.print (depth : Nat) : Stmt → String
  | .simple s => line depth s.print
  | .ifThen condition body =>
    match inlineBody? body with
    | some s => line depth ("if " ++ condition.print ++ " then " ++ s.print ++ " end")
    | none =>
      line depth ("if " ++ condition.print ++ " then") ++ Stmt.printBlock (depth + 1) body ++
        line depth "end"
  | .count var first last body =>
    line depth ("for " ++ var ++ " = " ++ first.print ++ ", " ++ last.print ++ " do") ++
      Stmt.printBlock (depth + 1) body ++ line depth "end"

def Stmt.printBlock (depth : Nat) : List Stmt → String
  | [] => ""
  | s :: rest => s.print depth ++ Stmt.printBlock depth rest

end

def DocLine.print : DocLine → String
  | text line => if line = "" then "---" else "--- " ++ line
  | param name type description =>
    "---@param " ++ name ++ " " ++ type ++
      if description = "" then "" else " @" ++ description
  | returns type description =>
    "---@return " ++ type ++ if description = "" then "" else " @ " ++ description

def printDoc : List DocLine → String
  | [] => ""
  | l :: rest => l.print ++ "\n" ++ printDoc rest

def Function.print (f : Function) : String :=
  printDoc f.doc ++ (if f.isLocal then "local " else "") ++ "function " ++ f.name ++ "(" ++
    separated ", " f.params ++ ")\n" ++ Stmt.printBlock 1 f.body ++ "end\n"

/-- Functions, an empty line before each. -/
def printFunctions : List Function → String
  | [] => ""
  | f :: rest => "\n" ++ f.print ++ printFunctions rest

def Module.print (m : Module) : String :=
  "--- " ++ m.title ++ "\n" ++ Stmt.printBlock 0 m.header ++ printFunctions m.helpers ++
    printFunctions m.functions ++ "\nreturn " ++ m.exported ++ "\n"

end OpStubs.Lua
