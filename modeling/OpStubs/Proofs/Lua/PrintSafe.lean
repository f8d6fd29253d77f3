import OpStubs.Lua.Print
import OpStubs.Proofs.Lua.Literal
import OpStubs.Text.Lines

namespace OpStubs.Lua

def BinaryOp.operator : BinaryOp → Operator
  | eq => .eq
  | or => .or

namespace Expr

/-- Whether a call, a method, a field or an index may be applied to an expression as it is. -/
def isPrefix : Expr → Bool
  | .ident _ | .call .. | .method .. | .member .. | .index .. => true
  | _ => false

def isCall : Expr → Bool
  | .call .. | .method .. => true
  | _ => false

def isTarget : Expr → Bool
  | .ident _ | .member .. | .index .. => true
  | _ => false

/-- The operator of a binary expression. -/
def operator? : Expr → Option BinaryOp
  | .binary _ op _ => some op
  | _ => none

end Expr

mutual

/-- Whether printing an expression without parentheses keeps its structure. -/
def Expr.Safe : Expr → Prop
  | .ident name => Token.isName name = true
  | .literal text => ∃ l : Literal, l.text = text
  | .str _ => True
  | .emptyTable => True
  | .call callee args => callee.isPrefix = true ∧ callee.Safe ∧ Expr.SafeAll args
  | .method object name args =>
    object.isPrefix = true ∧ object.Safe ∧ Token.isName name = true ∧ Expr.SafeAll args
  | .member object field => object.isPrefix = true ∧ object.Safe ∧ Token.isName field = true
  | .index object key => object.isPrefix = true ∧ object.Safe ∧ key.Safe
  | .len value => value.operator? = none ∧ value.Safe
  | .binary left .eq right =>
    left.operator? ≠ some .or ∧ right.operator? ≠ some .or ∧ right.operator? ≠ some .eq ∧
      left.Safe ∧ right.Safe
  | .binary left .or right => right.operator? ≠ some .or ∧ left.Safe ∧ right.Safe

def Expr.SafeAll : List Expr → Prop
  | [] => True
  | e :: rest => e.Safe ∧ Expr.SafeAll rest

end

def Simple.Safe : Simple → Prop
  | declare name value => Token.isName name = true ∧ value.Safe
  | assign target value => target.isTarget = true ∧ target.Safe ∧ value.Safe
  | eval call => call.isCall = true ∧ call.Safe
  | ret value => value.Safe

def Stmt.returns : Stmt → Bool
  | .simple (.ret _) => true
  | _ => false

mutual

def Stmt.Safe : Stmt → Prop
  | .simple s => s.Safe
  | .ifThen condition body => condition.Safe ∧ Stmt.SafeBlock body
  | .count var first last body =>
    Token.isName var = true ∧ first.Safe ∧ last.Safe ∧ Stmt.SafeBlock body

/-- Whether each statement is safe and none follows one that returns. -/
def Stmt.SafeBlock : List Stmt → Prop
  | [] => True
  | s :: rest => s.Safe ∧ (s.returns = true → rest = []) ∧ Stmt.SafeBlock rest

end

/-- Whether a text has no line end. -/
def IsClean (s : List Char) : Prop := ∀ c ∈ s, Token.endsLine c = false

instance (s : List Char) : Decidable (IsClean s) :=
  decidable_of_iff (s.all fun c => !Token.endsLine c) (by simp [IsClean])

def IsLine (s : String) : Prop := IsClean s.toList

instance (s : String) : Decidable (IsLine s) := inferInstanceAs (Decidable (IsClean s.toList))

theorem isLine_append {s t : String} (hs : IsLine s) (ht : IsLine t) : IsLine (s ++ t) := by
  intro c hc
  rw [String.toList_append, List.mem_append] at hc
  rcases hc with hc | hc
  · exact hs c hc
  · exact ht c hc

def DocLine.Safe : DocLine → Prop
  | text line => IsLine line
  | param name type description => IsLine name ∧ IsLine type ∧ IsLine description
  | returns type description => IsLine type ∧ IsLine description

/-- The names that the points of a function's name divide. -/
def Function.path (f : Function) : List String :=
  (Text.pieces '.' f.name.toList).map String.ofList

structure Function.Safe (f : Function) : Prop where
  doc : ∀ l ∈ f.doc, l.Safe
  isName_local : f.isLocal = true → Token.isName f.name = true
  isName_path : f.isLocal = false → ∀ n ∈ f.path, Token.isName n = true
  isName_params : ∀ p ∈ f.params, Token.isName p = true
  body : Stmt.SafeBlock f.body

/-- Whether the text of a module says no more and no less than the module. -/
structure Module.Safe (m : Module) : Prop where
  title : IsLine m.title
  header : Stmt.SafeBlock m.header
  not_returns : ∀ s ∈ m.header, s.returns = false
  helpers : ∀ f ∈ m.helpers, f.Safe
  functions : ∀ f ∈ m.functions, f.Safe
  isName_exported : Token.isName m.exported = true

mutual

/-- The expression of Lua's grammar. -/
def Expr.exp : Expr → Exp
  | .ident name => .name name
  | .literal text => (readExp? text).getD .nil
  | .str value => .string value
  | .emptyTable => .table
  | .call callee args => .call callee.exp (Expr.expAll args)
  | .method object name args => .method object.exp name (Expr.expAll args)
  | .member object field => .field object.exp field
  | .index object key => .index object.exp key.exp
  | .len value => .unary .length value.exp
  | .binary left op right => .binary left.exp op.operator right.exp

def Expr.expAll : List Expr → List Exp
  | [] => []
  | e :: rest => e.exp :: Expr.expAll rest

end

def Simple.stat : Simple → Stat
  | declare name value => .declare name value.exp
  | assign target value => .assign target.exp value.exp
  | eval call => .eval call.exp
  | ret value => .ret value.exp

mutual

/-- The statement of Lua's grammar. -/
def Stmt.stat : Stmt → Stat
  | .simple s => s.stat
  | .ifThen condition body => .ifThen condition.exp (Stmt.block body)
  | .count var first last body => .count var first.exp last.exp (Stmt.block body)

def Stmt.block : List Stmt → List Stat
  | [] => []
  | s :: rest => s.stat :: Stmt.block rest

end

def Function.stat (f : Function) : Stat :=
  if f.isLocal then .localFunction f.name f.params (Stmt.block f.body)
  else .function f.path f.params (Stmt.block f.body)

/-- The statements of a module. -/
def Module.chunk (m : Module) : List Stat :=
  Stmt.block m.header ++ m.helpers.map Function.stat ++ m.functions.map Function.stat ++
    [.ret (.name m.exported)]

def BinaryOp.token : BinaryOp → Token
  | eq => .symbol "=="
  | or => .keyword "or"

mutual

/-- The tokens of a printed expression. -/
def Expr.tokens : Expr → List Token
  | .ident name => [.name name]
  | .literal text => (Token.scan text.toList).getD []
  | .str value => [.string value]
  | .emptyTable => [.symbol "\x7b", .symbol "\x7d"]
  | .call callee args =>
    callee.tokens ++ .symbol "(" :: (listed (Expr.tokensAll args) ++ [.symbol ")"])
  | .method object name args =>
    object.tokens ++ .symbol ":" :: .name name :: .symbol "(" ::
      (listed (Expr.tokensAll args) ++ [.symbol ")"])
  | .member object field => object.tokens ++ [.symbol ".", .name field]
  | .index object key => object.tokens ++ .symbol "[" :: (key.tokens ++ [.symbol "]"])
  | .len value => .symbol "#" :: value.tokens
  | .binary left op right => left.tokens ++ op.token :: right.tokens

def Expr.tokensAll : List Expr → List (List Token)
  | [] => []
  | e :: rest => e.tokens :: Expr.tokensAll rest

end

def Simple.tokens : Simple → List Token
  | declare name value => .keyword "local" :: .name name :: .symbol "=" :: value.tokens
  | assign target value => target.tokens ++ .symbol "=" :: value.tokens
  | eval call => call.tokens
  | ret value => .keyword "return" :: value.tokens

mutual

def Stmt.tokens : Stmt → List Token
  | .simple s => s.tokens
  | .ifThen condition body =>
    .keyword "if" :: (condition.tokens ++ .keyword "then" ::
      (Stmt.tokensBlock body ++ [.keyword "end"]))
  | .count var first last body =>
    .keyword "for" :: .name var :: .symbol "=" :: (first.tokens ++ .symbol "," ::
      (last.tokens ++ .keyword "do" :: (Stmt.tokensBlock body ++ [.keyword "end"])))

def Stmt.tokensBlock : List Stmt → List Token
  | [] => []
  | s :: rest => s.tokens ++ Stmt.tokensBlock rest

end

/-- The tokens of names with points between them. -/
def pathTokens : List String → List Token
  | [] => []
  | [n] => [.name n]
  | n :: rest => .name n :: .symbol "." :: pathTokens rest

def paramTokens (params : List String) : List Token := listed (params.map fun p => [.name p])

def Function.tokens (f : Function) : List Token :=
  (if f.isLocal then [.keyword "local", .keyword "function", .name f.name]
    else .keyword "function" :: pathTokens f.path) ++
  .symbol "(" :: (paramTokens f.params ++ .symbol ")" ::
    (Stmt.tokensBlock f.body ++ [.keyword "end"]))

def Module.tokens (m : Module) : List Token :=
  Stmt.tokensBlock m.header ++ m.helpers.flatMap Function.tokens ++
    m.functions.flatMap Function.tokens ++ [.keyword "return", .name m.exported]

end OpStubs.Lua
