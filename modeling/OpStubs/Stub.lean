import OpStubs.Lua.Tree
import OpStubs.Operation.Default
import OpStubs.Text.Blank

namespace OpStubs.Stub

open Lua

def table : String := "M"

def handle : String := "op"

def getContext : String := "get_context"

def tensorClass : String := "TFLTensor"

def packHandles : String := "pack_tfe_handle"

def wrapList : String := "wrap_result_list"

def wrapResults : String := "parse_execute_results"

def declare (name : String) (value : Expr) : Stmt := .simple (.declare name value)

def ret (value : Expr) : Stmt := .simple (.ret value)

def eval (call : Expr) : Stmt := .simple (.eval call)

def assign (target value : Expr) : Stmt := .simple (.assign target value)

def callHandle (name : String) (args : List Expr) : Expr := .method (.ident handle) name args

def require (path : String) : Expr := .callName "require" [.str path]

def header : List Stmt :=
  [declare table .emptyTable,
   declare Operation.infinityLocal (.member (.ident "math") "huge"),
   declare getContext (.member (require "tfl.context") getContext),
   declare tensorClass (require "tfl.Tensor")]

/-- Collects `value` for each `i` up to the length of `list`. -/
def mapList (list : String) (value : Expr) : List Stmt :=
  [declare "ret" .emptyTable,
   .count "i" (.literal "1") (.len (.ident list))
     [assign (.index (.ident "ret") (.ident "i")) value],
   ret (.ident "ret")]

def helper (name param : String) (body : List Stmt) : Function where
  name
  isLocal := true
  params := [param]
  body

/-- The handle of a wrapped tensor, or the value itself where it has none. -/
def unwrapped (value : Expr) : Expr := .orElse (.member value "_handle") value

def packHandlesHelper : Function :=
  helper packHandles "tensors"
    (mapList "tensors" (unwrapped (.index (.ident "tensors") (.ident "i"))))

def wrapListHelper : Function :=
  helper wrapList "res"
    (mapList "res" (.callName tensorClass [.index (.ident "res") (.ident "i")]))

/-- No result is `nil`, one is a tensor, more are a sequence. -/
def wrapResultsHelper : Function :=
  let count := Expr.len (.ident "res")
  helper wrapResults "res"
    [.ifThen (.equals count (.literal "0")) [ret (.literal "nil")],
     .ifThen (.equals count (.literal "1"))
       [ret (.callName tensorClass [.index (.ident "res") (.literal "1")])],
     ret (.callName wrapList [.ident "res"])]

/-- The lines of a text without blanks at their ends and without empty lines around them. -/
def bodyLines (body : String) : List (List Char) :=
  let lines := (Text.lines body.toList).map Text.trimEnd
  ((lines.dropWhile (· = [])).reverse.dropWhile (· = [])).reverse

def describeAttr (attr : Operation.Attribute) (text : Option String) : String :=
  let facts := (attr.default.elim "" fun d => "(optional " ++ d.doc ++ ")") ++
    attr.foreignType.elim "" fun t => "(" ++ t ++ ")"
  match text with
  | none => facts
  | some text => if facts = "" then text else facts ++ " " ++ text

def returnType : Operation.Arity → String
  | .none => "nil"
  | .single => "tfl.Tensor"
  | .many => "tfl.Tensor[]"

def docLines (op : Operation) : List DocLine :=
  (bodyLines op.doc.body).map (fun l => .text (String.ofList l)) ++
    op.inputs.map (fun i => .param i.var i.hostType ((op.doc.arg i.name).getD "")) ++
    op.attrParams.map (fun a => .param a.var a.hostType (describeAttr a (op.doc.arg a.name))) ++
    [.returns (returnType op.arity) op.doc.returns]

def coalesce (attr : Operation.Attribute) : Option Stmt :=
  attr.default.map fun d =>
    .ifThen (.equals (.ident attr.var) (.literal "nil"))
      [assign (.ident attr.var) (.literal d.literal)]

def newHandle (op : Operation) : Stmt :=
  declare handle (.method (.callName getContext []) "newOp" [.str op.name])

def addInput (input : Operation.Input) : Expr :=
  if input.variadic then callHandle "addInputList" [.callName packHandles [.ident input.var]]
  else callHandle "addInput" [unwrapped (.ident input.var)]

/-- A tensor is set by what it wraps. -/
def setAttr (attr : Operation.Attribute) : Expr :=
  match attr.binding with
  | .param setter var =>
    let value := Expr.ident var
    callHandle setter.method
      [.str attr.name,
       if setter.kind = .tensor then .orElse (.member value "_tensor") value else value]
  | .lengthOf inputVar =>
    callHandle Operation.Setter.int.method [.str attr.name, .len (.ident inputVar)]

def execute (arity : Operation.Arity) : Stmt :=
  let results := callHandle "execute" []
  match arity with
  | .none => eval results
  | .single => ret (.callName wrapResults [results])
  | .many => ret (.callName wrapList [results])

def body (op : Operation) : List Stmt :=
  op.attrParams.filterMap coalesce ++ [newHandle op] ++
    op.inputs.map (fun i => eval (addInput i)) ++ op.attrs.map (fun a => eval (setAttr a)) ++
    [execute op.arity]

def function (op : Operation) : Function where
  doc := docLines op
  name := table ++ "." ++ op.function
  params := op.params
  body := body op

def moduleOf (ops : List Operation) : Module where
  title := "TensorFlow raw_ops mappings"
  header
  helpers := [packHandlesHelper, wrapListHelper, wrapResultsHelper]
  functions := ops.map function
  exported := table

end OpStubs.Stub
