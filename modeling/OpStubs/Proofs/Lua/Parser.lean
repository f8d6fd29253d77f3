import OpStubs.Proofs.Lua.Lexer

namespace OpStubs.Lua

namespace Token

def unary? : Token → Option UnaryOperator
  | .keyword "not" => some .not
  | .symbol "#" => some .length
  | .symbol "-" => some .negate
  | _ => none

def binary? : Token → Option Operator
  | .keyword "or" => some .or
  | .keyword "and" => some .and
  | .symbol "<" => some .lt
  | .symbol ">" => some .gt
  | .symbol "<=" => some .le
  | .symbol ">=" => some .ge
  | .symbol "~=" => some .ne
  | .symbol "==" => some .eq
  | .symbol ".." => some .concat
  | .symbol "+" => some .add
  | .symbol "-" => some .sub
  | .symbol "*" => some .mul
  | .symbol "/" => some .div
  | .symbol "%" => some .mod
  | .symbol "^" => some .pow
  | _ => none

/-- Whether a token continues an expression that a call or an index may be applied to. -/
def startsSuffix : Token → Bool
  | .string _ => true
  | .symbol s => s == "." || s == "[" || s == ":" || s == "(" || s == "\x7b"
  | _ => false

/-- Whether no statement can begin with a token, so that a block is over before it. -/
def endsBlock : Token → Bool
  | .keyword k => k == "end" || k == "else" || k == "elseif" || k == "until"
  | _ => false

end Token

/-- Whether an expression may stand on the left of an assignment. -/
def Exp.isTarget : Exp → Bool
  | .name _ | .field .. | .index .. => true
  | _ => false

def Exp.isCall : Exp → Bool
  | .call .. | .method .. => true
  | _ => false

/-- What was read at the start of `ts` and what follows it, if that is shorter than `ts`. -/
def taken? {α : Type} (ts : List Token) (r : Option (α × List Token)) :
    Option (α × {rest : List Token // rest.length < ts.length}) :=
  r.bind fun (a, rest) => if h : rest.length < ts.length then some (a, ⟨rest, h⟩) else none

/-- What was read, if the token `t` follows it, which is read too. -/
def followed? {α : Type} (t : Token) (r : Option (α × List Token)) : Option (α × List Token) :=
  r.bind fun (a, rest) => if rest.head? = some t then some (a, rest.tail) else none

theorem taken_some {α : Type} {ts rest : List Token} {a : α} (h : rest.length < ts.length) :
    taken? ts (some (a, rest)) = some (a, ⟨rest, h⟩) := by
  simp [taken?, h]

@[simp] theorem followed_some {α : Type} (t : Token) (a : α) (rest : List Token) :
    followed? t (some (a, t :: rest)) = some (a, rest) := by
  simp [followed?]

mutual

/-- An expression whose operators hold their left operand more tightly than `limit`. -/
def subexpr? (limit : Nat) : List Token → Option (Exp × List Token)
  | [] => none
  | t :: r =>
    match t.unary? with
    | some op => do
      let (e, ⟨r', _⟩) ← taken? (t :: r) (subexpr? unaryPriority r)
      operators? limit (.unary op e) r'
    | none => do
      let (e, ⟨r', _⟩) ← taken? (t :: r) (simple? (t :: r))
      operators? limit e r'
termination_by ts => 6 * ts.length + 4
decreasing_by all_goals simp only [List.length_cons] at *; omega

/-- The operators that follow a left operand, each with its right operand. -/
def operators? (limit : Nat) (left : Exp) : List Token → Option (Exp × List Token)
  | [] => some (left, [])
  | t :: r =>
    match t.binary? with
    | none => some (left, t :: r)
    | some op =>
      if limit < op.left then do
        let (right, ⟨r', _⟩) ← taken? (t :: r) (subexpr? op.right r)
        operators? limit (.binary left op right) r'
      else some (left, t :: r)
termination_by ts => 6 * ts.length + 3
decreasing_by all_goals simp only [List.length_cons] at *; omega

/-- An operand. -/
def simple? : List Token → Option (Exp × List Token)
  | .keyword "nil" :: r => some (.nil, r)
  | .keyword "true" :: r => some (.bool true, r)
  | .keyword "false" :: r => some (.bool false, r)
  | .numeral text :: r => some (.numeral text, r)
  | .string value :: r => some (.string value, r)
  | .symbol "\x7b" :: .symbol "\x7d" :: r => some (.table, r)
  | ts => primary? ts
termination_by ts => 6 * ts.length + 3
decreasing_by omega

/-- A name or an expression in parentheses, and the calls and indices that follow. -/
def primary? : List Token → Option (Exp × List Token)
  | .name n :: r => suffixes? (.name n) r
  | .symbol "(" :: r => do
    let (e, ⟨r', _⟩) ← taken? (.symbol "(" :: r) (followed? (.symbol ")") (subexpr? 0 r))
    suffixes? (.paren e) r'
  | _ => none
termination_by ts => 6 * ts.length + 2
decreasing_by all_goals simp only [List.length_cons] at *; omega

/-- The calls and indices that are applied to an expression. -/
def suffixes? (e : Exp) : List Token → Option (Exp × List Token)
  | [] => some (e, [])
  | .symbol "." :: .name field :: r => suffixes? (.field e field) r
  | .symbol "[" :: r => do
    let (key, ⟨r', _⟩) ← taken? (.symbol "[" :: r) (followed? (.symbol "]") (subexpr? 0 r))
    suffixes? (.index e key) r'
  | .symbol ":" :: .name name :: r => do
    let (args, ⟨r', _⟩) ← taken? (.name name :: r) (arguments? r)
    suffixes? (.method e name args) r'
  | t :: r =>
    if t.startsSuffix then do
      let (args, ⟨r', _⟩) ← taken? (t :: r) (arguments? (t :: r))
      suffixes? (.call e args) r'
    else some (e, t :: r)
termination_by ts => 6 * ts.length + 1
decreasing_by all_goals simp only [List.length_cons] at *; omega

/-- The arguments of a call: a string or a table alone, or expressions in parentheses. -/
def arguments? : List Token → Option (List Exp × List Token)
  | .string value :: r => some ([.string value], r)
  | .symbol "\x7b" :: .symbol "\x7d" :: r => some ([.table], r)
  | .symbol "(" :: .symbol ")" :: r => some ([], r)
  | .symbol "(" :: r => followed? (.symbol ")") (expressions? r)
  | _ => none
termination_by ts => 6 * ts.length
decreasing_by all_goals simp only [List.length_cons] at *; omega

/-- Expressions with commas between them. -/
def expressions? (ts : List Token) : Option (List Exp × List Token) := do
  let (e, ⟨r, h⟩) ← taken? ts (subexpr? 0 ts)
  match r, h with
  | .symbol "," :: r', _ => do
    let (es, ⟨r'', _⟩) ← taken? ts (expressions? r')
    some (e :: es, r'')
  | r, _ => some ([e], r)
termination_by 6 * ts.length + 5
decreasing_by
  · omega
  · simp only [List.length_cons] at *; omega

end

/-- Names with commas between them, up to a closing parenthesis. -/
def parameters? : List Token → Option (List String × List Token)
  | .symbol ")" :: r => some ([], r)
  | .name n :: .symbol ")" :: r => some ([n], r)
  | .name n :: .symbol "," :: r => (parameters? r).map fun (ns, r') => (n :: ns, r')
  | _ => none

/-- Names with points between them. -/
def path? : List Token → Option (List String × List Token)
  | .name n :: .symbol "." :: r => (path? r).map fun (ns, r') => (n :: ns, r')
  | .name n :: r => some ([n], r)
  | _ => none

mutual

/-- The statements up to the end of a block. One that returns is the last of its block. -/
def block? : List Token → Option (List Stat × List Token)
  | [] => some ([], [])
  | t :: r =>
    if t.endsBlock then some ([], t :: r)
    else if t = .keyword "return" then do
      let (e, r') ← subexpr? 0 r
      if r'.head?.all Token.endsBlock then some ([.ret e], r') else none
    else do
      let (s, ⟨r', _⟩) ← taken? (t :: r) (statement? (t :: r))
      let (ss, r'') ← block? r'
      some (s :: ss, r'')
termination_by ts => 2 * ts.length + 1
decreasing_by all_goals simp only [List.length_cons] at *; omega

def statement? : List Token → Option (Stat × List Token)
  | .keyword "local" :: .keyword "function" :: .name n :: .symbol "(" :: r => do
    let (ps, ⟨r', _⟩) ← taken? (.symbol "(" :: r) (parameters? r)
    let (ss, r'') ← followed? (.keyword "end") (block? r')
    some (.localFunction n ps ss, r'')
  | .keyword "local" :: .name n :: .symbol "=" :: r => do
    let (e, r') ← subexpr? 0 r
    some (.declare n e, r')
  | .keyword "if" :: r => do
    let (e, ⟨r', _⟩) ← taken? (.keyword "if" :: r) (followed? (.keyword "then") (subexpr? 0 r))
    let (ss, r'') ← followed? (.keyword "end") (block? r')
    some (.ifThen e ss, r'')
  | .keyword "for" :: .name n :: .symbol "=" :: r => do
    let (first, r') ← followed? (.symbol ",") (subexpr? 0 r)
    let (last, ⟨r'', _⟩) ← taken? (.symbol "=" :: r) (followed? (.keyword "do") (subexpr? 0 r'))
    let (ss, r3) ← followed? (.keyword "end") (block? r'')
    some (.count n first last ss, r3)
  | .keyword "function" :: r => do
    let (path, r') ← followed? (.symbol "(") (path? r)
    let (ps, ⟨r'', _⟩) ← taken? (.keyword "function" :: r) (parameters? r')
    let (ss, r3) ← followed? (.keyword "end") (block? r'')
    some (.function path ps ss, r3)
  | ts => do
    let (e, r) ← primary? ts
    match r with
    | .symbol "=" :: r' =>
      if e.isTarget then do
        let (v, r'') ← subexpr? 0 r'
        some (.assign e v, r'')
      else none
    | _ => if e.isCall then some (.eval e, r) else none
termination_by ts => 2 * ts.length
decreasing_by all_goals simp only [List.length_cons] at *; omega

end

/-- Reads a text that is one expression. -/
def readExp? (text : String) : Option Exp := do
  let ts ← Token.scan text.toList
  let (e, rest) ← subexpr? 0 ts
  if rest = [] then some e else none

/-- Reads the statements of a file. -/
def read? (text : String) : Option (List Stat) := do
  let ts ← Token.scan text.toList
  let (ss, rest) ← block? ts
  if rest = [] then some ss else none

end OpStubs.Lua
