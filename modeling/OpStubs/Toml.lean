import OpStubs.Text.Digits
import OpStubs.Text.Lines

namespace OpStubs.Toml

def isSpace (c : Char) : Bool := c == ' ' || c == '\t'

/-- Characters that comments and strings may hold. -/
def isText (c : Char) : Bool := c == '\t' || (' ' ≤ c && c != '\x7f')

def isBareKey (c : Char) : Bool := c.isAlphanum || c == '_' || c == '-'

structure Style where
  quote : Char
  escapes : Bool
  /-- Whether three quotes are at either end and lines may end between them. -/
  multiLine : Bool
  deriving DecidableEq, Repr

/-- The character that a backslash and `e` stand for, `r` being what follows, and how much of `r` it
takes. -/
def escape? (e : Char) (r : List Char) : Option (Char × Nat) :=
  match e with
  | 'b' => some ('\x08', 0)
  | 't' => some ('\t', 0)
  | 'n' => some ('\n', 0)
  | 'f' => some ('\x0c', 0)
  | 'r' => some ('\r', 0)
  | '"' => some ('"', 0)
  | '\\' => some ('\\', 0)
  | 'u' => (Text.hexChar? 4 r).map (·, 4)
  | 'U' => (Text.hexChar? 8 r).map (·, 8)
  | _ => none

/-- The text behind the blanks and line ends that a backslash at the end of a line takes with it.
There must be a line end. -/
def continuation? (r : List Char) : Option (List Char) :=
  match r.dropWhile isSpace with
  | '\n' :: rest => some (rest.dropWhile fun c => isSpace c || c == '\n')
  | _ => none

theorem length_continuation {r rest : List Char} (h : continuation? r = some rest) :
    rest.length < r.length := by
  unfold continuation? at h
  split at h
  · rename_i tail ht
    cases h
    have h₁ := (List.dropWhile_sublist isSpace (l := r)).length_le
    have h₂ := (List.dropWhile_sublist (fun c => isSpace c || c == '\n') (l := tail)).length_le
    rw [ht, List.length_cons] at h₁
    omega
  · cases h

def push (c : Char) (x : Option (List Char × List Char)) : Option (List Char × List Char) :=
  x.map fun (content, rest) => (c :: content, rest)

/-- A string behind its opening quotes: its content and the text behind its closing quotes. Up to
two quotes in a row are content where three of them close. -/
def readString (style : Style) : List Char → Option (List Char × List Char)
  | [] => none
  | c :: r =>
    if c = style.quote then
      let more := (r.takeWhile (· = c)).length
      if !style.multiLine then some ([], r)
      else if more < 2 then push c (readString style r)
      else if more ≤ 4 then some (List.replicate (more - 2) c, r.drop more)
      else none
    else if c = '\\' ∧ style.escapes then
      match r with
      | [] => none
      | e :: r' =>
        match escape? e r' with
        | some (x, used) => push x (readString style (r'.drop used))
        | none =>
          match _h : if style.multiLine then continuation? (e :: r') else none with
          | some rest => readString style rest
          | none => none
    else if isText c ∨ (c = '\n' ∧ style.multiLine) then push c (readString style r)
    else none
termination_by s => s.length
decreasing_by
  · simp
  · simp +arith
  · split at _h
    · have := length_continuation _h
      simp only [List.length_cons] at this ⊢
      omega
    · cases _h
  · simp

/-- Opens a string: its style and the text behind its opening quotes. A line end there does not
belong to a string of many lines. -/
def openString? : List Char → Option (Style × List Char)
  | a :: r =>
    if a = '"' ∨ a = '\'' then
      if r.take 2 = [a, a] then
        let body := r.drop 2
        some (⟨a, a = '"', true⟩, if body.head? = some '\n' then body.tail else body)
      else some (⟨a, a = '"', false⟩, r)
    else none
  | [] => none

def readValue (s : List Char) : Option (List Char × List Char) := do
  let (style, body) ← openString? s
  readString style body

/-- A key, bare or as a string of one line. -/
def readKey (s : List Char) : Option (List Char × List Char) :=
  match openString? s with
  | some (style, body) => if style.multiLine then none else readString style body
  | none =>
    match s.takeWhile isBareKey with
    | [] => none
    | key => some (key, s.dropWhile isBareKey)

/-- The text behind the line that ends here, perhaps in a comment. -/
def endLine (s : List Char) : Option (List Char) :=
  let s := match s.dropWhile isSpace with
    | '#' :: r => r.dropWhile isText
    | r => r
  match s with
  | [] => some []
  | '\n' :: r => some r
  | _ => none

def readPair (s : List Char) : Option ((List Char × List Char) × List Char) := do
  let (key, s) ← readKey s
  match s.dropWhile isSpace with
  | '=' :: r =>
    let (value, rest) ← readValue (r.dropWhile isSpace)
    return ((key, value), rest)
  | _ => none

/-- A line: a key with its string, or nothing but blanks and a comment; and the text behind it. -/
def readLine (s : List Char) : Option (List (String × String) × List Char) := do
  match endLine s with
  | some rest => return ([], rest)
  | none =>
    let ((key, value), rest) ← readPair (s.dropWhile isSpace)
    return ([(String.ofList key, String.ofList value)], ← endLine rest)

def readLines (s : List Char) : Option (List (String × String)) :=
  if s = [] then some []
  else
    match readLine s with
    | some (pairs, rest) =>
      if rest.length < s.length then (readLines rest).map (pairs ++ ·) else none
    | none => none
termination_by s.length

/-- The strings that a document sets at its top. Other values and tables are not read. -/
def strings? (text : String) : Option (List (String × String)) :=
  let s := Text.joinReturns text.toList
  readLines (if s.head? = some '\uFEFF' then s.tail else s)

end OpStubs.Toml
