import OpStubs.TextFormat.Field

namespace OpStubs.TextFormat

/-- What stands around a message. -/
inductive Bracket where
  | curly
  | angle
  deriving DecidableEq, Repr

namespace Bracket

def opening : Bracket → Char
  | curly => '\x7b'
  | angle => '<'

def closing : Bracket → Char
  | curly => '\x7d'
  | angle => '>'

end Bracket

/-- What may stand behind a field. -/
inductive Separator where
  | semicolon
  | comma
  deriving DecidableEq, Repr

def Separator.char : Separator → Char
  | semicolon => ';'
  | comma => ','

/-- A character of the grammar at its place. -/
def mark (c : Char) (pos : Pos) : Placed := ⟨.punct c, pos⟩

/-- A scalar: `Str+ | '-'? Number | '-'? Ident`. -/
inductive ScalarTree where
  | str (first : String) (pos : Pos) (more : List (String × Pos))
  | number (minus : Option Pos) (text : String) (pos : Pos)
  | ident (minus : Option Pos) (name : String) (pos : Pos)
  deriving Repr

namespace ScalarTree

def strTokens (strings : List (String × Pos)) : List Placed := strings.map fun s => ⟨.str s.1, s.2⟩

def minusTokens (minus : Option Pos) : List Placed := minus.toList.map (mark '-')

def tokens : ScalarTree → List Placed
  | str first pos more => ⟨.str first, pos⟩ :: strTokens more
  | number minus text pos => minusTokens minus ++ [⟨.number text, pos⟩]
  | ident minus name pos => minusTokens minus ++ [⟨.ident name, pos⟩]

/-- A minus sign in front of a text. -/
def signed (minus : Option Pos) (text : String) : String := if minus.isSome then "-" ++ text else text

def joined (first : String) (strings : List (String × Pos)) : String :=
  strings.foldl (fun text s => text ++ s.1) first

def value : ScalarTree → Value
  | str first _ more => .str (joined first more)
  | number minus text _ => .number (signed minus text)
  | ident minus name _ => .ident (signed minus name)

end ScalarTree

mutual

/-- Fields: `(field (';' | ',')?)*`. -/
inductive FieldsTree where
  | nil
  | cons (field : FieldTree) (separator : Option (Separator × Pos)) (rest : FieldsTree)

/-- A field: `Ident ':'? message | Ident ':' (scalar | '[' ']' | '[' item (',' item)* ']')`. -/
inductive FieldTree where
  | message (name : String) (pos : Pos) (colon : Option Pos) (value : MessageTree)
  | scalar (name : String) (pos colon : Pos) (value : ScalarTree)
  | emptyList (name : String) (pos colon opening closing : Pos)
  | list (name : String) (pos colon opening : Pos) (first : ItemTree) (more : ItemsTree)
    (closing : Pos)

/-- Fields in braces or in angle brackets. -/
inductive MessageTree where
  | mk (bracket : Bracket) (opening : Pos) (fields : FieldsTree) (closing : Pos)

/-- An item of a list: `message | scalar`. -/
inductive ItemTree where
  | message (value : MessageTree)
  | scalar (value : ScalarTree)

/-- The items behind a first one: `(',' item)*`. -/
inductive ItemsTree where
  | nil
  | cons (comma : Pos) (item : ItemTree) (rest : ItemsTree)

end

def separatorTokens (separator : Option (Separator × Pos)) : List Placed :=
  separator.toList.map fun s => mark s.1.char s.2

def colonTokens (colon : Option Pos) : List Placed := colon.toList.map (mark ':')

mutual

/-- The tokens that a derivation derives. -/
def FieldsTree.tokens : FieldsTree → List Placed
  | .nil => []
  | .cons field separator rest => field.tokens ++ (separatorTokens separator ++ rest.tokens)

def FieldTree.tokens : FieldTree → List Placed
  | .message name pos colon value => ⟨.ident name, pos⟩ :: (colonTokens colon ++ value.tokens)
  | .scalar name pos colon value => ⟨.ident name, pos⟩ :: mark ':' colon :: value.tokens
  | .emptyList name pos colon opening closing =>
    [⟨.ident name, pos⟩, mark ':' colon, mark '[' opening, mark ']' closing]
  | .list name pos colon opening first more closing =>
    ⟨.ident name, pos⟩ :: mark ':' colon :: mark '[' opening ::
      (first.tokens ++ (more.tokens ++ [mark ']' closing]))

def MessageTree.tokens : MessageTree → List Placed
  | .mk bracket opening fields closing =>
    mark bracket.opening opening :: (fields.tokens ++ [mark bracket.closing closing])

def ItemTree.tokens : ItemTree → List Placed
  | .message value => value.tokens
  | .scalar value => value.tokens

def ItemsTree.tokens : ItemsTree → List Placed
  | .nil => []
  | .cons comma item rest => mark ',' comma :: (item.tokens ++ rest.tokens)

end

mutual

/-- The fields that a derivation means. -/
def FieldsTree.fields : FieldsTree → List Field
  | .nil => []
  | .cons field _ rest => field.field :: rest.fields

def FieldTree.field : FieldTree → Field
  | .message name pos _ value => ⟨name, value.value, pos⟩
  | .scalar name pos _ value => ⟨name, value.value, pos⟩
  | .emptyList name pos _ _ _ => ⟨name, .list [], pos⟩
  | .list name pos _ _ first more _ => ⟨name, .list (first.value :: more.values), pos⟩

def MessageTree.value : MessageTree → Value
  | .mk _ _ fields _ => .message fields.fields

def ItemTree.value : ItemTree → Value
  | .message value => value.value
  | .scalar value => value.value

def ItemsTree.values : ItemsTree → List Value
  | .nil => []
  | .cons _ item rest => item.value :: rest.values

end

end OpStubs.TextFormat
