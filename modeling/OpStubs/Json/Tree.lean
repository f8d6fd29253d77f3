import OpStubs.Json.Lexer

namespace OpStubs.Json

/-- A document as far as it can be read. What cannot be read stands in it as `broken`, and where a
list or an object is neither closed nor goes on, its `ending` tells so. -/
inductive Tree where
  | null
  | bool (value : Bool)
  | number (n : Numeral)
  | string (content : Except Fault (List Char))
  | array (items : List Tree) (ending : Option Break)
  | object (members : List (Except Fault (List Char) × Tree)) (ending : Option Break)
  | broken (b : Break)
  deriving Repr

abbrev Member := Except Fault (List Char) × Tree

inductive Frame where
  | item (before : List Tree)
  | member (before : List Member) (key : Except Fault (List Char))
  deriving Repr

/-- What may come next, inside the frames around it, the innermost first. -/
inductive State where
  | value (frames : List Frame)
  /-- A first item, or the end of the array. -/
  | firstItem (frames : List Frame)
  /-- A comma, or the end of the array. -/
  | nextItem (before : List Tree) (frames : List Frame)
  /-- A first key, or the end of the object. -/
  | firstKey (frames : List Frame)
  | key (before : List Member) (frames : List Frame)
  | colon (before : List Member) (key : Except Fault (List Char)) (frames : List Frame)
  /-- A comma, or the end of the object. -/
  | nextMember (before : List Member) (frames : List Frame)
  /-- Nothing. `trailing` tells that something came. -/
  | done (root : Tree) (trailing : Bool)
  deriving Repr

namespace State

def deliver (t : Tree) : List Frame → State
  | [] => .done t false
  | .item before :: outer => .nextItem (before ++ [t]) outer
  | .member before name :: outer => .nextMember (before ++ [(name, t)]) outer

/-- The document whose text cannot be read beyond `t`. -/
def abandon (t : Tree) : List Frame → Tree
  | [] => t
  | .item before :: outer => abandon (.array (before ++ [t]) none) outer
  | .member before name :: outer => abandon (.object (before ++ [(name, t)]) none) outer

def stop (t : Tree) (frames : List Frame) : State := .done (abandon t frames) false

def takeValue (frames : List Frame) : Token → State
  | .null => deliver .null frames
  | .bool b => deliver (.bool b) frames
  | .number n => deliver (.number n) frames
  | .string content => deliver (.string content) frames
  | .broken _ b => stop (.broken b) frames
  | .punct c =>
    if c = '[' then .firstItem frames
    else if c = '\x7b' then .firstKey frames
    else stop (.broken (.both .malformed)) frames

def takeKey (before : List Member) (frames : List Frame) : Token → State
  | .string content => .colon before content frames
  | .broken true b => stop (.object before (some b)) frames
  | _ => stop (.object before (some (.both .malformed))) frames

def step (s : State) (t : Token) : State :=
  match s with
  | .value frames => takeValue frames t
  | .firstItem frames =>
    match t with
    | .punct ']' => deliver (.array [] none) frames
    | t => takeValue (.item [] :: frames) t
  | .nextItem before frames =>
    match t with
    | .punct ']' => deliver (.array before none) frames
    | .punct ',' => .value (.item before :: frames)
    | _ => stop (.array before (some (.both .malformed))) frames
  | .firstKey frames =>
    match t with
    | .punct '\x7d' => deliver (.object [] none) frames
    | t => takeKey [] frames t
  | .key before frames => takeKey before frames t
  | .colon before name frames =>
    match t with
    | .punct ':' => .value (.member before name :: frames)
    | _ => stop (.broken (.both .malformed)) (.member before name :: frames)
  | .nextMember before frames =>
    match t with
    | .punct '\x7d' => deliver (.object before none) frames
    | .punct ',' => .key before frames
    | _ => stop (.object before (some (.both .malformed))) frames
  | .done root _ => .done root true

def truncated : Break := .both .truncated

/-- The document at the end of the text, and whether something comes behind it. -/
def finish : State → Tree × Bool
  | .value frames => (abandon (.broken truncated) frames, false)
  | .firstItem frames => (abandon (.array [] (some truncated)) frames, false)
  | .nextItem before frames => (abandon (.array before (some truncated)) frames, false)
  | .firstKey frames => (abandon (.object [] (some truncated)) frames, false)
  | .key before frames => (abandon (.object before (some truncated)) frames, false)
  | .colon before name frames =>
    (abandon (.broken truncated) (.member before name :: frames), false)
  | .nextMember before frames => (abandon (.object before (some truncated)) frames, false)
  | .done root trailing => (root, trailing)

end State

def document (s : List Char) : Tree × Bool := ((tokens s).foldl State.step (.value [])).finish

end OpStubs.Json
