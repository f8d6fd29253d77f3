import OpStubs.TextFormat.Lexer

namespace OpStubs.TextFormat

structure Entry (α : Type) where
  name : String
  value : α
  pos : Pos
  deriving Repr

inductive Value where
  | str (value : String)
  | number (text : String)
  | ident (name : String)
  | message (fields : List (Entry Value))
  | list (items : List Value)
  deriving Repr

abbrev Field := Entry Value

/-- What the fields being read are the fields of. -/
inductive Around where
  | text
  /-- A message that `close` ends. It is the value of the field `name`, whose earlier neighbours are
  `before`, or an item of that field's list, whose earlier items are `items`. -/
  | message (close : Char) (around : Around) (before : List Field) (name : String) (pos : Pos)
    (items : Option (List Value))
  deriving Repr

/-- A field whose value is being read, and its earlier neighbours. -/
structure Slot where
  around : Around
  before : List Field
  name : String
  pos : Pos
  deriving Repr

/-- Where a value goes: into a slot, or into its list behind earlier items. -/
structure Place where
  slot : Slot
  items : Option (List Value) := none
  deriving Repr

def Place.message (p : Place) (close : Char) : Around :=
  .message close p.slot.around p.slot.before p.slot.name p.slot.pos p.items

/-- What may come next, no string being open. -/
inductive Expecting where
  /-- A field, or the end of the fields. Behind a field one separator may come first. -/
  | field (around : Around) (before : List Field) (separator : Bool)
  | colon (slot : Slot)
  | value (slot : Slot)
  /-- An item, or the end of a list that has none. -/
  | firstItem (slot : Slot)
  | item (slot : Slot) (before : List Value)
  /-- A comma, or the end of the list. -/
  | nextItem (slot : Slot) (before : List Value)
  /-- A number or an identifier behind a minus sign. -/
  | unsigned (place : Place) (minus : Pos)
  deriving Repr

inductive State where
  | at (next : Expecting)
  /-- Behind a string, which more strings may lengthen. -/
  | inText (place : Place) (value : String)
  deriving Repr

namespace Expecting

def deliver (v : Value) (p : Place) : Expecting :=
  match p.items with
  | none => .field p.slot.around (p.slot.before ++ [⟨p.slot.name, v, p.slot.pos⟩]) true
  | some items => .nextItem p.slot (items ++ [v])

def closing? (c : Char) : Option Char :=
  if c = '\x7b' then some '\x7d' else if c = '<' then some '>' else none

def openMessage? (p : Place) : Token → Option Expecting
  | .punct c => (closing? c).map fun close => .field (p.message close) [] false
  | _ => none

def takeScalar (p : Place) (t : Placed) : Except Problem State :=
  match t.token with
  | .str s => .ok (.inText p s)
  | .number text => .ok (.at (deliver (.number text) p))
  | .ident name => .ok (.at (deliver (.ident name) p))
  | .punct c =>
    if c = '-' then .ok (.at (.unsigned p t.pos)) else .error ⟨t.pos, .notAValue t.token⟩

def takeItem (p : Place) (t : Placed) : Except Problem State :=
  match openMessage? p t.token with
  | some e => .ok (.at e)
  | none => takeScalar p t

def takeUnsigned (p : Place) (t : Placed) : Except Problem State :=
  match t.token with
  | .number text => .ok (.at (deliver (.number ("-" ++ text)) p))
  | .ident name => .ok (.at (deliver (.ident ("-" ++ name)) p))
  | _ => .error ⟨t.pos, .notAValue t.token⟩

def close? (before : List Field) (c : Char) : Around → Option Expecting
  | .text => none
  | .message close around outer name pos items =>
    if c = close then some (deliver (.message before) ⟨⟨around, outer, name, pos⟩, items⟩) else none

def takeField (around : Around) (before : List Field) (separator : Bool) (t : Placed) :
    Except Problem State :=
  match t.token with
  | .ident name => .ok (.at (.colon ⟨around, before, name, t.pos⟩))
  | .punct c =>
    match close? before c around with
    | some e => .ok (.at e)
    | none =>
      if separator ∧ (c = ';' ∨ c = ',') then .ok (.at (.field around before false))
      else .error ⟨t.pos, .noFieldName t.token⟩
  | _ => .error ⟨t.pos, .noFieldName t.token⟩

def take (e : Expecting) (t : Placed) : Except Problem State :=
  match e with
  | .field around before separator => takeField around before separator t
  | .colon slot =>
    if t.token = .punct ':' then .ok (.at (.value slot))
    else
      match openMessage? ⟨slot, none⟩ t.token with
      | some e => .ok (.at e)
      | none => .error ⟨t.pos, .noColon slot.name⟩
  | .value slot =>
    if t.token = .punct '[' then .ok (.at (.firstItem slot)) else takeItem ⟨slot, none⟩ t
  | .firstItem slot =>
    if t.token = .punct ']' then .ok (.at (deliver (.list []) ⟨slot, none⟩))
    else takeItem ⟨slot, some []⟩ t
  | .item slot before => takeItem ⟨slot, some before⟩ t
  | .nextItem slot before =>
    if t.token = .punct ']' then .ok (.at (deliver (.list before) ⟨slot, none⟩))
    else if t.token = .punct ',' then .ok (.at (.item slot before))
    else .error ⟨t.pos, .noListSeparator⟩
  | .unsigned place _ => takeUnsigned place t

/-- The fields read, if the text may end here. `last` is the place behind it. -/
def finish (last : Pos) : Expecting → Except Problem (List Field)
  | .field .text before _ => .ok before
  | .field (.message close ..) _ _ => .error ⟨last, .unclosed close⟩
  | .colon slot => .error ⟨last, .noColon slot.name⟩
  | .value _ => .error ⟨last, .noValue⟩
  | .firstItem _ => .error ⟨last, .noValue⟩
  | .item _ _ => .error ⟨last, .noValue⟩
  | .nextItem _ _ => .error ⟨last, .noListSeparator⟩
  | .unsigned _ minus => .error ⟨minus, .noValue⟩

end Expecting

namespace State

def start : State := .at (.field .text [] false)

/-- What may come next apart from more of a string. -/
def next : State → Expecting
  | .at e => e
  | .inText place value => .deliver (.str value) place

def step (s : State) (t : Placed) : Except Problem State :=
  match s, t.token with
  | .inText place value, .str more => .ok (.inText place (value ++ more))
  | s, _ => s.next.take t

end State

/-- The fields that some tokens spell, `last` being the place behind the text. -/
def fieldsOfTokens (last : Pos) (ts : List Placed) : Except Problem (List Field) := do
  (← ts.foldlM State.step .start).next.finish last

end OpStubs.TextFormat
