import OpStubs.Proofs.TextFormat.Message

namespace OpStubs.TextFormat

section Moving
variable (f : Pos → Pos)

def Placed.moved (t : Placed) : Placed := ⟨t.token, f t.pos⟩

def Problem.moved (p : Problem) : Problem := ⟨f p.pos, p.cause⟩

def ReadError.moved : ReadError → ReadError
  | .problem p => .problem (p.moved f)
  | .unknownElementType name => .unknownElementType name

mutual

def Value.moved : Value → Value
  | .str value => .str value
  | .number text => .number text
  | .ident name => .ident name
  | .message fields => .message (movedFields fields)
  | .list items => .list (movedValues items)

def movedFields : List (Entry Value) → List (Entry Value)
  | [] => []
  | ⟨name, value, pos⟩ :: fields => ⟨name, value.moved, f pos⟩ :: movedFields fields

def movedValues : List Value → List Value
  | [] => []
  | value :: values => value.moved :: movedValues values

end

def Entry.moved (x : Field) : Field := ⟨x.name, x.value.moved f, f x.pos⟩

def Around.moved : Around → Around
  | .text => .text
  | .message close around before name pos items =>
    .message close around.moved (before.map (Entry.moved f)) name (f pos)
      (items.map (List.map (Value.moved f)))

def Slot.moved (s : Slot) : Slot :=
  ⟨s.around.moved f, s.before.map (Entry.moved f), s.name, f s.pos⟩

def Place.moved (p : Place) : Place := ⟨p.slot.moved f, p.items.map (List.map (Value.moved f))⟩

def Expecting.moved : Expecting → Expecting
  | .field around before separator =>
    .field (around.moved f) (before.map (Entry.moved f)) separator
  | .colon slot => .colon (slot.moved f)
  | .value slot => .value (slot.moved f)
  | .firstItem slot => .firstItem (slot.moved f)
  | .item slot before => .item (slot.moved f) (before.map (Value.moved f))
  | .nextItem slot before => .nextItem (slot.moved f) (before.map (Value.moved f))
  | .unsigned place minus => .unsigned (place.moved f) (f minus)

def State.moved : State → State
  | .at next => .at (next.moved f)
  | .inText place value => .inText (place.moved f) value

/-- A result that other places give. -/
def movedResult {α : Type} (g : α → α) : Except Problem α → Except Problem α
  | .ok a => .ok (g a)
  | .error p => .error (p.moved f)

end Moving

theorem movedFields_eq (f : Pos → Pos) (fields : List Field) :
    movedFields f fields = fields.map (Entry.moved f) := by
  induction fields with
  | nil => rfl
  | cons x fields ih => exact congrArg (x.moved f :: ·) ih

theorem movedValues_eq (f : Pos → Pos) (values : List Value) :
    movedValues f values = values.map (Value.moved f) := by
  induction values with
  | nil => rfl
  | cons v values ih => exact congrArg (v.moved f :: ·) ih

namespace Expecting
variable (f : Pos → Pos)

theorem deliver_moved (v : Value) (p : Place) :
    deliver (v.moved f) (p.moved f) = (deliver v p).moved f := by
  obtain ⟨slot, items⟩ := p
  cases items with
  | none => simp [deliver, Place.moved, Slot.moved, Expecting.moved, Entry.moved]
  | some items => simp [deliver, Place.moved, Expecting.moved]

theorem delivered_moved (v : Value) (p : Place) :
    .ok (.at (deliver (v.moved f) (p.moved f))) =
      movedResult f (State.moved f) (.ok (.at (deliver v p))) := by
  rw [deliver_moved]
  rfl

theorem openMessage?_moved (p : Place) (t : Token) :
    openMessage? (p.moved f) t = (openMessage? p t).map (·.moved f) := by
  cases t with
  | punct c =>
    simp only [openMessage?, Option.map_map]
    rfl
  | str value => rfl
  | number text => rfl
  | ident name => rfl

theorem takeScalar_moved (p : Place) (t : Placed) :
    takeScalar (p.moved f) (t.moved f) = movedResult f (·.moved f) (takeScalar p t) := by
  obtain ⟨token, pos⟩ := t
  cases token with
  | str value => rfl
  | number text => exact delivered_moved f (.number text) p
  | ident name => exact delivered_moved f (.ident name) p
  | punct c =>
    simp only [takeScalar, Placed.moved]
    split <;> rfl

theorem takeItem_moved (p : Place) (t : Placed) :
    takeItem (p.moved f) (t.moved f) = movedResult f (·.moved f) (takeItem p t) := by
  have hopen := openMessage?_moved f p t.token
  have htoken : (t.moved f).token = t.token := rfl
  rw [takeItem, takeItem, htoken, hopen]
  cases openMessage? p t.token with
  | some e => rfl
  | none => exact takeScalar_moved f p t

theorem takeUnsigned_moved (p : Place) (t : Placed) :
    takeUnsigned (p.moved f) (t.moved f) = movedResult f (·.moved f) (takeUnsigned p t) := by
  obtain ⟨token, pos⟩ := t
  cases token with
  | number text => exact delivered_moved f (.number ("-" ++ text)) p
  | ident name => exact delivered_moved f (.ident ("-" ++ name)) p
  | str value => rfl
  | punct c => rfl

theorem close?_moved (before : List Field) (c : Char) (around : Around) :
    close? (before.map (Entry.moved f)) c (around.moved f) =
      (close? before c around).map (·.moved f) := by
  cases around with
  | text => rfl
  | message close around outer name pos items =>
    have hvalue : Value.message (before.map (Entry.moved f)) = (Value.message before).moved f := by
      rw [Value.moved, movedFields_eq]
    simp only [close?, Around.moved]
    split
    · rw [hvalue]
      exact congrArg some (deliver_moved f (.message before) ⟨⟨around, outer, name, pos⟩, items⟩)
    · rfl

theorem takeField_moved (around : Around) (before : List Field) (separator : Bool) (t : Placed) :
    takeField (around.moved f) (before.map (Entry.moved f)) separator (t.moved f) =
      movedResult f (·.moved f) (takeField around before separator t) := by
  obtain ⟨token, pos⟩ := t
  cases token with
  | ident name => rfl
  | punct c =>
    simp only [takeField, Placed.moved, close?_moved]
    cases close? before c around with
    | some e => rfl
    | none =>
      simp only [Option.map_none]
      split <;> rfl
  | str value => rfl
  | number text => rfl

theorem list_moved (items : List Value) :
    Value.list (items.map (Value.moved f)) = (Value.list items).moved f := by
  rw [Value.moved, movedValues_eq]

theorem take_moved (e : Expecting) (t : Placed) :
    (e.moved f).take (t.moved f) = movedResult f (·.moved f) (e.take t) := by
  have htoken : (t.moved f).token = t.token := rfl
  have hdeliver (items : List Value) (slot : Slot) :
      .ok (.at (deliver (.list (items.map (Value.moved f))) ⟨slot.moved f, none⟩)) =
        movedResult f (State.moved f) (.ok (.at (deliver (.list items) ⟨slot, none⟩))) := by
    rw [list_moved]
    exact delivered_moved f (.list items) ⟨slot, none⟩
  cases e with
  | field around before separator => exact takeField_moved f around before separator t
  | colon slot =>
    simp only [take, Expecting.moved, htoken]
    split
    · rfl
    · have hopen := openMessage?_moved f ⟨slot, none⟩ t.token
      simp only [Place.moved, Option.map_none] at hopen
      rw [hopen]
      cases openMessage? ⟨slot, none⟩ t.token with
      | some e => rfl
      | none => rfl
  | value slot =>
    simp only [take, Expecting.moved, htoken]
    split
    · rfl
    · exact takeItem_moved f ⟨slot, none⟩ t
  | firstItem slot =>
    simp only [take, Expecting.moved, htoken]
    split
    · exact hdeliver [] slot
    · exact takeItem_moved f ⟨slot, some []⟩ t
  | item slot before => exact takeItem_moved f ⟨slot, some before⟩ t
  | nextItem slot before =>
    simp only [take, Expecting.moved, htoken]
    split
    · exact hdeliver before slot
    · split <;> rfl
  | unsigned place minus => exact takeUnsigned_moved f place t

theorem finish_moved (last : Pos) (e : Expecting) :
    (e.moved f).finish (f last) = movedResult f (List.map (Entry.moved f)) (e.finish last) := by
  cases e with
  | field around before separator => cases around <;> rfl
  | colon slot => rfl
  | value slot => rfl
  | firstItem slot => rfl
  | item slot before => rfl
  | nextItem slot before => rfl
  | unsigned place minus => rfl

end Expecting

namespace State
variable (f : Pos → Pos)

theorem next_moved (s : State) : (s.moved f).next = s.next.moved f := by
  cases s with
  | «at» next => rfl
  | inText place value => exact Expecting.deliver_moved f (.str value) place

theorem step_moved (s : State) (t : Placed) :
    (s.moved f).step (t.moved f) = movedResult f (·.moved f) (s.step t) := by
  have htake := Expecting.take_moved f s.next t
  rw [← next_moved] at htake
  cases s with
  | «at» next => exact htake
  | inText place value =>
    obtain ⟨token, pos⟩ := t
    cases token with
    | str more => rfl
    | ident name => exact htake
    | number text => exact htake
    | punct c => exact htake

theorem run_moved (s : State) (ts : List Placed) :
    (ts.map (Placed.moved f)).foldlM step (s.moved f) =
      movedResult f (·.moved f) (ts.foldlM step s) := by
  induction ts generalizing s with
  | nil => rfl
  | cons t ts ih =>
    rw [List.map_cons, List.foldlM_cons, List.foldlM_cons, step_moved]
    cases s.step t with
    | error p => rfl
    | ok s' => exact ih s'

end State

/-- Fields of tokens at other places are the fields of the tokens, at those places. -/
theorem fieldsOfTokens_moved (f : Pos → Pos) (last : Pos) (ts : List Placed) :
    fieldsOfTokens (f last) (ts.map (Placed.moved f)) =
      movedResult f (List.map (Entry.moved f)) (fieldsOfTokens last ts) := by
  have hrun := State.run_moved f .start ts
  have hstart : State.start.moved f = .start := rfl
  rw [hstart] at hrun
  rw [fieldsOfTokens, fieldsOfTokens, hrun]
  cases ts.foldlM State.step .start with
  | error p => rfl
  | ok s =>
    have hfinish := Expecting.finish_moved f last s.next
    rw [← State.next_moved] at hfinish
    exact hfinish

namespace Entry

section
variable {f : Pos → Pos} {α β : Type}

theorem bind_moved {x x' : Except ReadError α} {k k' : α → Except ReadError β}
    (hx : x' = x.mapError (.moved f)) (hk : ∀ a, k' a = (k a).mapError (.moved f)) :
    x' >>= k' = (x >>= k).mapError (.moved f) := by
  rw [hx]
  cases x with
  | error e => rfl
  | ok a => exact hk a

theorem map_moved {x x' : Except ReadError α} (hx : x' = x.mapError (.moved f)) (g : α → β) :
    x'.map g = (x.map g).mapError (.moved f) := by
  rw [hx]
  cases x <;> rfl

theorem foldlM_moved {step : β → Field → Except ReadError β}
    (h : ∀ b x, step b (x.moved f) = (step b x).mapError (.moved f)) (b : β) (fields : List Field) :
    (fields.map (Entry.moved f)).foldlM step b = (fields.foldlM step b).mapError (.moved f) := by
  induction fields generalizing b with
  | nil => rfl
  | cons x fields ih =>
    rw [List.map_cons, List.foldlM_cons, List.foldlM_cons]
    exact bind_moved (h b x) ih

theorem mapM_moved {read : Field → Except ReadError α}
    (h : ∀ x, read (x.moved f) = (read x).mapError (.moved f)) (fields : List Field) :
    (fields.map (Entry.moved f)).mapM read = (fields.mapM read).mapError (.moved f) := by
  induction fields with
  | nil => rfl
  | cons x fields ih =>
    rw [List.map_cons, List.mapM_cons, List.mapM_cons]
    exact bind_moved (h x) fun a => bind_moved ih fun _ => rfl

end

section
variable (f : Pos → Pos) (x : Field)

theorem describe_moved (v : Value) : (v.moved f).describe = v.describe := by
  cases v with
  | list items =>
    rw [Value.moved, movedValues_eq]
    simp [Value.describe]
  | str value => rfl
  | number text => rfl
  | ident name => rfl
  | message fields => rfl

theorem wrong_moved {α : Type} (expected : String) :
    ((x.moved f).wrong expected : Except ReadError α) = (x.wrong expected).mapError (.moved f) := by
  simp only [wrong, Entry.moved, describe_moved]
  rfl

/-- What is made of a message at other places depends on what is made of its fields there. -/
theorem message_moved {α : Type} {k k' : List Field → Except ReadError α}
    (hk : ∀ fields, k' (fields.map (Entry.moved f)) = (k fields).mapError (.moved f)) :
    (x.moved f).message >>= k' = (x.message >>= k).mapError (.moved f) := by
  obtain ⟨name, value, pos⟩ := x
  have hwrong (v : Value) : (wrong ⟨name, v.moved f, f pos⟩ "a message" >>= k') =
      (wrong ⟨name, v, pos⟩ "a message" >>= k).mapError (.moved f) :=
    congrArg (· >>= k') (wrong_moved f ⟨name, v, pos⟩ "a message")
  cases value with
  | message fields =>
    have h := hk fields
    rw [← movedFields_eq] at h
    exact h
  | str value => exact hwrong (.str value)
  | number text => exact hwrong (.number text)
  | ident ident => exact hwrong (.ident ident)
  | list items => exact hwrong (.list items)

theorem string_moved : (x.moved f).string = x.string.mapError (.moved f) := by
  obtain ⟨name, value, pos⟩ := x
  cases value with
  | str value => rfl
  | number text => rfl
  | ident ident => rfl
  | message fields => rfl
  | list items => exact wrong_moved f ⟨name, .list items, pos⟩ "a string"

theorem scalar_moved : (x.moved f).scalar = x.scalar.mapError (.moved f) := by
  obtain ⟨name, value, pos⟩ := x
  cases value with
  | str value => rfl
  | number text => rfl
  | ident ident => rfl
  | message fields => rfl
  | list items => exact wrong_moved f ⟨name, .list items, pos⟩ "a number"

theorem elementType_moved : (x.moved f).elementType = x.elementType.mapError (.moved f) := by
  obtain ⟨name, value, pos⟩ := x
  cases value with
  | str value => rfl
  | number text => rfl
  | ident ident =>
    simp only [elementType, Entry.moved, Value.moved]
    cases ElementType.ofIdentifier? ident <;> rfl
  | message fields => rfl
  | list items => exact wrong_moved f ⟨name, .list items, pos⟩ "an identifier"

theorem attrValue_moved : (x.moved f).attrValue = x.attrValue.mapError (.moved f) := by
  have hname : (x.moved f).name = x.name := rfl
  unfold attrValue
  rw [hname]
  split
  · refine bind_moved (scalar_moved f x) fun s => ?_
    cases Number.parseInt64? s.toList <;> rfl
  · refine bind_moved (scalar_moved f x) fun s => ?_
    cases float? s.toList <;> rfl
  · refine bind_moved (scalar_moved f x) fun s => ?_
    cases bool? s <;> rfl
  · exact map_moved (string_moved f x) AttrValue.string
  · exact map_moved (elementType_moved f x) AttrValue.type
  · rfl

theorem default_moved : (x.moved f).default = x.default.mapError (.moved f) := by
  refine message_moved f x fun fields => ?_
  cases fields with
  | nil => rfl
  | cons value fields => exact bind_moved (attrValue_moved f value) fun _ => rfl

/-- A message is made of fields at other places if its parts are read there. -/
theorem foldlM_moved_of_takesOver {α : Type} {step : α → Field → Except ReadError α}
    {parts : List (Part α)} (h : TakesOver step parts)
    (hread : ∀ p ∈ parts, ∀ x : Field, p.read (x.moved f) = (p.read x).mapError (.moved f)) (a : α)
    (fields : List Field) : (fields.map (Entry.moved f)).foldlM step a =
      (fields.foldlM step a).mapError (.moved f) := by
  refine foldlM_moved (fun a x => ?_) a fields
  by_cases hknown : ∃ p ∈ parts, x.name = p.name
  · obtain ⟨p, hp, hx⟩ := hknown
    rw [h.own p hp a x hx, h.own p hp a (x.moved f) hx, hread p hp x]
    cases p.read x <;> rfl
  · have hunknown : ∀ p ∈ parts, x.name ≠ p.name := fun p hp hx => hknown ⟨p, hp, hx⟩
    rw [h.unknown a x hunknown, h.unknown a (x.moved f) hunknown]
    rfl

theorem attrDef_moved : (x.moved f).attrDef = x.attrDef.mapError (.moved f) := by
  refine message_moved f x (foldlM_moved_of_takesOver f takesOver_attr ?_ {})
  simp only [attrParts, List.forall_mem_cons]
  exact ⟨string_moved f, string_moved f, default_moved f, List.forall_mem_nil _⟩

theorem argDef_moved : (x.moved f).argDef = x.argDef.mapError (.moved f) := by
  refine message_moved f x (foldlM_moved_of_takesOver f takesOver_arg ?_ {})
  simp only [argParts, List.forall_mem_cons]
  exact ⟨string_moved f, elementType_moved f, string_moved f, string_moved f, string_moved f,
    List.forall_mem_nil _⟩

theorem opDef_moved : (x.moved f).opDef = x.opDef.mapError (.moved f) := by
  have hparts : ∀ p ∈ opParts, ∀ x : Field,
      p.read (x.moved f) = (p.read x).mapError (.moved f) := by
    simp only [opParts, List.forall_mem_cons]
    exact ⟨string_moved f, argDef_moved f, argDef_moved f, attrDef_moved f, string_moved f,
      string_moved f, List.forall_mem_nil _⟩
  refine message_moved f x fun fields => ?_
  refine bind_moved (foldlM_moved_of_takesOver f takesOver_op hparts {} fields) fun op => ?_
  split <;> rfl

end

end Entry

/-- The registry that some tokens spell, `last` being the place behind the text. -/
def registryOfTokens (last : Pos) (ts : List Placed) : Except ReadError Registry := do
  let fields ← (fieldsOfTokens last ts).mapError .problem
  (fields.filter fun x => x.name == "op").mapM Entry.opDef

theorem registry_of_tokens {text : String} {ts : List Placed} (h : tokens text.toList = .ok ts) :
    registry text = registryOfTokens (endOf text.toList) ts := by
  rw [registry, fields, h]
  rfl

/-- A registry is read off tokens wherever they stand, and what is wrong with it is wrong at the
places where they stand. -/
theorem registryOfTokens_moved (f : Pos → Pos) (last : Pos) (ts : List Placed) :
    registryOfTokens (f last) (ts.map (Placed.moved f)) =
      (registryOfTokens last ts).mapError (.moved f) := by
  have hfilter (fields : List Field) :
      (fields.map (Entry.moved f)).filter (fun x => x.name == "op") =
        (fields.filter fun x => x.name == "op").map (Entry.moved f) := by
    rw [List.filter_map]
    rfl
  rw [registryOfTokens, registryOfTokens, fieldsOfTokens_moved]
  cases fieldsOfTokens last ts with
  | error p => rfl
  | ok fields =>
    have hops := Entry.mapM_moved (Entry.opDef_moved f) (fields.filter fun x => x.name == "op")
    rw [← hfilter] at hops
    exact hops

end OpStubs.TextFormat
