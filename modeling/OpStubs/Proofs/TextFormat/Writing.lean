import OpStubs.Proofs.Number.Integer
import OpStubs.Proofs.TextFormat.Message
import OpStubs.Proofs.TextFormat.Reading
import OpStubs.Proofs.TextFormat.Spelling

namespace OpStubs

/-- Whether the text format has room for an operation. An empty text counts as absent there, and
integers have 64 bits. -/
structure OpDef.IsWritable (op : OpDef) : Prop where
  name : op.name ≠ ""
  summary : op.summary ≠ some ""
  description : op.description ≠ some ""
  args : ∀ a ∈ op.inputs ++ op.outputs,
    a.typeAttr ≠ some "" ∧ a.numberAttr ≠ some "" ∧ a.typeListAttr ≠ some ""
  ints : ∀ a ∈ op.attrs, ∀ i, a.default = some (.int i) → Number.fits64 i = true

namespace TextFormat

/-- Whether the fields of a name write some values in their order, fields of other names being
passed over. -/
def Writes {α : Type} (way : Value → α → Prop) (name : String) (fs : List Field) (xs : List α) :
    Prop :=
  List.Forall₂ (fun f x => way f.value x) (fs.filter (·.name == name)) xs

/-- Whether a value is a message whose fields write something. -/
def IsMessage {α : Type} (way : List Field → α → Prop) (v : Value) (x : α) : Prop :=
  ∃ fs, v = .message fs ∧ way fs x

def IsText (v : Value) (s : String) : Prop := v = .str s

def IsType (v : Value) (t : ElementType) : Prop :=
  v = .ident ("DT_" ++ t.name) ∨ v = .ident ("DT_" ++ t.name ++ "_REF")

inductive WritesDefault : Field → AttrValue → Prop
  | int (i : Int) (pos : Pos) : WritesDefault ⟨"i", .number (toString i), pos⟩ (.int i)
  | bool (b : Bool) (pos : Pos) : WritesDefault ⟨"b", .ident (toString b), pos⟩ (.bool b)
  | string (s : String) (pos : Pos) : WritesDefault ⟨"s", .str s, pos⟩ (.string s)
  | type {t : ElementType} {v : Value} (h : IsType v t) (pos : Pos) :
    WritesDefault ⟨"type", v, pos⟩ (.type t)
  | composite {name : String} (h : name ∈ ["list", "shape", "tensor", "func"]) (fs : List Field)
    (pos : Pos) : WritesDefault ⟨name, .message fs, pos⟩ .composite

def IsDefault (v : Value) (d : AttrValue) : Prop := ∃ f, v = .message [f] ∧ WritesDefault f d

structure WritesArg (fs : List Field) (a : ArgDef) : Prop where
  name : Writes IsText "name" fs [a.name]
  elementType : Writes IsType "type" fs a.elementType.toList
  typeAttr : Writes IsText "type_attr" fs a.typeAttr.toList
  numberAttr : Writes IsText "number_attr" fs a.numberAttr.toList
  typeListAttr : Writes IsText "type_list_attr" fs a.typeListAttr.toList

structure WritesAttr (fs : List Field) (a : AttrDef) : Prop where
  name : Writes IsText "name" fs [a.name]
  kind : Writes IsText "type" fs [a.kind]
  default : Writes IsDefault "default_value" fs a.default.toList

structure WritesOp (fs : List Field) (op : OpDef) : Prop where
  name : Writes IsText "name" fs [op.name]
  inputs : Writes (IsMessage WritesArg) "input_arg" fs op.inputs
  outputs : Writes (IsMessage WritesArg) "output_arg" fs op.outputs
  attrs : Writes (IsMessage WritesAttr) "attr" fs op.attrs
  summary : Writes IsText "summary" fs op.summary.toList
  description : Writes IsText "description" fs op.description.toList

def WritesRegistry (fs : List Field) (r : Registry) : Prop := Writes (IsMessage WritesOp) "op" fs r

section
variable {α β : Type} {way : Value → α → Prop} {read : Field → Except ReadError β} {name : String}
  {fs : List Field} {xs : List α}

/-- Fields that write values are read as what each of these values gives. -/
theorem Writes.reads {g : α → β} (h : Writes way name fs xs)
    (hread : ∀ x ∈ xs, ∀ f : Field, way f.value x → read f = .ok (g x)) :
    Reads read name fs (xs.map g) := by
  rw [Writes] at h
  rw [Reads]
  generalize fs.filter (·.name == name) = named at h
  induction h with
  | nil => exact .nil
  | cons hx _ ih =>
    refine .cons (hread _ (by simp) _ hx) (ih ?_)
    intro x hx
    exact hread x (by simp [hx])

end

theorem string_of_isText {f : Field} {s : String} (h : IsText f.value s) : f.string = .ok s := by
  rw [Entry.string, h]

theorem elementType_of_isType {f : Field} {t : ElementType} (h : IsType f.value t) :
    f.elementType = .ok t := by
  rw [Entry.elementType]
  rcases h with h | h
  · rw [h]
    simp only [(ElementType.ofIdentifier?_name t).1]
  · rw [h]
    simp only [(ElementType.ofIdentifier?_name t).2]

theorem message_of_isMessage {α : Type} {way : List Field → α → Prop} {f : Field} {x : α}
    (h : IsMessage way f.value x) : ∃ fs, f.message = .ok fs ∧ way fs x := by
  obtain ⟨fs, hv, hway⟩ := h
  exact ⟨fs, by rw [Entry.message, hv], hway⟩

theorem attrValue_of_writesDefault {f : Field} {d : AttrValue} (h : WritesDefault f d)
    (hd : ∀ i, d = .int i → Number.fits64 i = true) : f.attrValue = .ok d := by
  cases h with
  | int i pos =>
    have hparse := (Number.parseInt64?_toString i).trans (if_pos (hd i rfl))
    have hscalar : Entry.scalar ⟨"i", .number (toString i), pos⟩ = .ok (toString i) := rfl
    simp only [Entry.attrValue, hscalar, bind, Except.bind, hparse]
  | bool b pos => cases b <;> rfl
  | string s pos => rfl
  | @type t v ht pos =>
    have htype : Entry.elementType ⟨"type", v, pos⟩ = .ok t := elementType_of_isType ht
    change (Entry.elementType ⟨"type", v, pos⟩).map _ = _
    rw [htype]
    rfl
  | composite hname fs pos =>
    simp only [List.mem_cons, List.not_mem_nil, or_false] at hname
    rcases hname with rfl | rfl | rfl | rfl <;> rfl

theorem default_of_isDefault {f : Field} {d : AttrValue} (h : IsDefault f.value d)
    (hd : ∀ i, d = .int i → Number.fits64 i = true) : f.default = .ok (some d) := by
  obtain ⟨g, hv, hg⟩ := h
  have hmessage : f.message = .ok [g] := by rw [Entry.message, hv]
  have hvalue := attrValue_of_writesDefault hg hd
  rw [Entry.default, hmessage]
  change g.attrValue >>= _ = _
  rw [hvalue]
  rfl

theorem Writes.reads_string {name : String} {fs : List Field} {xs : List String}
    (h : Writes IsText name fs xs) : Reads Entry.string name fs xs := by
  have := h.reads (g := id) fun _ _ _ => string_of_isText
  rwa [List.map_id] at this

/-- A text that is not empty stands as given. -/
theorem foldl_nonEmpty {o : Option String} (h : o ≠ some "") :
    o.toList.foldl (fun _ s => nonEmpty s) none = o := by
  cases o with
  | none => rfl
  | some s =>
    refine if_neg ?_
    rintro rfl
    exact h rfl

theorem foldl_some {α : Type} (o : Option α) : o.toList.foldl (fun _ x => some x) none = o := by
  cases o <;> rfl

theorem argDef_of_isMessage {f : Field} {a : ArgDef} (h : IsMessage WritesArg f.value a)
    (ha : a.typeAttr ≠ some "" ∧ a.numberAttr ≠ some "" ∧ a.typeListAttr ≠ some "") :
    f.argDef = .ok a := by
  obtain ⟨fs, hmessage, hfs⟩ := message_of_isMessage h
  have htype : Reads Entry.elementType "type" fs (a.elementType.toList.map id) :=
    hfs.elementType.reads fun _ _ _ => elementType_of_isType
  obtain ⟨htypeAttr, hnumberAttr, htypeListAttr⟩ := ha
  rw [List.map_id] at htype
  rw [Entry.argDef, hmessage]
  exact foldlM_addToArg_eq_ok_iff.2 ⟨⟨_, hfs.name.reads_string, rfl⟩,
    ⟨_, htype, (foldl_some _).symm⟩,
    ⟨_, hfs.typeAttr.reads_string, (foldl_nonEmpty htypeAttr).symm⟩,
    ⟨_, hfs.numberAttr.reads_string, (foldl_nonEmpty hnumberAttr).symm⟩,
    ⟨_, hfs.typeListAttr.reads_string, (foldl_nonEmpty htypeListAttr).symm⟩⟩

theorem attrDef_of_isMessage {f : Field} {a : AttrDef} (h : IsMessage WritesAttr f.value a)
    (ha : ∀ i, a.default = some (.int i) → Number.fits64 i = true) : f.attrDef = .ok a := by
  obtain ⟨fs, hmessage, hfs⟩ := message_of_isMessage h
  have hdefault : Reads Entry.default "default_value" fs (a.default.toList.map some) := by
    refine hfs.default.reads fun d hd g hg => default_of_isDefault hg ?_
    rintro i rfl
    exact ha i (Option.mem_toList.1 hd)
  have hlast : a.default = (a.default.toList.map some).foldl (fun _ d => d) none := by
    rw [List.foldl_map, foldl_some]
  rw [Entry.attrDef, hmessage]
  exact foldlM_addToAttr_eq_ok_iff.2 ⟨⟨_, hfs.name.reads_string, rfl⟩,
    ⟨_, hfs.kind.reads_string, rfl⟩, ⟨_, hdefault, hlast⟩⟩

theorem opDef_of_isMessage {f : Field} {op : OpDef} (h : IsMessage WritesOp f.value op)
    (hop : op.IsWritable) : f.opDef = .ok op := by
  obtain ⟨fs, hmessage, hfs⟩ := message_of_isMessage h
  have hinputs : Reads Entry.argDef "input_arg" fs (op.inputs.map id) :=
    hfs.inputs.reads fun a ha g hg =>
      argDef_of_isMessage hg (hop.args a (List.mem_append_left _ ha))
  have houtputs : Reads Entry.argDef "output_arg" fs (op.outputs.map id) :=
    hfs.outputs.reads fun a ha g hg =>
      argDef_of_isMessage hg (hop.args a (List.mem_append_right _ ha))
  have hattrs : Reads Entry.attrDef "attr" fs (op.attrs.map id) :=
    hfs.attrs.reads fun a ha g hg => attrDef_of_isMessage hg (hop.ints a ha)
  rw [List.map_id] at hinputs houtputs hattrs
  have hfold : fs.foldlM Entry.addToOp {} = .ok op :=
    foldlM_addToOp_eq_ok_iff.2 ⟨⟨_, hfs.name.reads_string, rfl⟩, ⟨_, hinputs, rfl⟩,
      ⟨_, houtputs, rfl⟩, ⟨_, hattrs, rfl⟩,
      ⟨_, hfs.summary.reads_string, (foldl_nonEmpty hop.summary).symm⟩,
      ⟨_, hfs.description.reads_string, (foldl_nonEmpty hop.description).symm⟩⟩
  rw [Entry.opDef, hmessage]
  change (fs.foldlM Entry.addToOp {} >>= fun op =>
    if op.name = "" then f.fail .namelessOp else .ok op) = .ok op
  rw [hfold]
  exact if_neg hop.name

/-- A text is read as the registry that its fields write, in whatever way they spell it. -/
theorem registry_of_writes {r : Registry} (hr : ∀ op ∈ r, op.IsWritable) {d : FieldsTree}
    (hd : WritesRegistry d.fields r) {text : String} (ht : Spelled .start d.tokens text.toList) :
    registry text = .ok r := by
  have hfields : fields text.toList = .ok d.fields := by
    rw [fields, tokens, scan_spelled ht]
    exact fieldsOfTokens_tokens _ d
  have hops : Reads Entry.opDef "op" d.fields (r.map id) :=
    hd.reads fun op hop f hf => opDef_of_isMessage hf (hr op hop)
  rw [List.map_id] at hops
  rw [registry, hfields]
  exact mapM_of_reads hops

/-- The derivation of an operation in angle brackets, which has a field of another name. -/
def angleTree : FieldsTree :=
  .cons (.message "op" ⟨1, 1⟩ none (.mk .angle ⟨1, 3⟩
    (.cons (.scalar "name" ⟨1, 4⟩ ⟨1, 8⟩ (.str "A" ⟨1, 9⟩ [])) (some (.semicolon, ⟨1, 12⟩))
      (.cons (.scalar "description" ⟨1, 13⟩ ⟨1, 24⟩ (.str "it's" ⟨1, 25⟩ [])) none
        (.cons (.scalar "x" ⟨1, 33⟩ ⟨1, 34⟩ (.number none "1" ⟨1, 35⟩)) none .nil))) ⟨2, 1⟩))
    none .nil

theorem registry_of_writes_angleTree :
    (∀ op ∈ [{ name := "A", description := some "it's" : OpDef }], op.IsWritable) ∧
    WritesRegistry angleTree.fields [{ name := "A", description := some "it's" }] ∧
    Spelled .start angleTree.tokens "op<name:'A';description:'it\\'s' x:1#c\n>".toList ∧
    registry "op<name:'A';description:'it\\'s' x:1#c\n>" =
      .ok [{ name := "A", description := some "it's" }] := by
  have hwritable : ∀ op ∈ [{ name := "A", description := some "it's" : OpDef }],
      op.IsWritable := by
    simp only [List.mem_singleton, forall_eq]
    refine ⟨by decide, by decide, by decide, by decide, ?_⟩
    intro a ha
    cases ha
  have hwrites : WritesRegistry angleTree.fields
      [{ name := "A", description := some "it's" }] :=
    .cons ⟨_, rfl, .cons rfl .nil, .nil, .nil, .nil, .nil, .cons rfl .nil⟩ .nil
  have hspelled : Spelled .start angleTree.tokens
      "op<name:'A';description:'it\\'s' x:1#c\n>".toList := by
    refine .cons .nil (.ident "op".toList rfl) (stops_cons.2 rfl) ?_
    refine .cons .nil (.punct rfl) (stops_cons.2 rfl) ?_
    refine .cons .nil (.ident "name".toList rfl) (stops_cons.2 rfl) ?_
    refine .cons .nil (.punct rfl) (stops_cons.2 rfl) ?_
    refine .cons .nil (.str (.inr rfl) "A") (stops_cons.2 rfl) ?_
    refine .cons .nil (.punct rfl) (stops_cons.2 rfl) ?_
    refine .cons .nil (.ident "description".toList rfl) (stops_cons.2 rfl) ?_
    refine .cons .nil (.punct rfl) (stops_cons.2 rfl) ?_
    refine .cons .nil (.str (.inr rfl) "it's") (stops_cons.2 rfl) ?_
    refine .cons (.blank (c := ' ') rfl .nil) (.ident ['x'] rfl) (stops_cons.2 rfl) ?_
    refine .cons .nil (.punct rfl) (stops_cons.2 rfl) ?_
    refine .cons .nil (.number ['1'] rfl) (stops_cons.2 rfl) ?_
    refine .cons (.comment ['c'] (by simp) .nil) (.punct rfl) (stops_nil _) ?_
    exact .nil .nil
  exact ⟨hwritable, hwrites, hspelled, registry_of_writes hwritable hwrites hspelled⟩

end TextFormat

end OpStubs
