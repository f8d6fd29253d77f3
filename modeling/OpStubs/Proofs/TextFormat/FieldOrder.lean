import OpStubs.Proofs.TextFormat.Writing

namespace OpStubs.TextFormat

/-- The names of the fields that count in an operation, the others being passed over. -/
def opNames : List String :=
  ["name", "input_arg", "output_arg", "attr", "summary", "description"]

def argNames : List String := ["name", "type", "type_attr", "number_attr", "type_list_attr"]

def attrNames : List String := ["name", "type", "default_value"]

/-- Whether some fields are others in another order, in which those of a name keep theirs, with
fields of unknown names put in and left out and with some fields changed. -/
inductive Rearranged (names : List String) (changed : Field → Field → Prop) :
    List Field → List Field → Prop
  | nil : Rearranged names changed [] []
  | keep (x : Field) {fs fs' : List Field} (h : Rearranged names changed fs fs') :
    Rearranged names changed (x :: fs) (x :: fs')
  | change {x x' : Field} {fs fs' : List Field} (hx : changed x x')
    (h : Rearranged names changed fs fs') : Rearranged names changed (x :: fs) (x' :: fs')
  | putIn {x : Field} {fs fs' : List Field} (hx : x.name ∉ names)
    (h : Rearranged names changed fs fs') : Rearranged names changed fs (x :: fs')
  | leaveOut {x : Field} {fs fs' : List Field} (hx : x.name ∉ names)
    (h : Rearranged names changed fs fs') : Rearranged names changed (x :: fs) fs'
  | permute {fs fs' : List Field} (hperm : fs.Perm fs')
    (horder : ∀ name, fs.filter (·.name == name) = fs'.filter (·.name == name)) :
    Rearranged names changed fs fs'
  | trans {fs fs' fs'' : List Field} (h : Rearranged names changed fs fs')
    (h' : Rearranged names changed fs' fs'') : Rearranged names changed fs fs''

/-- Whether some fields are others rearranged, none being changed. -/
def RearrangedIn (names : List String) : List Field → List Field → Prop :=
  Rearranged names fun _ _ => False

/-- Whether two fields are one argument or attribute, the fields inside rearranged. -/
inductive Changed : Field → Field → Prop
  | input {fs fs' : List Field} (h : RearrangedIn argNames fs fs') (pos : Pos) :
    Changed ⟨"input_arg", .message fs, pos⟩ ⟨"input_arg", .message fs', pos⟩
  | output {fs fs' : List Field} (h : RearrangedIn argNames fs fs') (pos : Pos) :
    Changed ⟨"output_arg", .message fs, pos⟩ ⟨"output_arg", .message fs', pos⟩
  | attr {fs fs' : List Field} (h : RearrangedIn attrNames fs fs') (pos : Pos) :
    Changed ⟨"attr", .message fs, pos⟩ ⟨"attr", .message fs', pos⟩

/-- Whether the last field of a name is read as a value, or there is neither. -/
def Last {α : Type} (read : Field → Except ReadError α) (name : String) (fs : List Field)
    (o : Option α) : Prop :=
  Option.Rel (fun x a => read x = .ok a) (fs.filter (·.name == name)).getLast? o

/-- Whether a text is that of the last field of a name, an empty one counting as absent. -/
def LastText (name : String) (fs : List Field) (o : Option String) : Prop :=
  ∃ s, Last Entry.string name fs s ∧ o = s.filter (· ≠ "")

/-- Whether a text is that of the last field of a name, empty where there is none. -/
def LastName (name : String) (fs : List Field) (s : String) : Prop :=
  ∃ o, Last Entry.string name fs o ∧ s = o.getD ""

structure ArgGives (fs : List Field) (a : ArgDef) : Prop where
  name : LastName "name" fs a.name
  elementType : Last Entry.elementType "type" fs a.elementType
  typeAttr : LastText "type_attr" fs a.typeAttr
  numberAttr : LastText "number_attr" fs a.numberAttr
  typeListAttr : LastText "type_list_attr" fs a.typeListAttr

structure AttrGives (fs : List Field) (a : AttrDef) : Prop where
  name : LastName "name" fs a.name
  kind : LastName "type" fs a.kind
  default : ∃ o, Last Entry.default "default_value" fs o ∧ a.default = o.getD none

/-- Whether an operation has what its fields give: of each text the last one, and every argument and
attribute in its order. -/
structure OpGives (fs : List Field) (op : OpDef) : Prop where
  name : LastName "name" fs op.name
  inputs : Writes (IsMessage ArgGives) "input_arg" fs op.inputs
  outputs : Writes (IsMessage ArgGives) "output_arg" fs op.outputs
  attrs : Writes (IsMessage AttrGives) "attr" fs op.attrs
  summary : LastText "summary" fs op.summary
  description : LastText "description" fs op.description

section Reads
variable {α : Type} {read : Field → Except ReadError α} {name : String} {names : List String}
  {changed : Field → Field → Prop} {fs fs' : List Field} {ys : List α}

/-- The fields of a name are read as before if a changed one is. -/
theorem Rearranged.reads (h : Rearranged names changed fs fs') (hname : name ∈ names)
    (hsame : ∀ x x', changed x x' → x'.name = x.name)
    (hread : ∀ x x' y, changed x x' → x.name = name → read x = .ok y → read x' = .ok y)
    (hreads : Reads read name fs ys) : Reads read name fs' ys := by
  have hunknown {x : Field} (hx : x.name ∉ names) : x.name ≠ name := by
    rintro rfl
    exact hx hname
  induction h generalizing ys with
  | nil => exact hreads
  | keep x h ih =>
    rw [reads_cons] at hreads ⊢
    split
    · rename_i hx
      rw [if_pos hx] at hreads
      obtain ⟨y, ys', hy, hreads, rfl⟩ := hreads
      exact ⟨y, ys', hy, ih hreads, rfl⟩
    · rename_i hx
      rw [if_neg hx] at hreads
      exact ih hreads
  | @change x x' fs fs' hx h ih =>
    rw [reads_cons] at hreads ⊢
    rw [hsame x x' hx]
    split
    · rename_i hn
      rw [if_pos hn] at hreads
      obtain ⟨y, ys', hy, hreads, rfl⟩ := hreads
      exact ⟨y, ys', hread x x' y hx hn hy, ih hreads, rfl⟩
    · rename_i hn
      rw [if_neg hn] at hreads
      exact ih hreads
  | putIn hx h ih =>
    rw [reads_cons, if_neg (hunknown hx)]
    exact ih hreads
  | leaveOut hx h ih =>
    rw [reads_cons, if_neg (hunknown hx)] at hreads
    exact ih hreads
  | permute hperm horder => rwa [Reads, ← horder name]
  | trans h h' ih ih' => exact ih' (ih hreads)

/-- A message that takes over its parts is read as the same one of rearranged fields. -/
theorem TakesOver.rearranged {β : Type} {step : β → Field → Except ReadError β}
    {parts : List (Part β)} (hstep : TakesOver step parts) (h : Rearranged names changed fs fs')
    (hnames : ∀ p ∈ parts, p.name ∈ names) (hsame : ∀ x x', changed x x' → x'.name = x.name)
    (hread : ∀ p ∈ parts, ∀ x x' y, changed x x' → x.name = p.name → p.read x = .ok y →
      p.read x' = .ok y) {a b : β} (hfold : fs.foldlM step a = .ok b) :
    fs'.foldlM step a = .ok b := by
  rw [hstep.foldlM_eq_ok_iff] at hfold ⊢
  intro p hp
  obtain ⟨ys, hys, hb⟩ := hfold p hp
  exact ⟨ys, h.reads (hnames p hp) hsame (hread p hp) hys, hb⟩

theorem TakesOver.rearrangedIn {β : Type} {step : β → Field → Except ReadError β}
    {parts : List (Part β)} (hstep : TakesOver step parts) (h : RearrangedIn names fs fs')
    (hnames : ∀ p ∈ parts, p.name ∈ names) {a b : β} (hfold : fs.foldlM step a = .ok b) :
    fs'.foldlM step a = .ok b :=
  hstep.rearranged h hnames (fun _ _ hx => hx.elim) (fun _ _ _ _ _ hx => hx.elim) hfold

theorem last_of_reads (h : Reads read name fs ys) : Last read name fs ys.getLast? := by
  rw [Reads, ← List.forall₂_reverse_iff] at h
  rw [Last, ← List.head?_reverse, ← List.head?_reverse]
  generalize (fs.filter (·.name == name)).reverse = named at h
  generalize ys.reverse = values at h
  cases h with
  | nil => exact .none
  | cons hx _ => exact .some hx

theorem foldl_last {β : Type} (f : α → β) (ys : List α) (b : β) :
    ys.foldl (fun _ y => f y) b = (ys.getLast?.map f).getD b := by
  induction ys generalizing b with
  | nil => rfl
  | cons y ys ih =>
    rw [List.foldl_cons, ih, List.getLast?_cons]
    cases ys.getLast? <;> rfl

theorem lastName_of_reads {ss : List String} (h : Reads Entry.string name fs ss) :
    LastName name fs (ss.foldl (fun _ s => s) "") :=
  ⟨ss.getLast?, last_of_reads h, by rw [foldl_last, Option.map_id']⟩

theorem lastText_of_reads {ss : List String} (h : Reads Entry.string name fs ss) :
    LastText name fs (ss.foldl (fun _ s => nonEmpty s) none) := by
  refine ⟨ss.getLast?, last_of_reads h, ?_⟩
  rw [foldl_last]
  cases ss.getLast? with
  | none => rfl
  | some s =>
    by_cases hs : s = ""
    · simp [nonEmpty, hs, Option.filter]
    · simp [nonEmpty, hs, Option.filter]

end Reads

section Messages
variable {β : Type} {x : Field}

/-- What is made of a message is made of its fields. -/
theorem message_bind_ok_iff {k : List Field → Except ReadError β} {b : β} :
    x.message >>= k = .ok b ↔ ∃ fs, x.value = .message fs ∧ k fs = .ok b := by
  rw [bind_ok_iff]
  refine exists_congr fun fs => and_congr_left fun _ => ?_
  cases hv : x.value with
  | message fs' => simp [Entry.message, hv]
  | str s => simp [Entry.message, Entry.wrong, Entry.fail, hv]
  | number s => simp [Entry.message, Entry.wrong, Entry.fail, hv]
  | ident s => simp [Entry.message, Entry.wrong, Entry.fail, hv]
  | list items => simp [Entry.message, Entry.wrong, Entry.fail, hv]

end Messages

section Arguments
variable {fs fs' : List Field} {a : ArgDef}

theorem isMessage_of_argDef {x : Field} (h : x.argDef = .ok a) :
    IsMessage ArgGives x.value a := by
  obtain ⟨fs, hv, hfold⟩ := message_bind_ok_iff.1 h
  obtain ⟨⟨names, hnames, hname⟩, ⟨types, htypes, htype⟩, ⟨typeAttrs, htypeAttrs, htypeAttr⟩,
    ⟨numberAttrs, hnumberAttrs, hnumberAttr⟩, typeListAttrs, htypeListAttrs, htypeListAttr⟩ :=
    foldlM_addToArg_eq_ok_iff.1 hfold
  refine ⟨fs, hv, ?_, ?_, ?_, ?_, ?_⟩
  · rw [hname]
    exact lastName_of_reads hnames
  · have hlast : types.foldl (fun _ t => some t) none = types.getLast? := by
      rw [foldl_last]
      cases types.getLast? <;> rfl
    rw [htype, hlast]
    exact last_of_reads htypes
  · rw [htypeAttr]
    exact lastText_of_reads htypeAttrs
  · rw [hnumberAttr]
    exact lastText_of_reads hnumberAttrs
  · rw [htypeListAttr]
    exact lastText_of_reads htypeListAttrs

theorem argDef_of_rearranged {name : String} {pos : Pos} (h : RearrangedIn argNames fs fs')
    (ha : Entry.argDef ⟨name, .message fs, pos⟩ = .ok a) :
    Entry.argDef ⟨name, .message fs', pos⟩ = .ok a := by
  obtain ⟨fs, ⟨⟩, hfold⟩ := message_bind_ok_iff.1 ha
  exact message_bind_ok_iff.2
    ⟨fs', rfl, takesOver_arg.rearrangedIn h (by simp [argParts, argNames]) hfold⟩

end Arguments

section Attributes
variable {fs fs' : List Field} {a : AttrDef}

theorem isMessage_of_attrDef {x : Field} (h : x.attrDef = .ok a) :
    IsMessage AttrGives x.value a := by
  obtain ⟨fs, hv, hfold⟩ := message_bind_ok_iff.1 h
  obtain ⟨⟨names, hnames, hname⟩, ⟨kinds, hkinds, hkind⟩, defaults, hdefaults, hdefault⟩ :=
    foldlM_addToAttr_eq_ok_iff.1 hfold
  refine ⟨fs, hv, ?_, ?_, defaults.getLast?, last_of_reads hdefaults, ?_⟩
  · rw [hname]
    exact lastName_of_reads hnames
  · rw [hkind]
    exact lastName_of_reads hkinds
  · rw [hdefault, foldl_last, Option.map_id']

theorem attrDef_of_rearranged {name : String} {pos : Pos} (h : RearrangedIn attrNames fs fs')
    (ha : Entry.attrDef ⟨name, .message fs, pos⟩ = .ok a) :
    Entry.attrDef ⟨name, .message fs', pos⟩ = .ok a := by
  obtain ⟨fs, ⟨⟩, hfold⟩ := message_bind_ok_iff.1 ha
  exact message_bind_ok_iff.2
    ⟨fs', rfl, takesOver_attr.rearrangedIn h (by simp [attrParts, attrNames]) hfold⟩

end Attributes

section Operations
variable {fs fs' : List Field} {op : OpDef}

theorem Changed.name_eq {x x' : Field} (h : Changed x x') : x'.name = x.name := by
  cases h <;> rfl

/-- Texts are not changed. -/
theorem Changed.name_mem {x x' : Field} (h : Changed x x') :
    x.name ∈ ["input_arg", "output_arg", "attr"] := by
  cases h <;> simp

theorem Changed.argDef {x x' : Field} (h : Changed x x') (hname : x.name ≠ "attr") {a : ArgDef}
    (ha : x.argDef = .ok a) : x'.argDef = .ok a := by
  cases h with
  | input h pos => exact argDef_of_rearranged h ha
  | output h pos => exact argDef_of_rearranged h ha
  | attr h pos => exact absurd rfl hname

theorem Changed.attrDef {x x' : Field} (h : Changed x x') (hname : x.name = "attr") {a : AttrDef}
    (ha : x.attrDef = .ok a) : x'.attrDef = .ok a := by
  cases h with
  | input h pos => simp at hname
  | output h pos => simp at hname
  | attr h pos => exact attrDef_of_rearranged h ha

/-- What is read of a field stays if its argument or attribute is rearranged inside. -/
theorem Changed.read {p : Part OpDef} (hp : p ∈ opParts) {x x' : Field} {y : p.Given}
    (h : Changed x x') (hname : x.name = p.name) (hread : p.read x = .ok y) :
    p.read x' = .ok y := by
  have htext {name : String} (hx : x.name = name)
      (hapart : name ∉ ["input_arg", "output_arg", "attr"]) : p.read x' = .ok y :=
    absurd (hx ▸ h.name_mem) hapart
  simp only [opParts, List.mem_cons, List.not_mem_nil, or_false] at hp
  rcases hp with rfl | rfl | rfl | rfl | rfl | rfl
  · exact htext hname (by decide)
  · exact h.argDef (by rw [hname]; decide) hread
  · exact h.argDef (by rw [hname]; decide) hread
  · exact h.attrDef hname hread
  · exact htext hname (by decide)
  · exact htext hname (by decide)

theorem opGives_of_foldlM (h : fs.foldlM Entry.addToOp {} = .ok op) : OpGives fs op := by
  obtain ⟨⟨names, hnames, hname⟩, ⟨inputs, hinputs, hinput⟩, ⟨outputs, houtputs, houtput⟩,
    ⟨attrs, hattrs, hattr⟩, ⟨summaries, hsummaries, hsummary⟩, descriptions, hdescriptions,
    hdescription⟩ := foldlM_addToOp_eq_ok_iff.1 h
  rw [List.nil_append] at hinput houtput hattr
  refine ⟨?_, ?_, ?_, ?_, ?_, ?_⟩
  · rw [hname]
    exact lastName_of_reads hnames
  · rw [hinput]
    exact hinputs.imp fun _ _ => isMessage_of_argDef
  · rw [houtput]
    exact houtputs.imp fun _ _ => isMessage_of_argDef
  · rw [hattr]
    exact hattrs.imp fun _ _ => isMessage_of_attrDef
  · rw [hsummary]
    exact lastText_of_reads hsummaries
  · rw [hdescription]
    exact lastText_of_reads hdescriptions

theorem opDef_eq_ok_iff {x : Field} : x.opDef = .ok op ↔
    ∃ fs, x.value = .message fs ∧ fs.foldlM Entry.addToOp {} = .ok op ∧ op.name ≠ "" := by
  rw [Entry.opDef, message_bind_ok_iff]
  refine exists_congr fun fs => and_congr_right fun _ => ?_
  rw [bind_ok_iff]
  constructor
  · rintro ⟨op', hfold, hname⟩
    split at hname
    · cases hname
    · rename_i hne
      cases hname
      exact ⟨hfold, hne⟩
  · rintro ⟨hfold, hne⟩
    exact ⟨op, hfold, if_neg hne⟩

/-- An operation is read as the same one in whatever order its fields and those of its arguments and
attributes stand, those of a name among themselves apart, and whatever fields of unknown names stand
among them. What it holds is what its fields give, the last of a name where only one counts. -/
theorem opDef_of_rearranged {x : Field} (h : x.opDef = .ok op) :
    ∃ fs, x.value = .message fs ∧ OpGives fs op ∧
      ∀ fs', Rearranged opNames Changed fs fs' →
        ∀ x' : Field, x'.value = .message fs' → x'.opDef = .ok op := by
  obtain ⟨fs, hv, hfold, hname⟩ := opDef_eq_ok_iff.1 h
  refine ⟨fs, hv, opGives_of_foldlM hfold, fun fs' hfs' x' hv' => ?_⟩
  have hfold' := takesOver_op.rearranged hfs' (by simp [opParts, opNames])
    (fun _ _ => Changed.name_eq) (fun p hp x x' y hx hn => hx.read hp hn) hfold
  exact opDef_eq_ok_iff.2 ⟨fs', hv', hfold', hname⟩

/-- Neighbours of different names may change places. -/
theorem Rearranged.swap {names : List String} {changed : Field → Field → Prop} {x y : Field}
    (h : x.name ≠ y.name) (fs : List Field) :
    Rearranged names changed (x :: y :: fs) (y :: x :: fs) := by
  refine .permute (.swap y x fs) fun name => ?_
  by_cases hx : x.name = name
  · have hy : y.name ≠ name := fun hy => h (hx.trans hy.symm)
    simp [hx, hy]
  · simp [List.filter_cons, hx]

/-- The fields of an operation with two names, of which the first comes too early. -/
def renamedFields : List Field :=
  [⟨"name", .str "B", .start⟩,
    ⟨"input_arg", .message [⟨"type", .ident "DT_INT32", .start⟩, ⟨"name", .str "x", .start⟩],
      .start⟩,
    ⟨"name", .str "A", .start⟩, ⟨"summary", .str "s", .start⟩, ⟨"summary", .str "", .start⟩]

/-- The same with its argument in front, inside which a field of another name stands. -/
def rearrangedFields : List Field :=
  [⟨"input_arg", .message [⟨"name", .str "x", .start⟩, ⟨"note", .number "1", .start⟩,
      ⟨"type", .ident "DT_INT32", .start⟩], .start⟩,
    ⟨"name", .str "B", .start⟩, ⟨"visibility", .list [], .start⟩, ⟨"name", .str "A", .start⟩,
    ⟨"summary", .str "s", .start⟩, ⟨"summary", .str "", .start⟩]

theorem opDef_of_rearranged_renamed :
    Entry.opDef ⟨"op", .message renamedFields, .start⟩ =
      .ok { name := "A", inputs := [{ name := "x", elementType := some .int32 }] } ∧
    OpGives renamedFields { name := "A", inputs := [{ name := "x", elementType := some .int32 }] } ∧
    Rearranged opNames Changed renamedFields rearrangedFields ∧
    Entry.opDef ⟨"op", .message rearrangedFields, .start⟩ =
      .ok { name := "A", inputs := [{ name := "x", elementType := some .int32 }] } := by
  have hread : Entry.opDef ⟨"op", .message renamedFields, .start⟩ =
      .ok { name := "A", inputs := [{ name := "x", elementType := some .int32 }] } := rfl
  have hin : RearrangedIn argNames [⟨"type", .ident "DT_INT32", .start⟩, ⟨"name", .str "x", .start⟩]
      [⟨"name", .str "x", .start⟩, ⟨"note", .number "1", .start⟩,
        ⟨"type", .ident "DT_INT32", .start⟩] :=
    .trans (.swap (by decide) []) (.keep _ (.putIn (by decide) (.keep _ .nil)))
  have hfields : Rearranged opNames Changed renamedFields rearrangedFields :=
    .trans (.swap (by decide) _) (.change (.input hin .start)
      (.keep _ (.putIn (by decide) (.keep _ (.keep _ (.keep _ .nil))))))
  obtain ⟨_, ⟨⟩, hgives, hrearranged⟩ := opDef_of_rearranged hread
  exact ⟨hread, hgives, hfields, hrearranged rearrangedFields hfields _ rfl⟩

end Operations

end OpStubs.TextFormat
