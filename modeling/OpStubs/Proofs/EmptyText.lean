import OpStubs.Generate
import OpStubs.Proofs.TextFormat.Message
import OpStubs.Registry.Read

namespace OpStubs

/-- Whether no text of an argument is given and empty. -/
structure ArgDef.NoEmptyText (a : ArgDef) : Prop where
  typeAttr : a.typeAttr ≠ some ""
  numberAttr : a.numberAttr ≠ some ""
  typeListAttr : a.typeListAttr ≠ some ""

/-- Whether no text of an operation is given and empty, its name apart. -/
structure OpDef.NoEmptyText (op : OpDef) : Prop where
  summary : op.summary ≠ some ""
  description : op.description ≠ some ""
  inputs : ∀ a ∈ op.inputs, a.NoEmptyText
  outputs : ∀ a ∈ op.outputs, a.NoEmptyText

theorem nonEmpty_ne (s : String) : nonEmpty s ≠ some "" := by
  unfold nonEmpty
  split
  · simp
  · rename_i h
    simpa using h

theorem bind_nonEmpty_ne (o : Option String) : o.bind nonEmpty ≠ some "" := by
  cases o with
  | none => simp
  | some s => exact nonEmpty_ne s

/-- A variadic argument names the attribute that tells how many tensors it takes. -/
theorem ArgDef.NoEmptyText.exists_of_isVariadic {a : ArgDef} (h : a.NoEmptyText)
    (hvariadic : a.isVariadic = true) :
    ∃ attr ≠ "", a.numberAttr = some attr ∨ a.typeListAttr = some attr := by
  rw [isVariadic, Bool.or_eq_true, Option.isSome_iff_exists, Option.isSome_iff_exists] at hvariadic
  obtain ⟨attr, hattr⟩ | ⟨attr, hattr⟩ := hvariadic
  · refine ⟨attr, ?_, .inl hattr⟩
    rintro rfl
    exact h.numberAttr hattr
  · refine ⟨attr, ?_, .inr hattr⟩
    rintro rfl
    exact h.typeListAttr hattr

/-- Where no docstring is asked for, the registry gives a text or none, but no empty one. -/
theorem OpDef.NoEmptyText.docText_ne {op : OpDef} (h : op.NoEmptyText) {q : Request}
    (hdocs : q.docs.find? op.name = none) : q.docText op ≠ some "" := by
  obtain ⟨hsummary, hdescription, -, -⟩ := h
  rw [Request.docText, hdocs]
  cases hs : op.summary with
  | none => exact hdescription
  | some s =>
    cases hd : op.description with
    | none =>
      rw [hs] at hsummary
      exact hsummary
    | some d =>
      intro he
      have hlength := congrArg String.length (Option.some.inj he)
      simp at hlength

namespace TextFormat.Entry

theorem foldl_nonEmpty_ne (ss : List String) :
    ss.foldl (fun _ s => nonEmpty s) none ≠ some "" := by
  rcases List.eq_nil_or_concat ss with rfl | ⟨ss, s, rfl⟩
  · simp
  · rw [List.concat_eq_append, List.foldl_concat]
    exact nonEmpty_ne s

theorem noEmptyText_argDef {f : Field} {a : ArgDef} (h : argDef f = .ok a) : a.NoEmptyText := by
  obtain ⟨fs, -, hfold⟩ := bind_ok_iff.1 h
  obtain ⟨-, -, ⟨typeAttrs, -, htypeAttr⟩, ⟨numberAttrs, -, hnumberAttr⟩, typeListAttrs, -,
    htypeListAttr⟩ := foldlM_addToArg_eq_ok_iff.1 hfold
  refine ⟨?_, ?_, ?_⟩
  · rw [htypeAttr]
    exact foldl_nonEmpty_ne typeAttrs
  · rw [hnumberAttr]
    exact foldl_nonEmpty_ne numberAttrs
  · rw [htypeListAttr]
    exact foldl_nonEmpty_ne typeListAttrs

theorem noEmptyText_of_reads {name : String} {fs : List Field} {as : List ArgDef}
    (h : Reads argDef name fs as) : ∀ a ∈ as, a.NoEmptyText := by
  intro a ha
  obtain ⟨f, -, hf⟩ := exists_of_forall₂ h ha
  exact noEmptyText_argDef hf

theorem noEmptyText_opDef {f : Field} {op : OpDef} (h : opDef f = .ok op) :
    op.name ≠ "" ∧ op.NoEmptyText := by
  obtain ⟨fs, -, h⟩ := bind_ok_iff.1 h
  obtain ⟨op', hfold, h⟩ := bind_ok_iff.1 h
  obtain ⟨-, ⟨inputs, hinputs, hinput⟩, ⟨outputs, houtputs, houtput⟩, -,
    ⟨summaries, -, hsummary⟩, descriptions, -, hdescription⟩ := foldlM_addToOp_eq_ok_iff.1 hfold
  rw [List.nil_append] at hinput houtput
  have hop : op'.NoEmptyText := by
    refine ⟨?_, ?_, ?_, ?_⟩
    · rw [hsummary]
      exact foldl_nonEmpty_ne summaries
    · rw [hdescription]
      exact foldl_nonEmpty_ne descriptions
    · rw [hinput]
      exact noEmptyText_of_reads hinputs
    · rw [houtput]
      exact noEmptyText_of_reads houtputs
  split at h
  · cases h
  · rename_i hname
    cases h
    exact ⟨hname, hop⟩

end TextFormat.Entry

theorem TextFormat.noEmptyText_registry {text : String} {r : Registry}
    (h : registry text = .ok r) : ∀ op ∈ r, op.name ≠ "" ∧ op.NoEmptyText := by
  obtain ⟨fs, -, h⟩ := bind_ok_iff.1 h
  intro op hop
  obtain ⟨f, -, hf⟩ := exists_of_mem_mapM h hop
  exact Entry.noEmptyText_opDef hf

namespace Json

theorem noEmptyText_argDef {rec : ArgRecord} {a : ArgDef} (h : rec.argDef = .ok a) :
    a.NoEmptyText := by
  unfold ArgRecord.argDef at h
  dsimp only at h
  split at h
  all_goals
    obtain ⟨t, -, ha⟩ := bind_ok_iff.1 h
    cases ha
    exact ⟨bind_nonEmpty_ne _, bind_nonEmpty_ne _, bind_nonEmpty_ne _⟩

/-- What is read of an operation has its name, whatever that is. -/
theorem noEmptyText_opDef {rec : OpRecord} {op : OpDef} (h : rec.opDef = .ok op) :
    op.name = rec.name ∧ op.NoEmptyText := by
  obtain ⟨inputs, hinputs, h⟩ := bind_ok_iff.1 h
  obtain ⟨outputs, houtputs, h⟩ := bind_ok_iff.1 h
  obtain ⟨attrs, -, hop⟩ := bind_ok_iff.1 h
  cases hop
  refine ⟨rfl, bind_nonEmpty_ne _, bind_nonEmpty_ne _, ?_, ?_⟩
  · intro a ha
    obtain ⟨rec, -, hrec⟩ := exists_of_mem_mapM hinputs ha
    exact noEmptyText_argDef hrec
  · intro a ha
    obtain ⟨rec, -, hrec⟩ := exists_of_mem_mapM houtputs ha
    exact noEmptyText_argDef hrec

theorem noEmptyText_registry {text : String} {r : Registry} (h : registry text = .ok r) :
    (∀ op ∈ r, op.NoEmptyText) ∧
    ∃ recs, parse (opsRecord.read [] []) text = .ok recs ∧ r.map (·.name) = recs.map (·.name) := by
  obtain ⟨recs, hparse, hops⟩ := bind_ok_iff.1 h
  constructor
  · intro op hop
    obtain ⟨rec, -, hrec⟩ := exists_of_mem_mapM hops hop
    exact (noEmptyText_opDef hrec).2
  · cases hp : parse (opsRecord.read [] []) text with
    | error e =>
      rw [hp] at hparse
      cases hparse
    | ok recs' =>
      rw [hp] at hparse
      cases hparse
      refine ⟨recs, rfl, ?_⟩
      have hnames : List.Forall₂ (fun rec op => op.name = rec.name) recs r :=
        (mapM_ok_iff.1 hops).imp fun rec op hrec => (noEmptyText_opDef hrec).1
      clear hops h hp
      induction hnames with
      | nil => rfl
      | cons hname _ ih => rw [List.map_cons, List.map_cons, hname, ih]

end Json

/-- What is read of a registry in either format has no empty text. So a variadic argument names an
attribute, and an operation without a docstring of its own has none or one with text. An operation
in the text format has a name, one in JSON has the name that the document gives it. -/
theorem read_noEmptyText {format : RegistryFormat} {text : String} {r : Registry}
    (h : Registry.read format text = .ok r) :
    (∀ op ∈ r, op.NoEmptyText ∧
      (∀ a ∈ op.inputs ++ op.outputs, a.isVariadic = true →
        ∃ attr ≠ "", a.numberAttr = some attr ∨ a.typeListAttr = some attr) ∧
      (∀ q : Request, q.docs.find? op.name = none → q.docText op ≠ some "")) ∧
    (format = .text → ∀ op ∈ r, op.name ≠ "") ∧
    (format = .json → ∃ recs, Json.parse (Json.opsRecord.read [] []) text = .ok recs ∧
      r.map (·.name) = recs.map (·.name)) := by
  have hfollows {op : OpDef} (hop : op.NoEmptyText) :
      op.NoEmptyText ∧
      (∀ a ∈ op.inputs ++ op.outputs, a.isVariadic = true →
        ∃ attr ≠ "", a.numberAttr = some attr ∨ a.typeListAttr = some attr) ∧
      (∀ q : Request, q.docs.find? op.name = none → q.docText op ≠ some "") := by
    refine ⟨hop, fun a ha => ?_, fun q => hop.docText_ne⟩
    have hargs := List.mem_append.1 ha
    exact (hargs.elim (hop.inputs a) (hop.outputs a)).exists_of_isVariadic
  cases format with
  | text =>
    have hops := TextFormat.noEmptyText_registry (mapError_ok h)
    exact ⟨fun op hop => hfollows (hops op hop).2, fun _ op hop => (hops op hop).1, nofun⟩
  | json =>
    obtain ⟨hops, hnames⟩ := Json.noEmptyText_registry (mapError_ok h)
    exact ⟨fun op hop => hfollows (hops op hop), nofun, fun _ => hnames⟩

/-- An operation in the text format whose summary is taken back. -/
def emptiedText : String :=
  "op \x7b name: \"A\" summary: \"x\" summary: \"\" input_arg \x7b number_attr: \"N\" \x7d \x7d"

/-- An operation in JSON without a name, whose input has texts of all kinds. -/
def namelessText : String :=
  "\x7b\"op\":[\x7b\"name\":\"\",\"summary\":\"\",\"inputArg\":" ++
    "[\x7b\"name\":\"x\",\"typeAttr\":\"\",\"numberAttr\":\"N\"\x7d]\x7d]\x7d"

theorem read_noEmptyText_emptiedText :
    (∃ r, Registry.read .text emptiedText = .ok r ∧ r.map (·.name) = ["A"] ∧
      ∀ op ∈ r, op.name ≠ "" ∧ op.NoEmptyText) ∧
    (∃ r, Registry.read .json namelessText = .ok r ∧ r.map (·.name) = [""] ∧
      ∀ op ∈ r, op.NoEmptyText) := by
  have htext : Registry.read .text emptiedText =
      .ok [{ name := "A", inputs := [{ numberAttr := some "N" }] }] :=
    ok_of_toOption (by decide +kernel)
  have hjson : Registry.read .json namelessText =
      .ok [{ name := "", inputs := [{ name := "x", numberAttr := some "N" }] }] :=
    ok_of_toOption (by decide +kernel)
  obtain ⟨hops, hnames, -⟩ := read_noEmptyText htext
  obtain ⟨hnameless, -, -⟩ := read_noEmptyText hjson
  exact ⟨⟨_, htext, rfl, fun op hop => ⟨hnames rfl op hop, (hops op hop).1⟩⟩,
    ⟨_, hjson, rfl, fun op hop => (hnameless op hop).1⟩⟩

/-- JSON lets an operation without a name through. -/
theorem exists_nameless :
    ∃ r, Registry.read .json "\x7b\"op\":[\x7b\"name\":\"\"\x7d]\x7d" = .ok r ∧
      ∃ op ∈ r, op.name = "" :=
  ⟨[{ name := "" }], ok_of_toOption (by decide +kernel), { name := "" }, List.mem_singleton_self _,
    rfl⟩

end OpStubs
