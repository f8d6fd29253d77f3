import OpStubs.Proofs.Json.Float
import OpStubs.Proofs.Json.Writing
import OpStubs.Proofs.TextFormat.Printing
import OpStubs.Proofs.TextFormat.Writing

namespace OpStubs

namespace TextFormat

/-- The fields of an attribute with a number for its default. -/
def floatAttrText (attr kind : String) (number : List Char) : List Char :=
  scalarText "name" (quoted attr) (scalarText "type" (quoted kind)
    (messageText "default_value" (scalarText "f" number []) []))

/-- The text of a registry of such an attribute. -/
def floatText (op attr kind : String) (number : List Char) : List Char :=
  messageText "op" (scalarText "name" (quoted op)
    (messageText "attr" (floatAttrText attr kind number) [])) []

theorem default_number {n : Json.Numeral} {s : List Char} (h : n.SpelledBy s) (pos place : Pos) :
    Entry.default ⟨"default_value", .message [⟨"f", .number (String.ofList s), pos⟩], place⟩ =
      .ok (some (.float n.nearest)) := by
  have hvalue : Entry.attrValue ⟨"f", .number (String.ofList s), pos⟩ = .ok (.float n.nearest) := by
    have hscalar : Entry.scalar ⟨"f", .number (String.ofList s), pos⟩ = .ok (String.ofList s) := rfl
    simp only [Entry.attrValue, hscalar, bind, Except.bind, String.toList_ofList, float?_spelled h]
  change (Entry.attrValue _).bind _ = _
  rw [hvalue]
  rfl

theorem spells_floatAttrText {n : Json.Numeral} {s : List Char} (h : n.SpelledBy s)
    (attr kind : String) :
    SpellsFields (floatAttrText attr kind s) fun fs => ∀ pos,
      Entry.attrDef ⟨"attr", .message fs, pos⟩ =
        .ok { name := attr, kind, default := some (.float n.nearest) } := by
  have hnumber := (spellsScalar_number h).field "f" rfl spellsFields_nil
  have hdefault := hnumber.field "default_value" rfl spellsFields_nil
  have hspells := (spellsScalar_quoted attr).field "name" rfl
    ((spellsScalar_quoted kind).field "type" rfl hdefault)
  refine hspells.mono ?_
  rintro fs ⟨p₁, _, rfl, p₂, _, rfl, p₃, _, _, rfl, ⟨p₄, _, rfl, rfl⟩, rfl⟩ pos
  generalize hfs : ([_, _, _] : List Field) = fs
  have hname : Reads Entry.string "name" fs [attr] := hfs ▸ .cons rfl .nil
  have hkind : Reads Entry.string "type" fs [kind] := hfs ▸ .cons rfl .nil
  have hdefault : Reads Entry.default "default_value" fs [some (.float n.nearest)] :=
    hfs ▸ .cons (default_number h p₄ p₃) .nil
  exact foldlM_addToAttr_eq_ok_iff.2 ⟨⟨_, hname, rfl⟩, ⟨_, hkind, rfl⟩, _, hdefault, rfl⟩

/-- The default is the float nearest to the number. -/
theorem registry_floatText {n : Json.Numeral} {s : List Char} (h : n.SpelledBy s) {op : String}
    (hop : op ≠ "") (attr kind : String) :
    registry (String.ofList (floatText op attr kind s)) =
      .ok (Json.defaultRegistry op attr kind (.float n.nearest)) := by
  have hattr := (spells_floatAttrText h attr kind).field "attr" rfl spellsFields_nil
  have hspells := (spellsScalar_quoted op).field "name" rfl hattr
  obtain ⟨d, hd, hspelled⟩ := hspells.field "op" rfl spellsFields_nil .start [] [] (.nil .nil)
  obtain ⟨p₁, _, _, hd, ⟨p₂, _, rfl, p₃, attrFields, _, rfl, hattrDef, rfl⟩, rfl⟩ := hd
  rw [List.append_nil, List.append_nil] at hspelled
  have hfields : fields (floatText op attr kind s) = .ok d.fields := by
    rw [fields, tokens, floatText, scan_spelled hspelled]
    exact fieldsOfTokens_tokens _ d
  have hopDef : Entry.opDef ⟨"op", .message [⟨"name", .str op, p₂⟩,
      ⟨"attr", .message attrFields, p₃⟩], p₁⟩ = .ok { name := op, attrs := [{
        name := attr, kind, default := some (.float n.nearest) }] } := by
    simp [Entry.opDef, Entry.message, Entry.addToOp, Entry.string, hattrDef p₃, hop, bind,
      Except.bind, pure, Except.pure]
  rw [registry, String.toList_ofList, hfields, hd]
  change ([_].mapM Entry.opDef) = _
  rw [List.mapM_cons, hopDef]
  rfl

end TextFormat

namespace Json

section
variable (op attr kind : String) (n : Numeral) (room : Nat)

theorem read_floatValue :
    defaultRecord.read [] {} (room + 1) (Doc.object [("f", .number n)]).tree =
      n.value.map fun v => { f := some (.inl v) } := by
  have hread : Reader.optional Reader.numberOrString room (Doc.number n).tree =
      n.value.map fun v => some (.inl v) := by
    rw [optional_tree _ _ (by simp), Doc.tree, Reader.numberOrString]
    cases n.value <;> rfl
  rw [Record.read_tree, Record.readMembers_cons (f := { name := "f" }) (g := fun f => { f }) rfl
    (by simp) (fun _ => rfl) hread]
  cases n.value <;> rfl

theorem read_numberDefault :
    opsRecord.read [] [] (room + 6) (numberDefault op attr kind "f" n).tree =
      n.value.map fun v =>
        [{ name := op, attrs := [⟨attr, kind, some { f := some (.inl v) }⟩] }] := by
  rw [numberDefault, read_defaultDoc op attr kind (read_floatValue n room)]
  cases n.value <;> rfl

end

/-- The default is the float nearest to what the number is read as. Without a value of the number,
nothing is read. -/
theorem registry_numberDefault {n : Numeral} {s : List Char} (h : n.SpelledBy s)
    (op attr kind : String) :
    registry (String.ofList ((numberDefault op attr kind "f" n).print fun _ => s)) =
      (n.value.mapError .fault).map fun v =>
        defaultRegistry op attr kind (.float v.toBinary32) := by
  have hspelled : Spelled (numberDefault op attr kind "f" n).tokens
      ((numberDefault op attr kind "f" n).print fun _ => s) := by
    refine spelled_doc _ ?_
    intro m hm
    obtain rfl := List.mem_singleton.1 hm
    exact h
  have hread := read_numberDefault op attr kind n (depthLimit - 6)
  rw [registry, parse_spelled (by rwa [String.toList_ofList])]
  change ((opsRecord.read [] [] (depthLimit - 6 + 6) _).mapError _).bind _ = _
  rw [hread]
  cases n.value <;> rfl

end Json

/-- What the formats make of the same number. -/
theorem registries_of_number {n : Json.Numeral} {s : List Char} (h : n.SpelledBy s) {op : String}
    (hop : op ≠ "") (attr kind : String) :
    TextFormat.registry (String.ofList (TextFormat.floatText op attr kind s)) =
      .ok (Json.defaultRegistry op attr kind (.float n.nearest)) ∧
    Json.registry (String.ofList ((Json.numberDefault op attr kind "f" n).print fun _ => s)) =
      (n.value.mapError Json.ReadError.fault).map (fun v =>
        Json.defaultRegistry op attr kind (.float v.toBinary32)) ∧
    (n.IsShort →
      Json.registry (String.ofList ((Json.numberDefault op attr kind "f" n).print fun _ => s)) =
        .ok (Json.defaultRegistry op attr kind (.float n.nearest))) := by
  have hjson := Json.registry_numberDefault h op attr kind
  refine ⟨TextFormat.registry_floatText h hop attr kind, hjson, ?_⟩
  intro hshort
  obtain ⟨v, hv, hnarrow⟩ := hshort.value
  rw [hjson, hv, ← hnarrow]
  rfl

/-- A short number, with a sign and an exponent. -/
def shortNumber : Json.Numeral := ⟨true, "25".toList, some "0".toList, some (true, "1".toList)⟩

theorem registries_of_number_shortNumber :
    shortNumber.SpelledBy "-25.0E-1".toList ∧ "A" ≠ "" ∧ shortNumber.IsShort ∧
    TextFormat.registry (String.ofList (TextFormat.floatText "A" "x" "float" "-25.0E-1".toList)) =
      .ok (Json.defaultRegistry "A" "x" "float" (.float shortNumber.nearest)) ∧
    Json.registry (String.ofList
        ((Json.numberDefault "A" "x" "float" "f" shortNumber).print fun _ => "-25.0E-1".toList)) =
      .ok (Json.defaultRegistry "A" "x" "float" (.float shortNumber.nearest)) := by
  have hspelled : shortNumber.SpelledBy "-25.0E-1".toList :=
    .mk true (by decide) (.digits (by decide)) (.digits (.inr rfl) .minus (by decide))
  have hshort : shortNumber.IsShort := .inr ⟨by decide, by decide, by decide⟩
  have hname : "A" ≠ "" := by decide
  obtain ⟨htext, -, hjson⟩ := registries_of_number hspelled hname "x" "float"
  exact ⟨hspelled, hname, hshort, htext, hjson hshort⟩

/-- A number past the middle of two floats of 32 bits, by less than floats of 64 bits tell apart. -/
def pastMiddle : Json.Numeral := ⟨false, "16777217".toList, some "000000001".toList, none⟩

/-- A number past the greatest float of 64 bits. -/
def pastGreatest : Json.Numeral := ⟨false, "1".toList, none, some (false, "400".toList)⟩

/-- The formats make different floats of one number, and only the text format takes the other. -/
theorem registries_apart :
    TextFormat.registry ("op \x7b name: \"A\" attr \x7b name: \"x\" type: \"float\" " ++
        "default_value \x7b f: 16777217.000000001 \x7d \x7d \x7d ") =
      .ok (Json.defaultRegistry "A" "x" "float" (.float ⟨1266679809⟩)) ∧
    Json.registry ("\x7b\"op\":[\x7b\"name\":\"A\",\"attr\":[\x7b\"name\":\"x\"," ++
        "\"type\":\"float\",\"defaultValue\":\x7b\"f\":16777217.000000001\x7d\x7d]\x7d]\x7d") =
      .ok (Json.defaultRegistry "A" "x" "float" (.float ⟨1266679808⟩)) ∧
    TextFormat.registry ("op \x7b name: \"A\" attr \x7b name: \"x\" type: \"float\" " ++
        "default_value \x7b f: 1e400 \x7d \x7d \x7d ") =
      .ok (Json.defaultRegistry "A" "x" "float" (.float (.infinity false))) ∧
    Json.registry ("\x7b\"op\":[\x7b\"name\":\"A\",\"attr\":[\x7b\"name\":\"x\"," ++
        "\"type\":\"float\",\"defaultValue\":\x7b\"f\":1e400\x7d\x7d]\x7d]\x7d") =
      .error (.fault .malformed) := by
  have hmiddle : pastMiddle.SpelledBy pastMiddle.text :=
    Json.Numeral.IsWritten.spelledBy (by decide)
  have hgreatest : pastGreatest.SpelledBy pastGreatest.text :=
    Json.Numeral.IsWritten.spelledBy (by decide)
  have htext (n : Json.Numeral) (x : Number.Binary32) (h : n.SpelledBy n.text)
      (hx : n.nearest = x) :
      TextFormat.registry (String.ofList (TextFormat.floatText "A" "x" "float" n.text)) =
        .ok (Json.defaultRegistry "A" "x" "float" (.float x)) :=
    hx ▸ TextFormat.registry_floatText h (by decide) "x" "float"
  have hjson (n : Json.Numeral) (e : Except Json.Fault Number.Binary32) (h : n.SpelledBy n.text)
      (he : n.value.map Json.Num.toBinary32 = e) : Json.registry (String.ofList
          ((Json.numberDefault "A" "x" "float" "f" n).print fun _ => n.text)) =
        (e.mapError Json.ReadError.fault).map fun x =>
          Json.defaultRegistry "A" "x" "float" (.float x) := by
    rw [Json.registry_numberDefault h, ← he]
    cases n.value <;> rfl
  exact ⟨htext pastMiddle _ hmiddle (by decide +kernel),
    hjson pastMiddle (.ok ⟨1266679808⟩) hmiddle (by decide +kernel),
    htext pastGreatest _ hgreatest (by decide +kernel),
    hjson pastGreatest (.error .malformed) hgreatest (by decide +kernel)⟩

end OpStubs
