import OpStubs.Proofs.TextFormat.Derivation
import OpStubs.Proofs.TextFormat.Float

namespace OpStubs.TextFormat

def quoted (s : String) : List Char := '"' :: (s.toList.flatMap (escapeChar '"') ++ ['"'])

/-- The text of a scalar field, in front of further fields. -/
def scalarText (name : String) (value more : List Char) : List Char :=
  name.toList ++ ':' :: ' ' :: (value ++ ' ' :: more)

def messageText (name : String) (body more : List Char) : List Char :=
  name.toList ++ ' ' :: '\x7b' :: ' ' :: (body ++ '\x7d' :: ' ' :: more)

/-- Whether a text in front of a blank spells a scalar. -/
def SpellsScalar (s : List Char) (v : Value) : Prop :=
  ∀ (pos : Pos) (ts : List Placed) (rest : List Char), Spelled (pos.afterText s) ts (' ' :: rest) →
    ∃ d : ScalarTree, d.value = v ∧ Spelled pos (d.tokens ++ ts) (s ++ ' ' :: rest)

/-- Whether a text spells fields of some kind, whatever is spelled behind it. -/
def SpellsFields (s : List Char) (way : List Field → Prop) : Prop :=
  ∀ (pos : Pos) (ts : List Placed) (rest : List Char), Spelled (pos.afterText s) ts rest →
    ∃ d : FieldsTree, way d.fields ∧ Spelled pos (d.tokens ++ ts) (s ++ rest)

section
variable {pos : Pos} {ts : List Placed} {rest : List Char}

theorem Spelled.blank (h : Spelled (pos.after ' ') ts rest) : Spelled pos ts (' ' :: rest) := by
  cases h with
  | nil hg => exact .nil (.blank rfl hg)
  | comment hg hl => exact .comment (.blank rfl hg) hl
  | cons hg hs hr h => exact .cons (.blank rfl hg) hs hr h

theorem Spelled.mark {c : Char} (hc : isPunct c = true) (h : Spelled (pos.after c) ts rest) :
    Spelled pos (mark c pos :: ts) (c :: rest) :=
  .cons .nil (.punct hc) (fun _ _ => rfl) h

theorem Spelled.name {name : String} (hname : isIdent name.toList = true)
    (hr : Stops continuesIdent rest) (h : Spelled (pos.afterText name.toList) ts rest) :
    Spelled pos (⟨.ident name, pos⟩ :: ts) (name.toList ++ rest) := by
  have hcons := Spelled.cons .nil (.ident name.toList hname) hr h
  rwa [String.ofList_toList] at hcons

end

theorem spellsScalar_quoted (s : String) : SpellsScalar (quoted s) (.str s) := by
  intro pos ts rest h
  exact ⟨.str s pos [], rfl, .cons .nil (.str (.inl rfl) s) (fun _ _ => rfl) h⟩

/-- A number is one token, or two with its sign. -/
theorem spellsScalar_number {n : Json.Numeral} {s : List Char} (h : n.SpelledBy s) :
    SpellsScalar s (.number (String.ofList s)) := by
  intro pos ts rest hrest
  cases h with
  | @mk negative whole partText powerText part power hwhole hpart hpower =>
    have hnumber := isNumber_unsigned hwhole.1 hpart hpower
    generalize whole ++ (partText ++ powerText) = unsigned at hnumber hrest ⊢
    have hstops : Stops (continuesNumber (unsigned.getLastD '0')) (' ' :: rest) := stops_cons.2 rfl
    cases negative with
    | false => exact ⟨.number none _ pos, rfl, .cons .nil (.number _ hnumber) hstops hrest⟩
    | true =>
      have hsigned : String.ofList ['-'] ++ String.ofList unsigned =
          String.ofList (['-'] ++ unsigned) := String.ofList_append.symm
      exact ⟨.number (some pos) _ (pos.after '-'), congrArg Value.number hsigned,
        .mark rfl (.cons .nil (.number _ hnumber) hstops hrest)⟩

theorem spellsFields_nil : SpellsFields [] (· = []) := fun _ _ _ h => ⟨.nil, rfl, h⟩

section
variable {body more : List Char} {way bodyWay : List Field → Prop}

theorem SpellsFields.mono {way' : List Field → Prop} (h : SpellsFields body way)
    (hway : ∀ fs, way fs → way' fs) : SpellsFields body way' := by
  intro pos ts rest hrest
  obtain ⟨d, hd, hspelled⟩ := h pos ts rest hrest
  exact ⟨d, hway _ hd, hspelled⟩

theorem SpellsScalar.field {s : List Char} {v : Value} (hv : SpellsScalar s v) (name : String)
    (hname : isIdent name.toList = true) (hmore : SpellsFields more way) :
    SpellsFields (scalarText name s more) fun fs =>
      ∃ pos fs', fs = ⟨name, v, pos⟩ :: fs' ∧ way fs' := by
  intro pos ts rest h
  simp only [scalarText, Pos.afterText_append, Pos.afterText_cons] at h
  obtain ⟨d, hd, hspelled⟩ := hmore _ _ _ h
  obtain ⟨value, rfl, hvalue⟩ := hv _ _ _ (.blank hspelled)
  let colon := pos.afterText name.toList
  refine ⟨.cons (.scalar name pos colon value) none d, ⟨pos, d.fields, rfl, hd⟩, ?_⟩
  have hfield := Spelled.name hname (stops_cons.2 rfl) (.mark rfl (.blank hvalue))
  simpa [scalarText, FieldsTree.tokens, FieldTree.tokens, separatorTokens] using hfield

theorem SpellsFields.field (hbody : SpellsFields body bodyWay) (name : String)
    (hname : isIdent name.toList = true) (hmore : SpellsFields more way) :
    SpellsFields (messageText name body more) fun fs =>
      ∃ pos fields fs', fs = ⟨name, .message fields, pos⟩ :: fs' ∧ bodyWay fields ∧ way fs' := by
  intro pos ts rest h
  simp only [messageText, Pos.afterText_append, Pos.afterText_cons] at h
  obtain ⟨d, hd, hspelled⟩ := hmore _ _ _ h
  obtain ⟨fields, hfields, hmessage⟩ := hbody _ _ _ (.mark rfl (.blank hspelled))
  let opening := (pos.afterText name.toList).after ' '
  let closing := ((opening.after '\x7b').after ' ').afterText body
  refine ⟨.cons (.message name pos none (.mk .curly opening fields closing)) none d,
    ⟨pos, fields.fields, d.fields, rfl, hfields, hd⟩, ?_⟩
  have hfield := Spelled.name hname (stops_cons.2 rfl) (.blank (.mark rfl (.blank hmessage)))
  simpa [messageText, FieldsTree.tokens, FieldTree.tokens, MessageTree.tokens, separatorTokens,
    colonTokens, Bracket.opening, Bracket.closing] using hfield

end

end OpStubs.TextFormat
