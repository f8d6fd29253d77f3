import OpStubs.Proofs.Json.Printing
import OpStubs.Proofs.Json.Range
import OpStubs.Proofs.Json.Record
import OpStubs.Proofs.Number.Integer
import OpStubs.Registry.Json

namespace OpStubs.Json

/-- What a document may have in it: which numbers stand for an integer, which numbers and strings
stand in a shape, a tensor, a function or a list, and which keys the objects of a registry have. -/
structure Rules where
  integer : Numeral → Prop
  number : Numeral → Prop
  string : Option String → Prop

/-- Numbers of any form and size, and any strings. -/
def anything : Rules := ⟨fun _ => True, fun _ => True, fun _ => True⟩

/-- Integers without point and exponent, but for a zero with a minus sign, other numbers up to the
greatest one, and strings in which no half of a character stands alone. -/
def readable : Rules := ⟨Numeral.IsPlain, Numeral.IsBounded, (· ≠ none)⟩

instance (s : Option String) : Decidable (readable.string s) :=
  inferInstanceAs (Decidable (s ≠ none))

/-- Whether the numbers and strings of a value may stand in a shape, a tensor, a function or a
list. -/
def Rules.Allows (rules : Rules) (d : Doc) : Prop :=
  (∀ n ∈ d.numerals, rules.number n) ∧ ∀ s ∈ d.strings, rules.string s

def IsObject {α : Type} (rules : Rules) (way : Members → α → Prop) (d : Doc) (x : α) : Prop :=
  ∃ ms, d = .object ms ∧ (∀ m ∈ ms, rules.string m.1) ∧ way ms x

def IsString (d : Doc) (s : String) : Prop := d = .string s

def IsBool (d : Doc) (b : Bool) : Prop := d = .bool b

/-- Whether a value is an optional text. An empty one counts as absent. -/
inductive IsText : Doc → Option String → Prop
  | null : IsText .null none
  | empty : IsText (.string "") none
  | given {s : String} (h : s ≠ "") : IsText (.string s) (some s)

def IsType (d : Doc) (t : ElementType) : Prop :=
  d = .string ("DT_" ++ t.name) ∨ d = .string ("DT_" ++ t.name ++ "_REF")

inductive IsOptionalType : Doc → Option ElementType → Prop
  | null : IsOptionalType .null none
  | empty : IsOptionalType (.string "") none
  | given {d : Doc} {t : ElementType} (h : IsType d t) : IsOptionalType d (some t)

inductive IsInt (rules : Rules) : Doc → Int → Prop
  | number {n : Numeral} {i : Int} (hn : rules.integer n) (h : n.Denotes i) :
    IsInt rules (.number n) i
  | text {negative : Bool} {sign digits : List Char} (hs : SignSpelledBy negative sign)
    (h : IsDigits digits) :
    IsInt rules (.string (String.ofList (sign ++ digits)))
      (signed negative (Number.digitsValue digits))

def compositeNames : List String := ["shape", "tensor", "func", "list"]

def defaultNames : List String := "i" :: "f" :: "b" :: "s" :: "type" :: compositeNames

/-- Whether a default has no field twice, and its fields are `null` but for those of some names. -/
def GivesOnly (given : List String) (ms : Members) : Prop :=
  ∀ name ∈ defaultNames,
    (values [name] ms).length ≤ 1 ∧ (name ∉ given → ∀ d ∈ values [name] ms, d = .null)

inductive WritesDefault (rules : Rules) (ms : Members) :
    Option AttrValue → Prop
  | absent (h : GivesOnly [] ms) : WritesDefault rules ms none
  | int {i : Int} (h : GivesOnly ["i"] ms) (hi : Writes (IsInt rules) ["i"] ms i)
    (hfits : Number.fits64 i = true) : WritesDefault rules ms (some (.int i))
  | bool {b : Bool} (h : GivesOnly ["b"] ms) (hb : Writes IsBool ["b"] ms b) :
    WritesDefault rules ms (some (.bool b))
  | string {s : String} (h : GivesOnly ["s"] ms) (hs : Writes IsString ["s"] ms s) :
    WritesDefault rules ms (some (.string s))
  | type {t : ElementType} (h : GivesOnly ["type"] ms) (ht : Writes IsType ["type"] ms t) :
    WritesDefault rules ms (some (.type t))
  | composite (h : GivesOnly compositeNames ms) {d : Doc} (hd : d ∈ values compositeNames ms)
    (hgiven : d ≠ .null)
    (hallowed : ∀ d ∈ values compositeNames ms, rules.Allows d) :
    WritesDefault rules ms (some .composite)

inductive IsDefault (rules : Rules) : Doc → Option AttrValue → Prop
  | null : IsDefault rules .null none
  | object {ms : Members} {x : Option AttrValue} (hkeys : ∀ m ∈ ms, rules.string m.1)
    (h : WritesDefault rules ms x) : IsDefault rules (.object ms) x

structure WritesArg (ms : Members) (a : ArgDef) : Prop where
  name : Writes IsString ["name"] ms a.name
  elementType : WritesOr none IsOptionalType ["type"] ms a.elementType
  typeAttr : WritesOr none IsText ["typeAttr", "type_attr"] ms a.typeAttr
  numberAttr : WritesOr none IsText ["numberAttr", "number_attr"] ms a.numberAttr
  typeListAttr : WritesOr none IsText ["typeListAttr", "type_list_attr"] ms a.typeListAttr

/-- What the members of an attribute write, its default being written in some way. -/
structure WritesAttr (isDefault : Doc → Option AttrValue → Prop) (ms : Members) (a : AttrDef) :
    Prop where
  name : Writes IsString ["name"] ms a.name
  kind : Writes IsString ["type"] ms a.kind
  default : WritesOr none isDefault ["defaultValue", "default_value"] ms a.default

structure WritesOp (rules : Rules) (isDefault : Doc → Option AttrValue → Prop) (ms : Members)
    (op : OpDef) : Prop where
  name : Writes IsString ["name"] ms op.name
  inputs : WritesOr [] (IsArray (IsObject rules WritesArg)) ["inputArg", "input_arg"] ms op.inputs
  outputs :
    WritesOr [] (IsArray (IsObject rules WritesArg)) ["outputArg", "output_arg"] ms op.outputs
  attrs : WritesOr [] (IsArray (IsObject rules (WritesAttr isDefault))) ["attr"] ms op.attrs
  summary : WritesOr none IsText ["summary"] ms op.summary
  description : WritesOr none IsText ["description"] ms op.description

/-- Whether a document writes a registry whose defaults are written in some way. -/
def IsRegistryBy (rules : Rules) (isDefault : Doc → Option AttrValue → Prop) :
    Doc → Registry → Prop :=
  IsObject rules (WritesOr [] (IsArray (IsObject rules (WritesOp rules isDefault))) ["op"])

/-- Whether a document writes a registry. -/
def IsRegistry (rules : Rules) : Doc → Registry → Prop := IsRegistryBy rules (IsDefault rules)

section
variable {room : Nat} {d : Doc} {ms : Members}

theorem read_string {s : String} (h : IsString d s) :
    ∃ y, Reader.string room d.tree = .ok y ∧ y = s := by
  rw [h]
  exact ⟨s, string_tree room s, rfl⟩

theorem read_optionalString (s : String) :
    Reader.optional Reader.string room (Doc.string s).tree = .ok (some s) := by
  rw [optional_tree _ _ (by simp), string_tree]
  rfl

/-- A text as it stands in a record means the text that an empty one is dropped from. -/
theorem read_text {x : Option String} (h : IsText d x) :
    ∃ y, Reader.optional Reader.string room d.tree = .ok y ∧ y.bind nonEmpty = x := by
  cases h with
  | null => exact ⟨none, optional_null _ _, rfl⟩
  | empty => exact ⟨some "", read_optionalString "", rfl⟩
  | @given s h => exact ⟨some s, read_optionalString s, if_neg h⟩

/-- Whether the name of an element type in a record means a type. -/
def MeansType (y : Option String) (x : Option ElementType) : Prop :=
  (y.bind nonEmpty = none ∧ x = none) ∨
    ∃ name t, y.bind nonEmpty = some name ∧ elementType name = .ok t ∧ x = some t

/-- Whether a text in a record names a type. -/
def NamesType (y : Option String) (t : ElementType) : Prop :=
  ∃ name, y = some name ∧ name ≠ "" ∧ elementType name = .ok t

theorem read_type {t : ElementType} (h : IsType d t) :
    ∃ y, Reader.optional Reader.string room d.tree = .ok y ∧ NamesType y t := by
  obtain ⟨hplain, href⟩ := ElementType.ofIdentifier?_name t
  rcases h with rfl | rfl
  · exact ⟨_, read_optionalString _, _, rfl, by simp, by rw [elementType, hplain]⟩
  · exact ⟨_, read_optionalString _, _, rfl, by simp, by rw [elementType, href]⟩

theorem read_optionalType {x : Option ElementType} (h : IsOptionalType d x) :
    ∃ y, Reader.optional Reader.string room d.tree = .ok y ∧ MeansType y x := by
  cases h with
  | null => exact ⟨none, optional_null _ _, .inl ⟨rfl, rfl⟩⟩
  | empty => exact ⟨some "", read_optionalString "", .inl ⟨rfl, rfl⟩⟩
  | @given _ t h =>
    obtain ⟨_, hread, name, rfl, hne, htype⟩ := read_type h
    exact ⟨some name, hread, .inr ⟨name, t, if_neg hne, htype, rfl⟩⟩

/-- Whether a number or a string in a record means an integer. -/
def MeansInt (y : Option (Num ⊕ String)) (i : Int) : Prop :=
  ∃ v, y = some v ∧ ∀ attr, intValue attr v = .ok (.int i)

theorem read_int {i : Int} (h : IsInt readable d i) (hfits : Number.fits64 i = true) :
    ∃ y, Reader.optional integer room d.tree = .ok y ∧ MeansInt y i := by
  cases h with
  | @number n _ hn h =>
    have hvalue := Numeral.value_of_isPlain hn h hfits
    refine ⟨some (.inl (.int i)), ?_, _, rfl, fun _ => rfl⟩
    rw [optional_tree _ _ (by simp), Doc.tree, integer, Reader.numberOrString, hvalue]
    simp only [Except.map, bind, Except.bind, hfits, if_true]
    rfl
  | @text negative sign digits hs hdigits =>
    have hparse := (Number.parseInt64?_append hs hdigits).trans (if_pos hfits)
    refine ⟨some (.inr (String.ofList (sign ++ digits))), ?_, _, rfl, ?_⟩
    · rw [optional_tree _ _ (by simp), Doc.tree, integer, Reader.numberOrString]
      simp only [Except.map, bind, Except.bind, Doc.content, String.ofList_toList]
      rfl
    · intro attr
      rw [intValue, String.toList_ofList, hparse]

def IsSome {α : Type} (y : Option α) (x : α) : Prop := y = some x

theorem read_bool {b : Bool} (h : IsBool d b) :
    ∃ y, Reader.optional Reader.bool room d.tree = .ok y ∧ IsSome y b := by
  rw [h]
  exact ⟨some b, by rw [optional_tree _ _ (by simp), Doc.tree, Reader.bool]; rfl, rfl⟩

theorem read_someString {s : String} (h : IsString d s) :
    ∃ y, Reader.optional Reader.string room d.tree = .ok y ∧ IsSome y s := by
  rw [h]
  exact ⟨some s, read_optionalString s, rfl⟩

end

section
variable {given : List String} {name : String} {ms : Members} {room : Nat}

/-- What a default does not give is read as nothing. -/
theorem GivesOnly.reads_none {β : Type} (h : GivesOnly given ms) (hname : name ∈ defaultNames)
    (hnot : name ∉ given) (r : Reader β) :
    FieldReads (Reader.optional r) room [name] ms none none := by
  obtain ⟨honce, hnull⟩ := h name hname
  refine ⟨honce, fun _ => rfl, ?_⟩
  intro d hd
  rw [hnull hnot d hd]
  exact optional_null r room

/-- A default gives only some fields if none stands twice in it and each other member is `null`. -/
theorem givesOnly_of_members (hone : ∀ name ∈ defaultNames, (values [name] ms).length ≤ 1)
    (hnull : ∀ m ∈ ms, m.2 = .null ∨ ∃ name ∈ given, m.1 = some name) : GivesOnly given ms := by
  refine fun name hname => ⟨hone name hname, fun hnot d hd => ?_⟩
  obtain ⟨key, hkey, hmem⟩ := mem_values.1 hd
  obtain rfl := List.mem_singleton.1 hkey
  rcases hnull _ hmem with hd | ⟨other, hother, heq⟩
  · exact hd
  · exact absurd (Option.some.inj heq ▸ hother) hnot

theorem givesOnly_one {key : String} (h : key ∈ given) (d : Doc) :
    GivesOnly given [(key, d)] := by
  refine givesOnly_of_members (fun name _ => ?_) fun m hm => .inr ⟨key, h, ?_⟩
  · rw [values, List.length_map]
    exact List.length_filter_le _ _
  · rw [List.mem_singleton.1 hm]

/-- Whether something else than `null` stands under a name. -/
def isGiven (ms : Members) (name : String) : Bool :=
  (values [name] ms).any fun d => match d with
    | .null => false
    | _ => true

theorem isGiven_iff : isGiven ms name = true ↔ ∃ d ∈ values [name] ms, d ≠ .null := by
  rw [isGiven, List.any_eq_true]
  constructor
  · rintro ⟨d, hd, hgiven⟩
    refine ⟨d, hd, ?_⟩
    rintro rfl
    cases hgiven
  · rintro ⟨d, hd, hgiven⟩
    refine ⟨d, hd, ?_⟩
    cases d with
    | null => exact absurd rfl hgiven
    | _ => rfl

/-- A shape, a tensor, a function or a list is read whatever it has of what may stand there. -/
theorem GivesOnly.reads_composite (h : GivesOnly given ms) (hname : name ∈ compositeNames)
    (hroom : (Doc.object ms).depth ≤ room)
    (hallowed : ∀ d ∈ values [name] ms, readable.Allows d) :
    FieldReads (Reader.optional Reader.any) (room - 1) [name] ms none
      (if isGiven ms name then some () else none) := by
  obtain ⟨honce, _⟩ := h name (by simp [defaultNames, hname])
  refine ⟨honce, ?_, ?_⟩
  · intro hnil
    rw [isGiven, hnil]
    rfl
  · intro d hd
    by_cases hnull : d = .null
    · have hgiven : isGiven ms name = false := by
        rw [← Bool.not_eq_true, isGiven_iff]
        rintro ⟨e, he, hne⟩
        obtain ⟨c, hc⟩ := List.length_eq_one_iff.1
          (Nat.le_antisymm honce (List.length_pos_of_mem hd))
        rw [hc, List.mem_singleton] at hd he
        exact hne (by rw [he, ← hd, hnull])
      rw [hnull, hgiven]
      exact optional_null _ _
    · have hgiven : isGiven ms name = true := isGiven_iff.2 ⟨d, hd, hnull⟩
      obtain ⟨hnumbers, hstrings⟩ := hallowed d hd
      have hread := readAny_tree d (depth_le_of_mem_values hroom hd)
        (fun n hn => (hnumbers n hn).exists_value) hstrings
      rw [optional_tree _ _ hnull, Reader.any, hread, hgiven]
      rfl

/-- A default of which the fields of some names were read. -/
def DefaultRecord.upTo (raw : DefaultRecord) (ms : Members) (seen : List String) :
    DefaultRecord where
  i := if "i" ∈ seen then raw.i else none
  f := if "f" ∈ seen then raw.f else none
  b := if "b" ∈ seen then raw.b else none
  s := if "s" ∈ seen then raw.s else none
  type := if "type" ∈ seen then raw.type else none
  composite := compositeNames.any fun name => seen.contains name && isGiven ms name

/-- With one more name seen, its value counts as well. -/
theorem any_given_cons (hname : name ∈ compositeNames) (seen : List String) :
    (compositeNames.any fun other => (name :: seen).contains other && isGiven ms other) =
      ((compositeNames.any fun other => seen.contains other && isGiven ms other) ||
        isGiven ms name) := by
  rw [Bool.eq_iff_iff, Bool.or_eq_true, List.any_eq_true, List.any_eq_true]
  simp only [Bool.and_eq_true, List.contains_iff_mem, List.mem_cons]
  constructor
  · rintro ⟨other, hother, rfl | hseen, hgiven⟩
    · exact .inr hgiven
    · exact .inl ⟨other, hother, hseen, hgiven⟩
  · rintro (⟨other, hother, hseen, hgiven⟩ | hgiven)
    · exact ⟨other, hother, .inr hseen, hgiven⟩
    · exact ⟨name, hname, .inl rfl, hgiven⟩

/-- A default is read as what its fields give. -/
theorem read_default {raw : DefaultRecord} (hkeys : ∀ m ∈ ms, m.1 ≠ none)
    (hroom : (Doc.object ms).depth ≤ room)
    (hi : FieldReads (Reader.optional integer) (room - 1) ["i"] ms none raw.i)
    (hf : FieldReads (Reader.optional Reader.numberOrString) (room - 1) ["f"] ms none raw.f)
    (hb : FieldReads (Reader.optional Reader.bool) (room - 1) ["b"] ms none raw.b)
    (hs : FieldReads (Reader.optional Reader.string) (room - 1) ["s"] ms none raw.s)
    (ht : FieldReads (Reader.optional Reader.string) (room - 1) ["type"] ms none raw.type)
    (hc : ∀ name ∈ compositeNames, FieldReads (Reader.optional Reader.any) (room - 1) [name] ms none
      (if isGiven ms name then some () else none))
    (hcomposite : raw.composite = compositeNames.any (isGiven ms)) :
    defaultRecord.read [] {} room (Doc.object ms).tree = .ok raw := by
  have hsome (b : Bool) : (if b = true then some () else none).isSome = b := by cases b <;> rfl
  have htakes : defaultRecord.Takes (room - 1) ms (raw.upTo ms) := by
    intro f hfield
    simp only [defaultRecord, List.map, List.mem_cons, List.not_mem_nil, or_false] at hfield
    rcases hfield with rfl | rfl | rfl | rfl | rfl | rfl | rfl | rfl | rfl
    · exact hi.taken (fun d i => { d with i }) (fun _ _ => rfl) fun _ => by
        simp [DefaultRecord.upTo, compositeNames]
    · exact hf.taken (fun d f => { d with f }) (fun _ _ => rfl) fun _ => by
        simp [DefaultRecord.upTo, compositeNames]
    · exact hb.taken (fun d b => { d with b }) (fun _ _ => rfl) fun _ => by
        simp [DefaultRecord.upTo, compositeNames]
    · exact hs.taken (fun d s => { d with s }) (fun _ _ => rfl) fun _ => by
        simp [DefaultRecord.upTo, compositeNames]
    · exact ht.taken (fun d type => { d with type }) (fun _ _ => rfl) fun _ => by
        simp [DefaultRecord.upTo, compositeNames]
    all_goals
      refine (hc _ (by decide)).taken
        (fun d given => { d with composite := d.composite || given.isSome }) (fun _ _ => rfl) ?_
      intro seen
      rw [DefaultRecord.upTo, DefaultRecord.upTo, any_given_cons (by decide), hsome]
      simp
  obtain ⟨seen, hread, hseen⟩ := Record.read_object (by decide) hkeys [] hroom htakes (by simp)
  have hall : raw.upTo ms seen = raw := by
    have hunseen : ∀ name ∈ defaultNames, name ∉ seen → values [name] ms = [] := by
      intro name hname hnot
      exact hseen { name } (List.mem_map.2 ⟨name, hname, rfl⟩) hnot
    have hcomposites : (compositeNames.any fun name => seen.contains name && isGiven ms name) =
        compositeNames.any (isGiven ms) := by
      rw [Bool.eq_iff_iff, List.any_eq_true, List.any_eq_true]
      constructor
      · rintro ⟨name, hname, hgiven⟩
        exact ⟨name, hname, (Bool.and_eq_true_iff.1 hgiven).2⟩
      · rintro ⟨name, hname, hgiven⟩
        refine ⟨name, hname, ?_⟩
        by_contra hnot
        obtain ⟨d, hd, _⟩ := isGiven_iff.1 hgiven
        rw [hunseen name (by simp [defaultNames, hname]) (by simpa [hgiven] using hnot)] at hd
        cases hd
    rw [DefaultRecord.upTo, hcomposites, ← hcomposite, hi.seen (hunseen "i" (by decide)),
      hf.seen (hunseen "f" (by decide)), hb.seen (hunseen "b" (by decide)),
      hs.seen (hunseen "s" (by decide)), ht.seen (hunseen "type" (by decide))]
  rw [hall] at hread
  exact hread

/-- Whether a default as it stands in a record means what it declares. -/
def MeansDefault (y : Option DefaultRecord) (x : Option AttrValue) : Prop :=
  (y = none ∧ x = none) ∨ ∃ raw, y = some raw ∧ ∀ attr, raw.value attr = .ok x

theorem GivesOnly.allows (h : GivesOnly given ms) (hnot : ∀ name ∈ compositeNames, name ∉ given) :
    ∀ name ∈ compositeNames, ∀ d ∈ values [name] ms, readable.Allows d := by
  intro name hname d hd
  rw [(h name (by simp [defaultNames, hname])).2 (hnot name hname) d hd]
  constructor
  · simp [Doc.numerals]
  · simp [Doc.strings]

/-- The fields that give a default are read as a record that means it. -/
theorem read_writesDefault {x : Option AttrValue} (h : WritesDefault readable ms x)
    (hkeys : ∀ m ∈ ms, m.1 ≠ none) (hroom : (Doc.object ms).depth ≤ room) :
    ∃ raw, defaultRecord.read [] {} room (Doc.object ms).tree = .ok raw ∧
      ∀ attr, raw.value attr = .ok x := by
  cases h with
  | absent h =>
    have hnone : compositeNames.any (isGiven ms) = false := by
      rw [List.any_eq_false]
      intro name hname hgiven
      obtain ⟨d, hd, hne⟩ := isGiven_iff.1 hgiven
      exact hne ((h name (by simp [defaultNames, hname])).2 (by simp) d hd)
    have hcomposite (name : String) (hname : name ∈ compositeNames) :=
      h.reads_composite hname hroom (h.allows (by simp) name hname)
    refine ⟨{}, ?_, fun attr => rfl⟩
    exact read_default hkeys hroom (h.reads_none (by decide) (by decide) _)
      (h.reads_none (by decide) (by decide) _) (h.reads_none (by decide) (by decide) _)
      (h.reads_none (by decide) (by decide) _) (h.reads_none (by decide) (by decide) _)
      hcomposite hnone.symm
  | @int i h hi hfits =>
    have hcomposite (name : String) (hname : name ∈ compositeNames) :=
      h.reads_composite hname hroom (h.allows (by decide) name hname)
    obtain ⟨y, hy, v, rfl, hv⟩ := hi.reads hroom (fun _ _ h => read_int h hfits) none
    refine ⟨{ i := some v, composite := compositeNames.any (isGiven ms) }, ?_, ?_⟩
    · exact read_default hkeys hroom hy
        (h.reads_none (by decide) (by decide) _) (h.reads_none (by decide) (by decide) _)
        (h.reads_none (by decide) (by decide) _) (h.reads_none (by decide) (by decide) _)
        hcomposite rfl
    · intro attr
      change some <$> intValue attr v = _
      rw [hv]
      rfl
  | @bool b h hb =>
    have hcomposite (name : String) (hname : name ∈ compositeNames) :=
      h.reads_composite hname hroom (h.allows (by decide) name hname)
    obtain ⟨y, hy, rfl⟩ := hb.reads hroom (fun _ _ h => read_bool h) none
    refine ⟨{ b := some b, composite := compositeNames.any (isGiven ms) }, ?_, fun attr => rfl⟩
    exact read_default hkeys hroom (h.reads_none (by decide) (by decide) _)
      (h.reads_none (by decide) (by decide) _) hy
      (h.reads_none (by decide) (by decide) _) (h.reads_none (by decide) (by decide) _)
      hcomposite rfl
  | @string s h hs =>
    have hcomposite (name : String) (hname : name ∈ compositeNames) :=
      h.reads_composite hname hroom (h.allows (by decide) name hname)
    obtain ⟨y, hy, rfl⟩ := hs.reads hroom (fun _ _ h => read_someString h) none
    refine ⟨{ s := some s, composite := compositeNames.any (isGiven ms) }, ?_, fun attr => rfl⟩
    exact read_default hkeys hroom (h.reads_none (by decide) (by decide) _)
      (h.reads_none (by decide) (by decide) _) (h.reads_none (by decide) (by decide) _) hy
      (h.reads_none (by decide) (by decide) _) hcomposite rfl
  | @type t h ht =>
    have hcomposite (name : String) (hname : name ∈ compositeNames) :=
      h.reads_composite hname hroom (h.allows (by decide) name hname)
    obtain ⟨y, hy, name, rfl, _, hname⟩ := ht.reads hroom (fun _ _ h => read_type h) none
    refine ⟨{ type := some name, composite := compositeNames.any (isGiven ms) }, ?_, ?_⟩
    · exact read_default hkeys hroom (h.reads_none (by decide) (by decide) _)
        (h.reads_none (by decide) (by decide) _) (h.reads_none (by decide) (by decide) _)
        (h.reads_none (by decide) (by decide) _) hy hcomposite rfl
    · intro attr
      change (fun t => some (AttrValue.type t)) <$> elementType name = _
      rw [hname]
      rfl
  | @composite h d hd hgiven hallowed =>
    have hany : compositeNames.any (isGiven ms) = true := by
      obtain ⟨name, hname, hmem⟩ := mem_values.1 hd
      rw [List.any_eq_true]
      exact ⟨name, hname, isGiven_iff.2 ⟨d, mem_values.2 ⟨name, by simp, hmem⟩, hgiven⟩⟩
    have hcomposite (name : String) (hname : name ∈ compositeNames) :=
      h.reads_composite hname hroom (by
        intro d hd
        obtain ⟨key, hkey, hmem⟩ := mem_values.1 hd
        obtain rfl := List.mem_singleton.1 hkey
        exact hallowed d (mem_values.2 ⟨key, hname, hmem⟩))
    refine ⟨{ composite := true }, ?_, fun attr => rfl⟩
    exact read_default hkeys hroom (h.reads_none (by decide) (by decide) _)
      (h.reads_none (by decide) (by decide) _) (h.reads_none (by decide) (by decide) _)
      (h.reads_none (by decide) (by decide) _) (h.reads_none (by decide) (by decide) _)
      hcomposite hany.symm

theorem read_isDefault {d : Doc} {x : Option AttrValue} (h : IsDefault readable d x)
    (hroom : d.depth ≤ room) :
    ∃ y, Reader.optional (defaultRecord.read [] {}) room d.tree = .ok y ∧ MeansDefault y x := by
  cases h with
  | null => exact ⟨none, optional_null _ _, .inl ⟨rfl, rfl⟩⟩
  | object hkeys h =>
    obtain ⟨raw, hread, hvalue⟩ := read_writesDefault h hkeys hroom
    refine ⟨some raw, ?_, .inr ⟨raw, rfl, hvalue⟩⟩
    rw [optional_tree _ _ (by simp), hread]
    rfl

def ArgRecord.upTo (raw : ArgRecord) (seen : List String) : ArgRecord where
  name := if "name" ∈ seen then raw.name else ""
  type := if "type" ∈ seen then raw.type else none
  typeAttr := if "typeAttr" ∈ seen then raw.typeAttr else none
  numberAttr := if "numberAttr" ∈ seen then raw.numberAttr else none
  typeListAttr := if "typeListAttr" ∈ seen then raw.typeListAttr else none

theorem Writes.ne_nil {α : Type} {way : Doc → α → Prop} {names : List String} {x : α}
    (h : Writes way names ms x) : values names ms ≠ [] := by
  obtain ⟨d, hvalues, _⟩ := h
  simp [hvalues]

/-- An argument is read as a record that means it. -/
theorem read_arg {d : Doc} {a : ArgDef} (hroom : d.depth ≤ room)
    (h : IsObject readable WritesArg d a) :
    ∃ raw, argRecord.read ["name"] {} room d.tree = .ok raw ∧ raw.argDef = .ok a := by
  obtain ⟨ms, rfl, hkeys, h⟩ := h
  obtain ⟨name, hname, rfl⟩ := h.name.reads hroom (fun _ _ => read_string) ""
  obtain ⟨type, htype, hmeans⟩ :=
    h.elementType.reads hroom (fun _ _ => read_optionalType) none (.inl ⟨rfl, rfl⟩)
  obtain ⟨typeAttr, htypeAttr, htypeAttr'⟩ :=
    h.typeAttr.reads hroom (fun _ _ => read_text) none rfl
  obtain ⟨number, hnumber, hnumber'⟩ := h.numberAttr.reads hroom (fun _ _ => read_text) none rfl
  obtain ⟨typeList, htypeList, htypeList'⟩ :=
    h.typeListAttr.reads hroom (fun _ _ => read_text) none rfl
  let raw : ArgRecord := ⟨a.name, type, typeAttr, number, typeList⟩
  have htakes : argRecord.Takes (room - 1) ms raw.upTo := by
    intro f hf
    simp only [argRecord, List.mem_cons, List.not_mem_nil, or_false] at hf
    rcases hf with rfl | rfl | rfl | rfl | rfl
    · exact hname.taken (fun a name => { a with name }) (fun _ _ => rfl) fun _ => by
        simp [raw, ArgRecord.upTo]
    · exact htype.taken (fun a type => { a with type }) (fun _ _ => rfl) fun _ => by
        simp [raw, ArgRecord.upTo]
    · exact htypeAttr.taken (fun a typeAttr => { a with typeAttr }) (fun _ _ => rfl) fun _ => by
        simp [raw, ArgRecord.upTo]
    · exact hnumber.taken (fun a numberAttr => { a with numberAttr }) (fun _ _ => rfl) fun _ => by
        simp [raw, ArgRecord.upTo]
    · exact htypeList.taken (fun a typeListAttr => { a with typeListAttr }) (fun _ _ => rfl)
        fun _ => by simp [raw, ArgRecord.upTo]
  obtain ⟨seen, hread, hseen⟩ := Record.read_object (by decide) hkeys ["name"] hroom htakes (by
    intro name hmem
    obtain rfl := List.mem_singleton.1 hmem
    exact ⟨{ name := "name" }, by simp [argRecord], rfl, h.name.ne_nil⟩)
  have hall : raw.upTo seen = raw := by
    have hseen' := fun f hf => hseen f hf
    simp only [argRecord, List.forall_mem_cons] at hseen'
    obtain ⟨h1, h2, h3, h4, h5, _⟩ := hseen'
    rw [ArgRecord.upTo, hname.seen h1, htype.seen h2, htypeAttr.seen h3, hnumber.seen h4,
      htypeList.seen h5]
  refine ⟨raw, ?_, ?_⟩
  · rw [← hall]
    exact hread
  · rcases hmeans with ⟨hnone, htype⟩ | ⟨name, t, hsome, hname, htype⟩
    · simp only [ArgRecord.argDef, raw, hnone, htypeAttr', hnumber', htypeList']
      exact congrArg (fun elementType => Except.ok { a with elementType }) htype.symm
    · simp only [ArgRecord.argDef, raw, hsome, hname, htypeAttr', hnumber', htypeList']
      exact congrArg (fun elementType => Except.ok { a with elementType }) htype.symm

def AttrRecord.upTo (raw : AttrRecord) (seen : List String) : AttrRecord where
  name := if "name" ∈ seen then raw.name else ""
  type := if "type" ∈ seen then raw.type else ""
  default := if "defaultValue" ∈ seen then raw.default else none

/-- An attribute is read as a record that means it. -/
theorem read_attr {d : Doc} {a : AttrDef} (hroom : d.depth ≤ room)
    (h : IsObject readable (WritesAttr (IsDefault readable)) d a) :
    ∃ raw, attrRecord.read ["name", "type"] {} room d.tree = .ok raw ∧ raw.attrDef = .ok a := by
  obtain ⟨ms, rfl, hkeys, h⟩ := h
  obtain ⟨name, hname, rfl⟩ := h.name.reads hroom (fun _ _ => read_string) ""
  obtain ⟨kind, hkind, rfl⟩ := h.kind.reads hroom (fun _ _ => read_string) ""
  obtain ⟨default, hdefault, hmeans⟩ :=
    h.default.reads hroom (fun _ hroom h => read_isDefault h hroom) none (.inl ⟨rfl, rfl⟩)
  let raw : AttrRecord := ⟨a.name, a.kind, default⟩
  have htakes : attrRecord.Takes (room - 1) ms raw.upTo := by
    intro f hf
    simp only [attrRecord, List.mem_cons, List.not_mem_nil, or_false] at hf
    rcases hf with rfl | rfl | rfl
    · exact hname.taken (fun a name => { a with name }) (fun _ _ => rfl) fun _ => by
        simp [raw, AttrRecord.upTo]
    · exact hkind.taken (fun a type => { a with type }) (fun _ _ => rfl) fun _ => by
        simp [raw, AttrRecord.upTo]
    · exact hdefault.taken (fun a default => { a with default }) (fun _ _ => rfl) fun _ => by
        simp [raw, AttrRecord.upTo]
  obtain ⟨seen, hread, hseen⟩ := Record.read_object (by decide) hkeys ["name", "type"] hroom htakes (by
    intro name hmem
    rcases List.mem_pair.1 hmem with rfl | rfl
    · exact ⟨{ name := "name" }, by simp [attrRecord], rfl, h.name.ne_nil⟩
    · exact ⟨{ name := "type" }, by simp [attrRecord], rfl, h.kind.ne_nil⟩)
  have hall : raw.upTo seen = raw := by
    simp only [attrRecord, List.forall_mem_cons] at hseen
    obtain ⟨h1, h2, h3, _⟩ := hseen
    rw [AttrRecord.upTo, hname.seen h1, hkind.seen h2, hdefault.seen h3]
  refine ⟨raw, ?_, ?_⟩
  · rw [← hall]
    exact hread
  · rcases hmeans with ⟨rfl, hnone⟩ | ⟨record, rfl, hvalue⟩
    · exact congrArg (fun default => Except.ok { a with default }) hnone.symm
    · simp only [AttrRecord.attrDef, raw, hvalue]
      rfl

def OpRecord.upTo (raw : OpRecord) (seen : List String) : OpRecord where
  name := if "name" ∈ seen then raw.name else ""
  inputs := if "inputArg" ∈ seen then raw.inputs else []
  outputs := if "outputArg" ∈ seen then raw.outputs else []
  attrs := if "attr" ∈ seen then raw.attrs else []
  summary := if "summary" ∈ seen then raw.summary else none
  description := if "description" ∈ seen then raw.description else none

/-- An operation is read as a record that means it. -/
theorem read_op {d : Doc} {op : OpDef} (hroom : d.depth ≤ room)
    (h : IsObject readable (WritesOp readable (IsDefault readable)) d op) :
    ∃ raw, opRecord.read ["name"] {} room d.tree = .ok raw ∧ raw.opDef = .ok op := by
  obtain ⟨ms, rfl, hkeys, h⟩ := h
  obtain ⟨name, hname, rfl⟩ := h.name.reads hroom (fun _ _ => read_string) ""
  obtain ⟨inputs, hinputs, hinputs'⟩ := h.inputs.reads hroom
    (fun _ hroom h => read_array h hroom fun _ _ => read_arg) [] .nil
  obtain ⟨outputs, houtputs, houtputs'⟩ := h.outputs.reads hroom
    (fun _ hroom h => read_array h hroom fun _ _ => read_arg) [] .nil
  obtain ⟨attrs, hattrs, hattrs'⟩ := h.attrs.reads hroom
    (fun _ hroom h => read_array h hroom fun _ _ => read_attr) [] .nil
  obtain ⟨summary, hsummary, hsummary'⟩ := h.summary.reads hroom (fun _ _ => read_text) none rfl
  obtain ⟨description, hdescription, hdescription'⟩ :=
    h.description.reads hroom (fun _ _ => read_text) none rfl
  let raw : OpRecord := ⟨op.name, inputs, outputs, attrs, summary, description⟩
  have htakes : opRecord.Takes (room - 1) ms raw.upTo := by
    intro f hf
    simp only [opRecord, List.mem_cons, List.not_mem_nil, or_false] at hf
    rcases hf with rfl | rfl | rfl | rfl | rfl | rfl
    · exact hname.taken (fun op name => { op with name }) (fun _ _ => rfl) fun _ => by
        simp [raw, OpRecord.upTo]
    · exact hinputs.taken (fun op inputs => { op with inputs }) (fun _ _ => rfl) fun _ => by
        simp [raw, OpRecord.upTo]
    · exact houtputs.taken (fun op outputs => { op with outputs }) (fun _ _ => rfl) fun _ => by
        simp [raw, OpRecord.upTo]
    · exact hattrs.taken (fun op attrs => { op with attrs }) (fun _ _ => rfl) fun _ => by
        simp [raw, OpRecord.upTo]
    · exact hsummary.taken (fun op summary => { op with summary }) (fun _ _ => rfl) fun _ => by
        simp [raw, OpRecord.upTo]
    · exact hdescription.taken (fun op description => { op with description }) (fun _ _ => rfl)
        fun _ => by simp [raw, OpRecord.upTo]
  obtain ⟨seen, hread, hseen⟩ := Record.read_object (by decide) hkeys ["name"] hroom htakes (by
    intro name hmem
    obtain rfl := List.mem_singleton.1 hmem
    exact ⟨{ name := "name" }, by simp [opRecord], rfl, h.name.ne_nil⟩)
  have hall : raw.upTo seen = raw := by
    simp only [opRecord, List.forall_mem_cons] at hseen
    obtain ⟨h1, h2, h3, h4, h5, h6, _⟩ := hseen
    rw [OpRecord.upTo, hname.seen h1, hinputs.seen h2, houtputs.seen h3, hattrs.seen h4,
      hsummary.seen h5, hdescription.seen h6]
  refine ⟨raw, ?_, ?_⟩
  · rw [← hall]
    exact hread
  · simp only [OpRecord.opDef, raw, mapM_ok_iff.2 hinputs', mapM_ok_iff.2 houtputs',
      mapM_ok_iff.2 hattrs', hsummary', hdescription']
    rfl

/-- The document of a registry is read as records that mean it. -/
theorem read_isRegistry {d : Doc} {r : Registry} (hroom : d.depth ≤ room)
    (h : IsRegistry readable d r) :
    ∃ raws, opsRecord.read [] [] room d.tree = .ok raws ∧ raws.mapM OpRecord.opDef = .ok r := by
  obtain ⟨ms, rfl, hkeys, h⟩ := h
  obtain ⟨raws, hraws, hmeans⟩ := WritesOr.reads h hroom
    (fun _ hroom h => read_array h hroom fun _ _ => read_op) [] .nil
  have htakes : opsRecord.Takes (room - 1) ms fun seen => if "op" ∈ seen then raws else [] := by
    intro f hf
    obtain rfl := List.mem_singleton.1 hf
    exact hraws.taken (fun _ ops => ops) (fun _ _ => (bind_pure _).symm) fun _ => by simp
  obtain ⟨seen, hread, hseen⟩ := Record.read_object (by decide) hkeys [] hroom htakes (by simp)
  simp only [opsRecord, List.forall_mem_cons] at hseen
  refine ⟨raws, ?_, mapM_ok_iff.2 hmeans⟩
  rw [hraws.seen hseen.1] at hread
  exact hread

end

/-- A text is read as the registry that its document writes, in whatever way it spells it. -/
theorem registry_of_document {r : Registry} {d : Doc} (hd : IsRegistry readable d r)
    (hdepth : d.depth ≤ depthLimit) {text : String} (ht : Spelled d.tokens text.toList) :
    registry text = .ok r := by
  obtain ⟨raws, hread, hmeans⟩ := read_isRegistry hdepth hd
  rw [registry, parse_spelled ht, hread]
  exact hmeans

/-- An operation whose fields stand in no order, among members of other names that hold what the fields
may not. -/
def mixedDoc : Doc := .object [
  ("version", .array [
    .number { negative := false, whole := ['1'], power := some (false, "999".toList) },
    .string none]),
  ("op", .array [.object [
    ("summary", .null),
    ("attr", .array [.object [
      ("default_value", .object [("b", .null), ("i", .string "-07")]),
      ("type", .string "int"), ("name", .string "N")]]),
    ("name", .string "A"),
    ("inputArg", .array [.object [
      ("type", .string "DT_FLOAT_REF"), ("name", .string "x"), ("type_attr", .string "")]])]])]

def mixedText : String :=
  "\x7b\"version\":[1e999,\"\\ud800\"],\"op\":[\x7b\"summary\":null,\"attr\":[\x7b\"default_value\":" ++
  "\x7b\"b\":null,\"i\":\"-07\"\x7d,\"type\":\"int\",\"name\":\"N\"\x7d],\"name\":\"A\"," ++
  "\"inputArg\":[\x7b\"type\":\"DT_FLOAT_REF\",\"name\":\"x\",\"type_attr\":\"\"\x7d]\x7d]\x7d"

/-- What `mixedDoc` writes. -/
def mixedRegistry : Registry := [{
  name := "A"
  inputs := [{ name := "x", elementType := some .float }]
  attrs := [{ name := "N", kind := "int", default := some (.int (-7)) }] }]

set_option maxRecDepth 2000 in
theorem registry_of_document_mixedDoc :
    IsRegistry readable mixedDoc mixedRegistry ∧ mixedDoc.depth ≤ depthLimit ∧
      Spelled mixedDoc.tokens mixedText.toList ∧ registry mixedText = .ok mixedRegistry := by
  have hdigits : IsDigits "07".toList := by decide
  have hdefault : WritesDefault readable [("b", .null), ("i", .string "-07")]
      (some (.int (-7))) := by
    refine .int (givesOnly_of_members (by decide) ?_) ⟨_, rfl, .text .minus hdigits⟩ rfl
    simp
  have hwrites : IsRegistry readable mixedDoc mixedRegistry := by
    refine ⟨_, rfl, by decide, .inr ⟨_, rfl, _, rfl, .cons ⟨_, rfl, by decide, ?_⟩ .nil⟩⟩
    refine ⟨⟨_, rfl, rfl⟩, .inr ⟨_, rfl, _, rfl, .cons ⟨_, rfl, by decide, ?_⟩ .nil⟩,
      .inl ⟨rfl, rfl⟩, .inr ⟨_, rfl, _, rfl, .cons ⟨_, rfl, by decide, ?_⟩ .nil⟩,
      .inr ⟨_, rfl, .null⟩, .inl ⟨rfl, rfl⟩⟩
    · exact ⟨⟨_, rfl, rfl⟩, .inr ⟨_, rfl, .given (.inr rfl)⟩, .inr ⟨_, rfl, .empty⟩,
        .inl ⟨rfl, rfl⟩, .inl ⟨rfl, rfl⟩⟩
    · exact ⟨⟨_, rfl, rfl⟩, ⟨_, rfl, rfl⟩, .inr ⟨_, rfl, .object (by decide) hdefault⟩⟩
  have hdepth : mixedDoc.depth ≤ depthLimit := by decide
  have hspelled : Spelled mixedDoc.tokens mixedText.toList := by
    have htext : mixedText = String.ofList (mixedDoc.print Numeral.text) := rfl
    rw [htext, String.toList_ofList]
    refine spelled_doc _ ?_
    intro n hn
    obtain rfl := List.mem_singleton.1 hn
    exact Numeral.IsWritten.spelledBy (by decide)
  exact ⟨hwrites, hdepth, hspelled, registry_of_document hwrites hdepth hspelled⟩

/-- An attribute whose default has some members. -/
def defaultAttr (attr kind : String) (ms : Members) : Doc :=
  .object [("name", .string attr), ("type", .string kind), ("defaultValue", .object ms)]

/-- A document of such an attribute. -/
def defaultDoc (op attr kind : String) (ms : Members) : Doc :=
  .object [("op", .array [
    .object [("name", .string op), ("attr", .array [defaultAttr attr kind ms])]])]

def numberDefault (op attr kind key : String) (n : Numeral) : Doc :=
  defaultDoc op attr kind [(key, .number n)]

def defaultRegistry (op attr kind : String) (x : AttrValue) : Registry :=
  [{ name := op, attrs := [{ name := attr, kind, default := some x }] }]

section
variable {room : Nat}

/-- An array of one item is read as far as the item is. -/
theorem read_singleton {α : Type} {r : Reader α} {d : Doc} {e : Except Fault α}
    (hread : r room d.tree = e) :
    Reader.array r (room + 1) (Doc.array [d]).tree = e.map fun x => [x] := by
  rw [Doc.tree, Reader.array, Doc.trees, if_neg room.succ_ne_zero, List.mapM_cons]
  change (r room d.tree >>= _) >>= _ = _
  rw [hread]
  cases e <;> rfl

variable (op attr kind : String) {ms : Members} {e : Except Fault DefaultRecord}

theorem read_defaultAttr (hread : defaultRecord.read [] {} (room + 1) (Doc.object ms).tree = e) :
    attrRecord.read ["name", "type"] {} (room + 2) (defaultAttr attr kind ms).tree =
      e.map fun raw => ⟨attr, kind, some raw⟩ := by
  have hdefault : Reader.optional (defaultRecord.read [] {}) (room + 1) (Doc.object ms).tree =
      e.map some := by
    rw [optional_tree _ _ (by simp), hread]
  rw [defaultAttr, Record.read_tree, Record.readMembers_cons (f := { name := "name" })
    (g := fun name => { name }) rfl (by simp) (fun _ => rfl) (string_tree _ _)]
  change (Record.readMembers _ _ _ _ _).bind _ = _
  rw [Record.readMembers_cons (f := { name := "type" }) (g := fun type => { name := attr, type })
    rfl (by simp) (fun _ => rfl) (string_tree _ _)]
  change (Record.readMembers _ _ _ _ _).bind _ = _
  rw [Record.readMembers_cons (f := { name := "defaultValue", alias? := some "default_value" })
    (g := fun default => { name := attr, type := kind, default }) rfl (by simp) (fun _ => rfl)
    hdefault]
  cases e <;> rfl

/-- The document of an attribute is read as far as its default is. -/
theorem read_defaultDoc (hread : defaultRecord.read [] {} (room + 1) (Doc.object ms).tree = e) :
    opsRecord.read [] [] (room + 6) (defaultDoc op attr kind ms).tree =
      e.map fun raw => [{ name := op, attrs := [⟨attr, kind, some raw⟩] }] := by
  have hattrs := read_singleton (read_defaultAttr attr kind hread)
  have hop : opRecord.read ["name"] {} (room + 4)
      (Doc.object [("name", .string op), ("attr", .array [defaultAttr attr kind ms])]).tree =
        e.map fun raw => { name := op, attrs := [⟨attr, kind, some raw⟩] } := by
    rw [Record.read_tree, Record.readMembers_cons (f := { name := "name" })
      (g := fun name => { name }) rfl (by simp) (fun _ => rfl) (string_tree _ _)]
    change (Record.readMembers _ _ _ _ _).bind _ = _
    rw [Record.readMembers_cons (f := { name := "attr", mayEnd := true })
      (g := fun attrs => { name := op, attrs }) rfl (by simp) (fun _ => rfl) hattrs]
    cases e <;> rfl
  rw [defaultDoc, Record.read_tree, Record.readMembers_cons
    (f := { name := "op", mayEnd := true }) (g := fun ops => ops) rfl (by simp)
    (fun _ => (bind_pure _).symm) (read_singleton hop)]
  cases e <;> rfl

/-- A tensor that is a number without a value is not read. -/
theorem read_tensor_number {n : Numeral} {f : Fault} (hn : n.value = .error f) :
    defaultRecord.read [] {} (room + 1) (Doc.object [("tensor", .number n)]).tree = .error f := by
  have hread : Reader.optional Reader.any room (Doc.number n).tree = .error f := by
    rw [optional_tree _ _ (by simp), Doc.tree, Reader.any, readAny, hn]
    rfl
  rw [Record.read_tree, Record.readMembers_cons (f := { name := "tensor" })
    (g := fun given => { composite := given.isSome }) rfl (by simp) (fun _ => rfl) hread]
  rfl

end

/-- Whether a text whose document writes a registry is not read as the registry. -/
def IsMisread (d : Doc) (r : Registry) (text : String) : Prop :=
  IsRegistry anything d r ∧ d.depth ≤ depthLimit ∧ Spelled d.tokens text.toList ∧
    registry text ≠ .ok r

theorem isMisread_defaultDoc {op attr kind : String} {ms : Members} {x : AttrValue} {text : String}
    (hdefault : WritesDefault anything ms (some x))
    (hn : ∀ n ∈ (defaultDoc op attr kind ms).numerals, n.IsWritten)
    (hdepth : (defaultDoc op attr kind ms).depth ≤ depthLimit)
    (htext : text = String.ofList ((defaultDoc op attr kind ms).print Numeral.text))
    {f : Fault}
    (hread : defaultRecord.read [] {} (depthLimit - 5) (Doc.object ms).tree = .error f) :
    IsMisread (defaultDoc op attr kind ms) (defaultRegistry op attr kind x) text := by
  have hspelled : Spelled (defaultDoc op attr kind ms).tokens text.toList := by
    rw [htext, String.toList_ofList]
    exact spelled_doc _ fun n hmem => (hn n hmem).spelledBy
  have hkeys (ms : Members) : ∀ m ∈ ms, anything.string m.1 := fun _ _ => trivial
  refine ⟨?_, hdepth, hspelled, ?_⟩
  · refine ⟨_, rfl, hkeys _, .inr ⟨_, rfl, _, rfl, .cons ⟨_, rfl, hkeys _, ?_⟩ .nil⟩⟩
    refine ⟨⟨_, rfl, rfl⟩, .inl ⟨rfl, rfl⟩, .inl ⟨rfl, rfl⟩,
      .inr ⟨_, rfl, _, rfl, .cons ⟨_, rfl, hkeys _, ?_⟩ .nil⟩, .inl ⟨rfl, rfl⟩, .inl ⟨rfl, rfl⟩⟩
    exact ⟨⟨_, rfl, rfl⟩, ⟨_, rfl, rfl⟩, .inr ⟨_, rfl, .object (hkeys _) hdefault⟩⟩
  · have hall : opsRecord.read [] [] depthLimit (defaultDoc op attr kind ms).tree = .error f :=
      read_defaultDoc op attr kind hread
    rw [registry, parse_spelled hspelled, hall]
    intro h
    cases h

/-- A number past the greatest one, which is below the greatest float of 64 bits. -/
def pastGreatestNumber : Numeral :=
  ⟨false, "1".toList, some "797693134862315649".toList, some (false, "308".toList)⟩

theorem isMisread_otherValues :
    IsMisread
      (numberDefault "A" "x" "int" "tensor"
        ⟨false, "1".toList, none, some (false, "400".toList)⟩)
      (defaultRegistry "A" "x" "int" .composite)
      ("\x7b\"op\":[\x7b\"name\":\"A\",\"attr\":[\x7b\"name\":\"x\",\"type\":\"int\"," ++
        "\"defaultValue\":\x7b\"tensor\":1e400\x7d\x7d]\x7d]\x7d") ∧
    IsMisread (numberDefault "A" "x" "int" "tensor" pastGreatestNumber)
      (defaultRegistry "A" "x" "int" .composite)
      ("\x7b\"op\":[\x7b\"name\":\"A\",\"attr\":[\x7b\"name\":\"x\",\"type\":\"int\"," ++
        "\"defaultValue\":\x7b\"tensor\":1.797693134862315649e308\x7d\x7d]\x7d]\x7d") ∧
    IsMisread (defaultDoc "A" "x" "int" [("tensor", .string none)])
      (defaultRegistry "A" "x" "int" .composite)
      ("\x7b\"op\":[\x7b\"name\":\"A\",\"attr\":[\x7b\"name\":\"x\",\"type\":\"int\"," ++
        "\"defaultValue\":\x7b\"tensor\":\"\\ud800\"\x7d\x7d]\x7d]\x7d") ∧
    IsMisread (defaultDoc "A" "x" "bool" [("b", .bool true), (none, .null)])
      (defaultRegistry "A" "x" "bool" (.bool true))
      ("\x7b\"op\":[\x7b\"name\":\"A\",\"attr\":[\x7b\"name\":\"x\",\"type\":\"bool\"," ++
        "\"defaultValue\":\x7b\"b\":true,\"\\ud800\":null\x7d\x7d]\x7d]\x7d") ∧
    IsMisread (numberDefault "A" "x" "int" "i" ⟨false, "5".toList, some "0".toList, none⟩)
      (defaultRegistry "A" "x" "int" (.int 5))
      ("\x7b\"op\":[\x7b\"name\":\"A\",\"attr\":[\x7b\"name\":\"x\",\"type\":\"int\"," ++
        "\"defaultValue\":\x7b\"i\":5.0\x7d\x7d]\x7d]\x7d") ∧
    IsMisread (numberDefault "A" "x" "int" "i" ⟨true, "0".toList, none, none⟩)
      (defaultRegistry "A" "x" "int" (.int 0))
      ("\x7b\"op\":[\x7b\"name\":\"A\",\"attr\":[\x7b\"name\":\"x\",\"type\":\"int\"," ++
        "\"defaultValue\":\x7b\"i\":-0\x7d\x7d]\x7d]\x7d") := by
  have hcomposite (d : Doc) (h : d ≠ .null) :
      WritesDefault anything [("tensor", d)] (some .composite) :=
    .composite (givesOnly_one (by decide) _)
      (mem_values.2 ⟨"tensor", by decide, List.mem_singleton_self _⟩) h
      fun _ _ => ⟨fun _ _ => trivial, fun _ _ => trivial⟩
  have hint (n : Numeral) (i : Int) (h : n.Denotes i) (hfits : Number.fits64 i = true) :
      WritesDefault anything [("i", .number n)] (some (.int i)) :=
    .int (givesOnly_one (by decide) _) ⟨_, rfl, .number trivial h⟩ hfits
  have hbool : WritesDefault anything [("b", .bool true), (none, .null)] (some (.bool true)) := by
    refine .bool (givesOnly_of_members (by decide) ?_) ⟨_, rfl, rfl⟩
    simp
  have hpast : pastGreatestNumber.value = .error .malformed := by decide +kernel
  exact ⟨isMisread_defaultDoc (hcomposite _ (by simp)) (by decide) (by decide) rfl rfl,
    isMisread_defaultDoc (hcomposite _ (by simp)) (by decide) (by decide) rfl
      (read_tensor_number hpast),
    isMisread_defaultDoc (hcomposite _ (by simp)) (by decide) (by decide) rfl rfl,
    isMisread_defaultDoc hbool (by decide) (by decide) rfl rfl,
    isMisread_defaultDoc (hint _ _ rfl rfl) (by decide) (by decide) rfl rfl,
    isMisread_defaultDoc (hint _ _ rfl rfl) (by decide) (by decide) rfl rfl⟩

end OpStubs.Json
