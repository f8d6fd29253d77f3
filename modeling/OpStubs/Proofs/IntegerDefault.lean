import OpStubs.Proofs.Json.Writing
import OpStubs.Proofs.TextFormat.FieldOrder
import OpStubs.Proofs.TextFormat.Printing

namespace OpStubs

/-- Whether the integers among the defaults have 64 bits. -/
def Registry.IntegersFit (r : Registry) : Prop :=
  ∀ op ∈ r, ∀ a ∈ op.attrs, ∀ i, a.default = some (.int i) → Number.fits64 i = true

namespace Number

/-- An integer that is read from its decimal has 64 bits. -/
theorem fits64_of_parseInt64? {i j : Int} (h : parseInt64? (toString i).toList = some j) :
    fits64 i = true := by
  rw [parseInt64?_toString] at h
  split at h
  · assumption
  · cases h

end Number

namespace TextFormat

theorem fits64_of_attrValue {i : Int} {pos : Pos} {x : AttrValue}
    (h : Entry.attrValue ⟨"i", .number (toString i), pos⟩ = .ok x) : Number.fits64 i = true := by
  have hscalar : Entry.scalar ⟨"i", .number (toString i), pos⟩ = .ok (toString i) := rfl
  simp only [Entry.attrValue, hscalar, bind, Except.bind] at h
  split at h
  · rename_i hparse
    exact Number.fits64_of_parseInt64? hparse
  · cases h

theorem fits64_of_default {f : Field} {i : Int} (h : IsDefault f.value (.int i))
    {x : Option AttrValue} (hread : f.default = .ok x) : Number.fits64 i = true := by
  obtain ⟨g, hv, hg⟩ := h
  rw [Entry.default, message_bind_ok_iff] at hread
  obtain ⟨fs, hfs, hread⟩ := hread
  rw [hv] at hfs
  cases hfs
  obtain ⟨y, hy, -⟩ := bind_ok_iff.1 hread
  cases hg with
  | int _ pos => exact fits64_of_attrValue hy

/-- The attributes whose fields are read have integers of 64 bits. -/
theorem fits64_of_attrDef {f : Field} {a : AttrDef} (h : IsMessage WritesAttr f.value a)
    {b : AttrDef} (hread : f.attrDef = .ok b) {i : Int} (hi : a.default = some (.int i)) :
    Number.fits64 i = true := by
  obtain ⟨fs, hv, hfs⟩ := h
  obtain ⟨fs', hv', hfold⟩ := message_bind_ok_iff.1 hread
  rw [hv] at hv'
  cases hv'
  obtain ⟨g, hg, hway⟩ := exists_of_forall₂ hfs.default (by rw [hi]; exact List.mem_singleton_self _)
  obtain ⟨hmem, hname⟩ := List.mem_filter.1 hg
  obtain ⟨-, -, defaults, hdefaults, -⟩ := foldlM_addToAttr_eq_ok_iff.1 hfold
  obtain ⟨x, hx⟩ := hdefaults.exists_read hmem (by simpa using hname)
  exact fits64_of_default hway hx

theorem fits64_of_opDef {f : Field} {op : OpDef} (h : IsMessage WritesOp f.value op)
    {op' : OpDef} (hread : f.opDef = .ok op') : ∀ a ∈ op.attrs, ∀ i,
    a.default = some (.int i) → Number.fits64 i = true := by
  intro a ha i hi
  obtain ⟨fs, hv, hfs⟩ := h
  obtain ⟨fs', hv', hfold, -⟩ := opDef_eq_ok_iff.1 hread
  rw [hv] at hv'
  cases hv'
  obtain ⟨g, hg, hway⟩ := exists_of_forall₂ hfs.attrs ha
  obtain ⟨hmem, hname⟩ := List.mem_filter.1 hg
  obtain ⟨-, -, -, ⟨attrs, hattrs, -⟩, -⟩ := foldlM_addToOp_eq_ok_iff.1 hfold
  obtain ⟨b, hb⟩ := hattrs.exists_read hmem (by simpa using hname)
  exact fits64_of_attrDef hway hb hi

/-- Fields that write a registry are read as it if its integers have 64 bits, and only then. -/
theorem registry_eq_ok_iff {r : Registry} (hr : ∀ op ∈ r, { op with attrs := [] }.IsWritable)
    {d : FieldsTree} (hd : WritesRegistry d.fields r) {text : String}
    (ht : Spelled .start d.tokens text.toList) (r' : Registry) :
    registry text = .ok r' ↔ r.IntegersFit ∧ r' = r := by
  have hfields : fields text.toList = .ok d.fields := by
    rw [fields, tokens, scan_spelled ht]
    exact fieldsOfTokens_tokens _ d
  have hread : registry text = (d.fields.filter (·.name == "op")).mapM Entry.opDef := by
    rw [registry, hfields]
    rfl
  have hfit (h : r.IntegersFit) : registry text = .ok r := by
    have hops : Reads Entry.opDef "op" d.fields (r.map id) := by
      refine hd.reads fun op hop f hf => opDef_of_isMessage hf ?_
      have hrest := hr op hop
      exact ⟨hrest.name, hrest.summary, hrest.description, hrest.args, h op hop⟩
    rw [List.map_id] at hops
    rw [hread, mapM_of_reads hops]
  constructor
  · intro h
    have hints : r.IntegersFit := by
      intro op hop
      obtain ⟨f, hf, hway⟩ := exists_of_forall₂ hd hop
      obtain ⟨op', hop'⟩ := exists_mapM_iff.1 ⟨r', hread.symm.trans h⟩ f hf
      exact fits64_of_opDef hway hop'
    have hsame := hfit hints
    rw [h] at hsame
    exact ⟨hints, Except.ok.inj hsame⟩
  · rintro ⟨h, rfl⟩
    exact hfit h

end TextFormat

namespace Json

section
variable {α γ : Type} {rec : Record α} {room : Nat} {f : FieldSpec} {r : Reader γ}

/-- A record that is read has of a field what the field's value is read as, if the other fields leave
it alone. -/
theorem Record.readMembers_get (get : α → γ) (hrec : rec.IsUnambiguous) (hf : f ∈ rec.fields)
    (htake : ∀ a t a', rec.take a f.name room t = .ok a' → r room t = .ok (get a'))
    (hkeep : ∀ g ∈ rec.fields, g.name ≠ f.name → ∀ a t a', rec.take a g.name room t = .ok a' →
      get a' = get a)
    {ms : Members} {seen seen' : List String} {a b : α}
    (h : rec.readMembers room (Doc.memberTrees ms) seen a = .ok (b, seen')) :
    (f.name ∈ seen → get b = get a) ∧ ∀ d ∈ values f.names ms, r room d.tree = .ok (get b) := by
  induction ms generalizing seen a with
  | nil =>
    cases h
    exact ⟨fun _ => rfl, nofun⟩
  | cons m ms ih =>
    obtain ⟨key, d⟩ := m
    rw [Doc.memberTrees, Record.readMembers, bind_ok_iff] at h
    obtain ⟨name, hname, h⟩ := h
    obtain rfl := Doc.eq_some_of_content hname
    clear hname
    dsimp only at h
    generalize String.ofList name = key at h ⊢
    split at h
    case h_1 hfind =>
      obtain ⟨_, -, hrest⟩ := bind_ok_iff.1 h
      have hkey : key ∉ f.names := by
        rw [← f.accepts_iff]
        exact List.find?_eq_none.1 hfind f hf
      rw [values_cons_of_notMem hkey]
      exact ih hrest
    case h_2 g hfind =>
      have hg := List.mem_of_find?_eq_some hfind
      have hkey := (g.accepts_iff key).1 (by simpa using List.find?_some hfind)
      split at h
      · cases h
      · rename_i hnew
        obtain ⟨c, hc, hrest⟩ := bind_ok_iff.1 h
        obtain ⟨hseen, hvalues⟩ := ih hrest
        by_cases hgf : g = f
        · subst hgf
          rw [values_cons_of_mem hkey]
          refine ⟨fun hmem => absurd (by simpa using hmem) hnew, ?_⟩
          refine List.forall_mem_cons.2 ⟨?_, hvalues⟩
          rw [hseen List.mem_cons_self]
          exact htake a d.tree c hc
        · have hname : g.name ≠ f.name := fun hname => hgf (hrec.eq_of_mem hg hf
            (List.mem_cons_self : g.name ∈ g.names) (hname ▸ List.mem_cons_self))
          have hother : key ∉ f.names := fun hkf => hgf (hrec.eq_of_mem hg hf hkey hkf)
          rw [values_cons_of_notMem hother]
          refine ⟨fun hmem => ?_, hvalues⟩
          rw [hseen (List.mem_cons_of_mem _ hmem), hkeep g hg hname a d.tree c hc]

theorem Record.read_get (get : α → γ) (hrec : rec.IsUnambiguous) (hf : f ∈ rec.fields)
    (htake : ∀ room a t a', rec.take a f.name room t = .ok a' → r room t = .ok (get a'))
    (hkeep : ∀ g ∈ rec.fields, g.name ≠ f.name → ∀ room a t a',
      rec.take a g.name room t = .ok a' → get a' = get a)
    {required : List String} {empty b : α} {ms : Members}
    (h : rec.read required empty room (Doc.object ms).tree = .ok b) :
    ∀ d ∈ values f.names ms, r (room - 1) d.tree = .ok (get b) := by
  rw [Doc.tree, Record.read] at h
  split at h
  · cases h
  · obtain ⟨⟨c, seen⟩, hmembers, h⟩ := bind_ok_iff.1 h
    have hc : c = b := by
      simp only [checkRead, bind, Except.bind] at h
      split at h
      · exact Except.ok.inj h
      · cases h
    subst hc
    exact (Record.readMembers_get get hrec hf (htake _) (fun g hg hne => hkeep g hg hne _) hmembers).2

end

section
variable {α β : Type} {r : Reader α} {room : Nat}

theorem forall₂_of_trees {read : Tree → Except Fault α} {items : List Doc} {xs : List α}
    (h : (Doc.trees items).mapM read = .ok xs) :
    List.Forall₂ (fun d x => read d.tree = .ok x) items xs := by
  have hall := mapM_ok_iff.1 h
  clear h
  induction items generalizing xs with
  | nil =>
    cases hall
    exact .nil
  | cons d items ih =>
    cases hall with
    | cons hd hrest => exact .cons hd (ih hrest)

theorem forall₂_of_array {items : List Doc} {xs : List α}
    (h : Reader.array r room (Doc.array items).tree = .ok xs) :
    List.Forall₂ (fun d x => r (room - 1) d.tree = .ok x) items xs := by
  rw [Doc.tree, Reader.array] at h
  split at h
  · cases h
  · obtain ⟨ys, hys, h⟩ := bind_ok_iff.1 h
    cases h
    exact forall₂_of_trees hys

/-- What the items of an array write is read from one of them. -/
theorem exists_of_array {way : Doc → β → Prop} {items : List Doc} {ys : List β} {xs : List α}
    (hitems : List.Forall₂ way items ys)
    (h : Reader.array r room (Doc.array items).tree = .ok xs) {y : β} (hy : y ∈ ys) :
    ∃ d, way d y ∧ ∃ x ∈ xs, r (room - 1) d.tree = .ok x := by
  obtain ⟨d, hd, hway⟩ := exists_of_forall₂ hitems hy
  exact ⟨d, hway, exists_of_forall₂ (forall₂_of_array h).flip hd⟩

theorem of_optional {d : Doc} (hd : d ≠ .null) {y : Option α}
    (h : Reader.optional r room d.tree = .ok y) : ∃ x, y = some x ∧ r room d.tree = .ok x := by
  rw [optional_tree r room hd] at h
  cases hread : r room d.tree with
  | error e =>
    rw [hread] at h
    cases h
  | ok x =>
    rw [hread] at h
    cases h
    exact ⟨x, rfl, rfl⟩

end

/-- The decimal of an integer. -/
def Numeral.ofInt (i : Int) : Numeral where
  negative := decide (i < 0)
  whole := Nat.toDigits 10 i.natAbs

/-- Whether a value is the decimal of an integer, as a number or as a string. -/
def IsDecimal (d : Doc) (i : Int) : Prop := d = .number (.ofInt i) ∨ d = .string (toString i)

theorem Numeral.isPlain_ofInt (i : Int) : (Numeral.ofInt i).IsPlain := by
  refine ⟨rfl, rfl, fun h => ?_⟩
  have hneg : i < 0 := of_decide_eq_true h
  change Number.digitsValue (Nat.toDigits 10 i.natAbs) ≠ 0
  rw [Number.digitsValue_toDigits]
  omega

theorem Numeral.digitsValue_ofInt (i : Int) :
    Number.digitsValue (Numeral.ofInt i).whole = i.natAbs :=
  Number.digitsValue_toDigits i.natAbs

theorem Numeral.denotes_ofInt (i : Int) : (Numeral.ofInt i).Denotes i := by
  have hsigned : signed (Numeral.ofInt i).negative i.natAbs = i := Number.signed_natAbs i
  rw [Denotes, decimal_of_isPlain (isPlain_ofInt i), digitsValue_ofInt]
  simpa [Number.Decimal.num, Number.Decimal.den] using hsigned

theorem IsDecimal.isInt {d : Doc} {i : Int} (h : IsDecimal d i) : IsInt readable d i := by
  rcases h with rfl | rfl
  · exact .number (Numeral.isPlain_ofInt i) (Numeral.denotes_ofInt i)
  · have htext : IsInt readable _ _ := .text (signSpelledBy_minusText (decide (i < 0)))
      (Number.isDigits_toDigits i.natAbs)
    rwa [← Number.toList_toString, String.ofList_toList, Number.digitsValue_toDigits,
      Number.signed_natAbs] at htext

/-- A decimal is an integer as long as it has 64 bits, with a sign or without. -/
theorem Numeral.value_ofInt (i : Int) : (Numeral.ofInt i).value =
    if -0x8000000000000000 ≤ i ∧ i < 0x10000000000000000 then .ok (.int i)
    else (Numeral.ofInt i).float := by
  rw [value, if_pos ⟨rfl, rfl⟩, digitsValue_ofInt]
  change (if decide (i < 0) = true then _ else _) = _
  by_cases hneg : i < 0
  · have hopposite : -(i.natAbs : Int) = i := by omega
    rw [if_pos (decide_eq_true hneg), hopposite]
    refine if_congr ?_ rfl rfl
    omega
  · have hsame : (i.natAbs : Int) = i := by omega
    rw [if_neg (by simpa using hneg), hsame]
    refine if_congr ?_ rfl rfl
    omega

theorem Numeral.float_ne_int (n : Numeral) (i : Int) : n.float ≠ .ok (.int i) := by
  unfold Numeral.float
  dsimp only
  split <;> nofun

theorem integer_ne_ok_of_float {n : Numeral} (h : n.value = n.float) (room : Nat)
    (y : Num ⊕ String) : integer room (Doc.number n).tree ≠ .ok y := by
  rw [Doc.tree, integer, Reader.numberOrString, h]
  intro hread
  cases hfloat : n.float with
  | error e =>
    rw [hfloat] at hread
    cases hread
  | ok v =>
    cases v with
    | int i => exact n.float_ne_int i hfloat
    | float negative value =>
      rw [hfloat] at hread
      cases hread

/-- A number that has no 64 bits with a sign is none of the integers that are read. -/
theorem fits64_of_integer_number {i : Int} {room : Nat} {y : Num ⊕ String}
    (h : integer room (Doc.number (.ofInt i)).tree = .ok y) : Number.fits64 i = true := by
  have hvalue := Numeral.value_ofInt i
  split at hvalue
  · rw [Doc.tree, integer, Reader.numberOrString, hvalue] at h
    simp only [Except.map, bind, Except.bind] at h
    split at h
    · assumption
    · cases h
  · exact absurd h (integer_ne_ok_of_float hvalue room y)

theorem fits64_of_integer {d : Doc} {i : Int} (hd : IsDecimal d i) {room : Nat}
    {y : Num ⊕ String} (h : integer room d.tree = .ok y) {attr : String} {x : AttrValue}
    (hx : intValue attr y = .ok x) : Number.fits64 i = true := by
  rcases hd with rfl | rfl
  · exact fits64_of_integer_number h
  · have hy : y = .inr (toString i) := by
      rw [Doc.tree, integer, Reader.numberOrString] at h
      simp only [Except.map, bind, Except.bind, Doc.content, String.ofList_toList] at h
      exact (Except.ok.inj h).symm
    subst hy
    rw [intValue] at hx
    split at hx
    · rename_i hparse
      exact Number.fits64_of_parseInt64? hparse
    · cases hx

/-- How a default may be written whose integer has any size. -/
inductive IsDefaultOfAnySize : Doc → Option AttrValue → Prop
  | int {ms : Members} {i : Int} (hkeys : ∀ m ∈ ms, readable.string m.1) (h : GivesOnly ["i"] ms)
    (hi : Writes IsDecimal ["i"] ms i) : IsDefaultOfAnySize (.object ms) (some (.int i))
  | other {d : Doc} {x : Option AttrValue} (h : IsDefault readable d x) : IsDefaultOfAnySize d x

/-- Whether a document writes a registry whose integers may have any size. -/
def IsRegistryOfAnySize : Doc → Registry → Prop := IsRegistryBy readable IsDefaultOfAnySize

section
variable {α : Type} {way way' : Doc → α → Prop}

theorem WritesOr.mono {empty x : α} {names : List String} {ms : Members}
    (h : WritesOr empty way names ms x) (hway : ∀ d, way d x → way' d x) :
    WritesOr empty way' names ms x :=
  h.imp_right fun ⟨d, hvalues, hd⟩ => ⟨d, hvalues, hway d hd⟩

theorem IsArray.mono {d : Doc} {xs : List α} (h : IsArray way d xs)
    (hway : ∀ x ∈ xs, ∀ d, way d x → way' d x) : IsArray way' d xs := by
  obtain ⟨items, rfl, hitems⟩ := h
  refine ⟨items, rfl, ?_⟩
  induction hitems with
  | nil => exact .nil
  | cons hx _ ih =>
    obtain ⟨hfirst, hrest⟩ := List.forall_mem_cons.1 hway
    exact .cons (hfirst _ hx) (ih hrest)

end

/-- Integers of 64 bits are written as any document writes them. -/
theorem IsRegistryOfAnySize.isRegistry {d : Doc} {r : Registry} (h : IsRegistryOfAnySize d r)
    (hr : r.IntegersFit) : IsRegistry readable d r := by
  obtain ⟨ms, rfl, hkeys, h⟩ := h
  refine ⟨ms, rfl, hkeys, h.mono fun _ h => h.mono ?_⟩
  rintro op hop _ ⟨ms, rfl, hkeys, h⟩
  refine ⟨ms, rfl, hkeys, h.name, h.inputs, h.outputs, h.attrs.mono fun _ h => h.mono ?_, h.summary,
    h.description⟩
  rintro a ha _ ⟨ms, rfl, hkeys, h⟩
  refine ⟨ms, rfl, hkeys, h.name, h.kind, h.default.mono fun d hd => ?_⟩
  generalize hx : a.default = x at hd
  cases hd with
  | int hkeys h hi =>
    obtain ⟨v, hvalues, hv⟩ := hi
    exact .object hkeys (.int h ⟨v, hvalues, hv.isInt⟩ (hr op hop a ha _ hx))
  | other h => exact h

section
variable {room : Nat} {ms : Members}

theorem default_i_of_read {raw : DefaultRecord}
    (h : defaultRecord.read [] {} room (Doc.object ms).tree = .ok raw) :
    ∀ d ∈ values ["i"] ms, Reader.optional integer (room - 1) d.tree = .ok raw.i := by
  refine Record.read_get (f := { name := "i" }) DefaultRecord.i (by decide)
    (by simp [defaultRecord]) ?_ ?_ h
  · intro room a t a' h
    obtain ⟨x, hx, h⟩ := bind_ok_iff.1 h
    cases h
    exact hx
  · intro g hg hne room a t a' h
    simp only [defaultRecord, List.map, List.mem_cons, List.not_mem_nil, or_false] at hg
    rcases hg with rfl | rfl | rfl | rfl | rfl | rfl | rfl | rfl | rfl
    · exact absurd rfl hne
    all_goals
      obtain ⟨x, -, h⟩ := bind_ok_iff.1 h
      cases h
      rfl

theorem default_of_read {raw : AttrRecord}
    (h : attrRecord.read ["name", "type"] {} room (Doc.object ms).tree = .ok raw) :
    ∀ d ∈ values ["defaultValue", "default_value"] ms,
      Reader.optional (defaultRecord.read [] {}) (room - 1) d.tree = .ok raw.default := by
  refine Record.read_get (f := { name := "defaultValue", alias? := some "default_value" })
    AttrRecord.default (by decide) (by simp [attrRecord]) ?_ ?_ h
  · intro room a t a' h
    obtain ⟨x, hx, h⟩ := bind_ok_iff.1 h
    cases h
    exact hx
  · intro g hg hne room a t a' h
    simp only [attrRecord, List.mem_cons, List.not_mem_nil, or_false] at hg
    rcases hg with rfl | rfl | rfl
    all_goals first
      | exact absurd rfl hne
      | obtain ⟨x, -, h⟩ := bind_ok_iff.1 h
        cases h
        rfl

theorem attrs_of_read {raw : OpRecord}
    (h : opRecord.read ["name"] {} room (Doc.object ms).tree = .ok raw) :
    ∀ d ∈ values ["attr"] ms,
      Reader.array (attrRecord.read ["name", "type"] {}) (room - 1) d.tree = .ok raw.attrs := by
  refine Record.read_get (f := { name := "attr", mayEnd := true }) OpRecord.attrs
    (by decide) (by simp [opRecord]) ?_ ?_ h
  · intro room a t a' h
    obtain ⟨x, hx, h⟩ := bind_ok_iff.1 h
    cases h
    exact hx
  · intro g hg hne room a t a' h
    simp only [opRecord, List.mem_cons, List.not_mem_nil, or_false] at hg
    rcases hg with rfl | rfl | rfl | rfl | rfl | rfl
    all_goals first
      | exact absurd rfl hne
      | obtain ⟨x, -, h⟩ := bind_ok_iff.1 h
        cases h
        rfl

theorem ops_of_read {raws : List OpRecord}
    (h : opsRecord.read [] [] room (Doc.object ms).tree = .ok raws) :
    ∀ d ∈ values ["op"] ms, Reader.array (opRecord.read ["name"] {}) (room - 1) d.tree = .ok raws :=
  Record.read_get (f := { name := "op", mayEnd := true }) id (by decide)
    (by simp [opsRecord]) (fun _ _ _ _ h => h)
    (fun _ hg hne => absurd (congrArg FieldSpec.name (List.mem_singleton.1 hg)) hne) h

/-- A default that is read and means something has an integer of 64 bits, if any. -/
theorem fits64_of_default {d : Doc} {i : Int} (hd : IsDefaultOfAnySize d (some (.int i)))
    {raw : Option DefaultRecord}
    (h : Reader.optional (defaultRecord.read [] {}) room d.tree = .ok raw) (attr : String)
    (hvalue : ∀ rec ∈ raw, ∃ x, rec.value attr = .ok x) : Number.fits64 i = true := by
  cases hd with
  | @int ms _ _ _ hi =>
    obtain ⟨v, hvalues, hv⟩ := hi
    obtain ⟨rec, rfl, hrec⟩ := of_optional (by simp) h
    have hnull : v ≠ .null := by rcases hv with rfl | rfl <;> simp
    have hread := default_i_of_read hrec v (hvalues ▸ List.mem_singleton_self v)
    obtain ⟨y, hy, hinteger⟩ := of_optional hnull hread
    obtain ⟨x, hx⟩ := hvalue rec rfl
    rw [DefaultRecord.value, hy] at hx
    cases hint : intValue attr y with
    | error e =>
      simp only [hint] at hx
      cases hx
    | ok z => exact fits64_of_integer hv hinteger hint
  | other h =>
    cases h with
    | object _ h =>
      cases h with
      | int _ _ hfits => exact hfits

theorem fits64_of_attr {d : Doc} {a : AttrDef}
    (hd : IsObject readable (WritesAttr IsDefaultOfAnySize) d a) {raw : AttrRecord}
    (h : attrRecord.read ["name", "type"] {} room d.tree = .ok raw) {b : AttrDef}
    (hb : raw.attrDef = .ok b) {i : Int} (hi : a.default = some (.int i)) :
    Number.fits64 i = true := by
  obtain ⟨ms, rfl, -, hms⟩ := hd
  rcases hms.default with ⟨-, hnone⟩ | ⟨v, hvalues, hv⟩
  · rw [hi] at hnone
    cases hnone
  · rw [hi] at hv
    have hread := default_of_read h v (hvalues ▸ List.mem_singleton_self v)
    refine fits64_of_default hv hread raw.name fun rec hrec => ?_
    rw [AttrRecord.attrDef, Option.mem_def.1 hrec] at hb
    obtain ⟨x, hx, -⟩ := bind_ok_iff.1 hb
    exact ⟨x, hx⟩

theorem attrDef_of_opDef {raw : OpRecord} {op : OpDef} (h : raw.opDef = .ok op) :
    ∀ a ∈ raw.attrs, ∃ b, a.attrDef = .ok b := by
  unfold OpRecord.opDef at h
  obtain ⟨_, -, h⟩ := bind_ok_iff.1 h
  obtain ⟨_, -, h⟩ := bind_ok_iff.1 h
  obtain ⟨attrs, hattrs, -⟩ := bind_ok_iff.1 h
  exact exists_mapM_iff.1 ⟨attrs, hattrs⟩

theorem fits64_of_op {d : Doc} {op : OpDef}
    (hd : IsObject readable (WritesOp readable IsDefaultOfAnySize) d op)
    {raw : OpRecord} (h : opRecord.read ["name"] {} room d.tree = .ok raw) {op' : OpDef}
    (hop : raw.opDef = .ok op') : ∀ a ∈ op.attrs, ∀ i, a.default = some (.int i) →
      Number.fits64 i = true := by
  intro a ha i hi
  obtain ⟨ms, rfl, -, hms⟩ := hd
  rcases hms.attrs with ⟨-, hnone⟩ | ⟨_, hvalues, items, rfl, hitems⟩
  · rw [hnone] at ha
    cases ha
  · have hread := attrs_of_read h _ (hvalues ▸ List.mem_singleton_self _)
    obtain ⟨e, he, x, hx, hattr⟩ := exists_of_array hitems hread ha
    obtain ⟨b, hb⟩ := attrDef_of_opDef hop x hx
    exact fits64_of_attr he hattr hb hi

theorem integersFit_of_read {d : Doc} {r : Registry} (hd : IsRegistryOfAnySize d r)
    {raws : List OpRecord} (h : opsRecord.read [] [] room d.tree = .ok raws) {r' : Registry}
    (hr' : raws.mapM OpRecord.opDef = .ok r') : r.IntegersFit := by
  intro op hop
  obtain ⟨ms, rfl, -, hms⟩ := hd
  rcases hms with ⟨-, hnone⟩ | ⟨_, hvalues, items, rfl, hitems⟩
  · rw [hnone] at hop
    cases hop
  · have hread := ops_of_read h _ (hvalues ▸ List.mem_singleton_self _)
    obtain ⟨e, he, raw, hraw, hop'⟩ := exists_of_array hitems hread hop
    obtain ⟨op', hdef⟩ := exists_mapM_iff.1 ⟨r', hr'⟩ raw hraw
    exact fits64_of_op he hop' hdef

end

/-- A document that writes a registry is read as it if its integers have 64 bits, and only then. -/
theorem registry_eq_ok_iff {d : Doc} {r : Registry} (hd : IsRegistryOfAnySize d r)
    (hdepth : d.depth ≤ depthLimit) {text : String} (ht : Spelled d.tokens text.toList)
    (r' : Registry) : registry text = .ok r' ↔ r.IntegersFit ∧ r' = r := by
  have hparse : registry text =
      (opsRecord.read [] [] depthLimit d.tree).mapError .fault >>= (·.mapM OpRecord.opDef) := by
    rw [registry, parse_spelled ht]
  have hfit (h : r.IntegersFit) : registry text = .ok r := by
    obtain ⟨raws, hread, hmeans⟩ := read_isRegistry hdepth (hd.isRegistry h)
    rw [hparse, hread]
    exact hmeans
  constructor
  · intro h
    obtain ⟨raws, hraws, hmeans⟩ := bind_ok_iff.1 (hparse.symm.trans h)
    have hints := integersFit_of_read hd (mapError_ok hraws) hmeans
    have hsame := hfit hints
    rw [h] at hsame
    exact ⟨hints, Except.ok.inj hsame⟩
  · rintro ⟨h, rfl⟩
    exact hfit h

end Json

/-- In both formats a registry is read as it is written if its integers have 64 bits, and it is not
read at all if one of them has more. -/
theorem registries_of_integers {r s : Registry}
    (hr : ∀ op ∈ r, { op with attrs := [] }.IsWritable) {fields : TextFormat.FieldsTree}
    (hfields : TextFormat.WritesRegistry fields.fields r) {text : String}
    (htext : TextFormat.Spelled .start fields.tokens text.toList) {d : Json.Doc}
    (hd : Json.IsRegistryOfAnySize d s) (hdepth : d.depth ≤ Json.depthLimit) {json : String}
    (hjson : Json.Spelled d.tokens json.toList) :
    (∀ r', TextFormat.registry text = .ok r' ↔ r.IntegersFit ∧ r' = r) ∧
    (∀ s', Json.registry json = .ok s' ↔ s.IntegersFit ∧ s' = s) :=
  ⟨TextFormat.registry_eq_ok_iff hr hfields htext, Json.registry_eq_ok_iff hd hdepth hjson⟩

/-- A registry with one integer. -/
def intRegistry (i : Int) : Registry := Json.defaultRegistry "A" "x" "int" (.int i)

/-- A text of such a registry. -/
def intText (i : Int) : List Char :=
  TextFormat.messageText "op" (TextFormat.scalarText "name" (TextFormat.quoted "A")
    (TextFormat.messageText "attr" (TextFormat.scalarText "name" (TextFormat.quoted "x")
      (TextFormat.scalarText "type" (TextFormat.quoted "int")
        (TextFormat.messageText "default_value"
          (TextFormat.scalarText "i" (toString i).toList []) []))) [])) []

/-- A document of such a registry, which has the integer as `v`. -/
def intDoc (v : Json.Doc) : Json.Doc := Json.defaultDoc "A" "x" "int" [("i", v)]

def intJson (v : Json.Doc) : String := String.ofList ((intDoc v).print Json.Numeral.text)

theorem integersFit_intRegistry {i : Int} :
    (intRegistry i).IntegersFit ↔ Number.fits64 i = true := by
  simp [Registry.IntegersFit, intRegistry, Json.defaultRegistry]

theorem Json.Numeral.text_ofInt (i : Int) : (Numeral.ofInt i).text = (toString i).toList := by
  rw [Number.toList_toString]
  exact congrArg (_ ++ ·) (List.append_nil _)

theorem TextFormat.exists_fields_intText {i : Int} (h : (Json.Numeral.ofInt i).IsWritten) :
    ∃ d : FieldsTree, WritesRegistry d.fields (intRegistry i) ∧
      Spelled .start d.tokens (intText i) := by
  have hnumber := spellsScalar_number h.spelledBy
  rw [Json.Numeral.text_ofInt, String.ofList_toList] at hnumber
  have hdefault := (hnumber.field "i" rfl spellsFields_nil).field "default_value" rfl spellsFields_nil
  have hattr := (spellsScalar_quoted "x").field "name" rfl
    ((spellsScalar_quoted "int").field "type" rfl hdefault)
  have hop := (spellsScalar_quoted "A").field "name" rfl (hattr.field "attr" rfl spellsFields_nil)
  obtain ⟨d, hd, hspelled⟩ := hop.field "op" rfl spellsFields_nil .start [] [] (.nil .nil)
  rw [List.append_nil, List.append_nil] at hspelled
  refine ⟨d, ?_, hspelled⟩
  obtain ⟨_, _, _, hfields, ⟨_, _, rfl, _, _, _, rfl, ⟨_, _, rfl, _, _, rfl, _, _, _, rfl,
    ⟨_, _, rfl, rfl⟩, rfl⟩, rfl⟩, rfl⟩ := hd
  rw [hfields]
  refine .cons ⟨_, rfl, .cons rfl .nil, .nil, .nil, .cons ⟨_, rfl, ?_⟩ .nil, .nil, .nil⟩ .nil
  exact ⟨.cons rfl .nil, .cons rfl .nil, .cons ⟨_, rfl, .int i _⟩ .nil⟩

theorem Json.isRegistryOfAnySize_intDoc {v : Doc} {i : Int} (h : IsDecimal v i) :
    IsRegistryOfAnySize (intDoc v) (intRegistry i) := by
  have hkeys (ms : Members) (hms : ∀ m ∈ ms, m.1.isSome) : ∀ m ∈ ms, readable.string m.1 :=
    fun m hm => Option.isSome_iff_ne_none.1 (hms m hm)
  refine ⟨_, rfl, hkeys _ (by simp), .inr ⟨_, rfl, _, rfl, .cons ⟨_, rfl, hkeys _ (by simp), ?_⟩
    .nil⟩⟩
  refine ⟨⟨_, rfl, rfl⟩, .inl ⟨rfl, rfl⟩, .inl ⟨rfl, rfl⟩, .inr ⟨_, rfl, _, rfl,
    .cons ⟨_, rfl, hkeys _ (by simp), ?_⟩ .nil⟩, .inl ⟨rfl, rfl⟩, .inl ⟨rfl, rfl⟩⟩
  exact ⟨⟨_, rfl, rfl⟩, ⟨_, rfl, rfl⟩,
    .inr ⟨_, rfl, .int (hkeys _ (by simp)) (givesOnly_one (by decide) _) ⟨v, rfl, h⟩⟩⟩

theorem Json.spelled_intDoc {v : Doc} (hv : ∀ n ∈ v.numerals, n.IsWritten) :
    Spelled (intDoc v).tokens (intJson v).toList := by
  rw [intJson, String.toList_ofList]
  refine spelled_doc _ fun n hn => (hv n ?_).spelledBy
  simpa [intDoc, defaultDoc, defaultAttr, Doc.numerals, Doc.numeralsOfItems,
    Doc.numeralsOfMembers] using hn

/-- The least integer of 64 bits is read, and the one past the greatest is not, in the text format, as
a number and as a string. -/
theorem registries_of_integers_ends :
    TextFormat.registry (String.ofList (intText (-0x8000000000000000))) =
      .ok (intRegistry (-0x8000000000000000)) ∧
    Json.registry (intJson (.number (.ofInt (-0x8000000000000000)))) =
      .ok (intRegistry (-0x8000000000000000)) ∧
    Json.registry (intJson (.string (toString (-0x8000000000000000 : Int)))) =
      .ok (intRegistry (-0x8000000000000000)) ∧
    (∀ r, TextFormat.registry (String.ofList (intText 0x8000000000000000)) ≠ .ok r) ∧
    (∀ r, Json.registry (intJson (.number (.ofInt 0x8000000000000000))) ≠ .ok r) ∧
    (∀ r, Json.registry (intJson (.string (toString (0x8000000000000000 : Int)))) ≠ .ok r) := by
  have hread (i : Int) (hi : (Json.Numeral.ofInt i).IsWritten) {v : Json.Doc}
      (hv : Json.IsDecimal v i) :
      (∀ r, TextFormat.registry (String.ofList (intText i)) = .ok r ↔
        Number.fits64 i = true ∧ r = intRegistry i) ∧
      (∀ r, Json.registry (intJson v) = .ok r ↔ Number.fits64 i = true ∧ r = intRegistry i) := by
    have hop : ({ name := "A" } : OpDef).IsWritable :=
      ⟨by decide, by decide, by decide, by decide, nofun⟩
    have hdepth : (intDoc v).depth ≤ Json.depthLimit := by
      have hsix : (intDoc v).depth = 6 := by rcases hv with rfl | rfl <;> rfl
      rw [hsix]
      decide
    have hnumerals : ∀ n ∈ v.numerals, n.IsWritten := by
      rcases hv with rfl | rfl
      · exact List.forall_mem_singleton.2 hi
      · exact nofun
    obtain ⟨fields, hfields, hspelled⟩ := TextFormat.exists_fields_intText hi
    rw [← String.toList_ofList (l := intText i)] at hspelled
    simp only [← integersFit_intRegistry]
    exact registries_of_integers (List.forall_mem_singleton.2 hop) hfields hspelled
      (Json.isRegistryOfAnySize_intDoc hv) hdepth (Json.spelled_intDoc hnumerals)
  have hleast : (Json.Numeral.ofInt (-0x8000000000000000)).IsWritten := by decide +kernel
  have hpast : (Json.Numeral.ofInt 0x8000000000000000).IsWritten := by decide +kernel
  obtain ⟨htext, hnumber⟩ := hread _ hleast (.inl rfl)
  obtain ⟨-, hstring⟩ := hread _ hleast (.inr rfl)
  obtain ⟨htextPast, hnumberPast⟩ := hread _ hpast (.inl rfl)
  obtain ⟨-, hstringPast⟩ := hread _ hpast (.inr rfl)
  have hfits : Number.fits64 (-0x8000000000000000) = true := by decide
  have hlarge : ¬ Number.fits64 0x8000000000000000 = true := by decide
  refine ⟨(htext _).2 ⟨hfits, rfl⟩, (hnumber _).2 ⟨hfits, rfl⟩, (hstring _).2 ⟨hfits, rfl⟩,
    fun r h => hlarge ((htextPast r).1 h).1, fun r h => hlarge ((hnumberPast r).1 h).1,
    fun r h => hlarge ((hstringPast r).1 h).1⟩

end OpStubs
