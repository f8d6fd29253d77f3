import Mathlib.Data.List.Nodup
import Mathlib.Data.List.Pairwise
import OpStubs.Proofs.Json.Document
import OpStubs.Proofs.Traversal

namespace OpStubs.Json

/-- The values of the members of some names. -/
def values (names : List String) (ms : Members) : List Doc :=
  (ms.filter fun m => m.1.any names.contains).map Prod.snd

section
variable {names : List String} {key : String} {d : Doc} {ms : Members}

theorem values_cons_of_mem (h : key ∈ names) :
    values names ((some key, d) :: ms) = d :: values names ms := by
  rw [values, List.filter_cons_of_pos (by simpa using h)]
  rfl

theorem values_cons_of_notMem (h : key ∉ names) :
    values names ((some key, d) :: ms) = values names ms := by
  rw [values, List.filter_cons_of_neg (by simpa using h)]
  rfl

theorem values_sublist (m : Option String × Doc) :
    (values names ms).Sublist (values names (m :: ms)) :=
  ((List.sublist_cons_self m ms).filter _).map _

theorem mem_values : d ∈ values names ms ↔ ∃ key ∈ names, (some key, d) ∈ ms := by
  simp only [values, List.mem_map, List.mem_filter, Option.any_eq_true, List.contains_iff_mem]
  constructor
  · rintro ⟨⟨_, _⟩, ⟨hmem, key, rfl, hkey⟩, rfl⟩
    exact ⟨key, hkey, hmem⟩
  · rintro ⟨key, hkey, hmem⟩
    exact ⟨(some key, d), ⟨hmem, key, rfl, hkey⟩, rfl⟩

theorem depth_le_of_mem_values {room : Nat} (hroom : (Doc.object ms).depth ≤ room)
    (h : d ∈ values names ms) : d.depth ≤ room - 1 := by
  obtain ⟨key, _, hmem⟩ := mem_values.1 h
  have hle := Doc.depth_le_of_mem_members hmem
  rw [Doc.depth] at hroom
  omega

end

/-- The names that a field answers to. -/
def FieldSpec.names (f : FieldSpec) : List String := f.name :: f.alias?.toList

theorem FieldSpec.accepts_iff (f : FieldSpec) (key : String) :
    f.accepts key = true ↔ key ∈ f.names := by
  obtain ⟨name, alias?, mayEnd⟩ := f
  have hname : name = key ↔ key = name := eq_comm
  cases alias? with
  | none => simp [accepts, names, hname]
  | some other =>
    have hother : other = key ↔ key = other := eq_comm
    simp [accepts, names, hname, hother]

section
variable {α β : Type}

namespace Record

variable {rec : Record α} {ms : Members} {room : Nat} {upTo : List String → α}

/-- Whether no name stands for two fields. -/
def IsUnambiguous (rec : Record α) : Prop := (rec.fields.flatMap FieldSpec.names).Nodup

instance : Decidable rec.IsUnambiguous := inferInstanceAs (Decidable (List.Nodup _))

theorem IsUnambiguous.eq_of_mem (h : rec.IsUnambiguous) {f g : FieldSpec} (hf : f ∈ rec.fields)
    (hg : g ∈ rec.fields) {key : String} (hkf : key ∈ f.names) (hkg : key ∈ g.names) : f = g := by
  by_contra hne
  have hpair := (List.nodup_flatMap.1 h).2
  have hsymm : Std.Symm (Function.onFun List.Disjoint FieldSpec.names) :=
    ⟨fun _ _ h _ ha hb => h hb ha⟩
  exact hpair.forall hf hg hne hkf hkg

/-- Whether each field stands at most once among members, and a record with some of them taken over
is `upTo` of their names. -/
def Takes (rec : Record α) (room : Nat) (ms : Members) (upTo : List String → α) :
    Prop :=
  ∀ f ∈ rec.fields, (values f.names ms).length ≤ 1 ∧ ∀ d ∈ values f.names ms, ∀ seen,
    rec.take (upTo seen) f.name room d.tree = .ok (upTo (f.name :: seen))

theorem Takes.tail {m : Option String × Doc} (h : rec.Takes room (m :: ms) upTo) :
    rec.Takes room ms upTo := by
  intro f hf
  obtain ⟨honce, htake⟩ := h f hf
  have hsub : (values f.names ms).Sublist (values f.names (m :: ms)) := values_sublist m
  exact ⟨Nat.le_trans hsub.length_le honce, fun e he => htake e (hsub.subset he)⟩

/-- Fields that were not seen before are taken over in turn, whatever stands between them. -/
theorem Takes.readMembers (hrec : rec.IsUnambiguous) (hkeys : ∀ m ∈ ms, m.1 ≠ none)
    (h : rec.Takes room ms upTo) (seen : List String)
    (hseen : ∀ f ∈ rec.fields, f.name ∈ seen → values f.names ms = []) :
    ∃ seen', rec.readMembers room (Doc.memberTrees ms) seen (upTo seen) = .ok (upTo seen', seen') ∧
      ∀ f ∈ rec.fields, f.name ∈ seen' ↔ f.name ∈ seen ∨ values f.names ms ≠ [] := by
  induction ms generalizing seen with
  | nil => exact ⟨seen, rfl, by simp [values]⟩
  | cons m ms ih =>
    obtain ⟨hwhole, hwholes⟩ := List.forall_mem_cons.1 hkeys
    obtain ⟨key, d⟩ := m
    obtain ⟨key, rfl⟩ := Option.ne_none_iff_exists'.1 hwhole
    rw [Doc.memberTrees, Record.readMembers]
    simp only [bind, Except.bind, Doc.content, String.ofList_toList]
    split
    case h_1 hfind =>
      have hvalues : ∀ f ∈ rec.fields, values f.names ((some key, d) :: ms) = values f.names ms := by
        intro f hf
        refine values_cons_of_notMem ?_
        rw [← f.accepts_iff]
        exact List.find?_eq_none.1 hfind f hf
      obtain ⟨seen', hread, hseen'⟩ := ih hwholes h.tail seen (by
        intro f hf hfs
        rw [← hvalues f hf]
        exact hseen f hf hfs)
      refine ⟨seen', ?_, ?_⟩
      · rw [passOver_tree]
        exact hread
      · intro f hf
        rw [hvalues f hf]
        exact hseen' f hf
    case h_2 f hfind =>
      have hf := List.mem_of_find?_eq_some hfind
      have haccepts : f.accepts key = true := by simpa using List.find?_some hfind
      have hkey := (f.accepts_iff key).1 haccepts
      have hvalues : values f.names ((some key, d) :: ms) = d :: values f.names ms :=
        values_cons_of_mem hkey
      have hrest : values f.names ms = [] := by
        have honce := (h f hf).1
        rw [hvalues, List.length_cons] at honce
        exact List.length_eq_zero_iff.1 (by omega)
      have hnew : f.name ∉ seen := by
        intro hmem
        have hnil := hseen f hf hmem
        rw [hvalues] at hnil
        cases hnil
      have htake := (h f hf).2 d (by simp [hvalues]) seen
      -- A field of another name has its values behind this member.
      have hother : ∀ g ∈ rec.fields, g ≠ f → g.name ≠ f.name ∧
          values g.names ((some key, d) :: ms) = values g.names ms := by
        intro g hg hne
        constructor
        · intro hname
          have hmem : g.name ∈ g.names := List.mem_cons_self
          have hmem' : g.name ∈ f.names := hname ▸ List.mem_cons_self
          exact hne (hrec.eq_of_mem hg hf hmem hmem')
        · exact values_cons_of_notMem fun hkg => hne (hrec.eq_of_mem hg hf hkg hkey)
      obtain ⟨seen', hread, hseen'⟩ := ih hwholes h.tail (f.name :: seen) (by
        intro g hg hgs
        by_cases hne : g = f
        · rw [hne, hrest]
        · obtain ⟨hname, hv⟩ := hother g hg hne
          rw [← hv]
          exact hseen g hg (by simpa [hname] using hgs))
      refine ⟨seen', ?_, ?_⟩
      · rw [if_neg (by simpa using hnew)]
        simp only [htake]
        exact hread
      · intro g hg
        rw [hseen' g hg]
        by_cases hne : g = f
        · subst hne
          simp [hvalues]
        · obtain ⟨hname, hv⟩ := hother g hg hne
          simp [hname, hv]

/-- An object is read as the record of the fields that stand in it. -/
theorem read_object (hrec : rec.IsUnambiguous) (hkeys : ∀ m ∈ ms, m.1 ≠ none)
    (required : List String) (hroom : (Doc.object ms).depth ≤ room) (h : rec.Takes (room - 1) ms upTo)
    (hrequired : ∀ name ∈ required, ∃ f ∈ rec.fields, f.name = name ∧ values f.names ms ≠ []) :
    ∃ seen, rec.read required (upTo []) room (Doc.object ms).tree = .ok (upTo seen) ∧
      ∀ f ∈ rec.fields, f.name ∉ seen → values f.names ms = [] := by
  obtain ⟨seen, hread, hseen⟩ := h.readMembers hrec hkeys [] (by simp)
  have hall : required.all seen.contains = true := by
    rw [List.all_eq_true]
    intro name hname
    obtain ⟨f, hf, rfl, hvalues⟩ := hrequired name hname
    rw [List.contains_iff_mem]
    exact (hseen f hf).2 (.inr hvalues)
  have hne : room ≠ 0 := by
    rw [Doc.depth] at hroom
    omega
  refine ⟨seen, ?_, ?_⟩
  · rw [Doc.tree, read, if_neg hne, hread]
    simp only [bind, Except.bind, checkRead, hall, if_true]
    rfl
  · intro f hf hnot
    by_contra hvalues
    exact hnot ((hseen f hf).2 (.inr hvalues))

end Record

namespace Record

variable {rec : Record α}

theorem read_tree (required : List String) (empty : α) (room : Nat) (ms : Members) :
    rec.read required empty (room + 1) (Doc.object ms).tree =
      (rec.readMembers room (Doc.memberTrees ms) [] empty).bind fun (a, seen) =>
        if required.all seen.contains then .ok a else .error .misfit := by
  rw [Doc.tree, Record.read, if_neg room.succ_ne_zero]
  rfl

/-- A field that was not seen before is taken over, or its fault ends the reading. -/
theorem readMembers_cons {key : String} {f : FieldSpec}
    (hf : rec.fields.find? (fun f => f.accepts key) = some f) {seen : List String}
    (hseen : f.name ∉ seen) {r : Reader β} {a : α} {g : β → α} {room : Nat}
    (htake : ∀ t, rec.take a f.name room t = do return g (← r room t)) {d : Doc}
    {e : Except Fault β} (hread : r room d.tree = e) (ms : Members) :
    rec.readMembers room (Doc.memberTrees ((some key, d) :: ms)) seen a =
      e.bind fun x => rec.readMembers room (Doc.memberTrees ms) (f.name :: seen) (g x) := by
  rw [Doc.memberTrees, Record.readMembers]
  simp only [bind, Except.bind, Doc.content, String.ofList_toList, hf]
  rw [if_neg (by simpa using hseen), htake, hread]
  cases e <;> rfl

end Record

/-- Whether a field is read as `x`, which stands for it where it is left out. -/
structure FieldReads (r : Reader β) (room : Nat) (names : List String) (ms : Members)
    (empty x : β) : Prop where
  once : (values names ms).length ≤ 1
  absent : values names ms = [] → x = empty
  read : ∀ d ∈ values names ms, r room d.tree = .ok x

/-- What is left of a field: its value once its name was seen. -/
theorem FieldReads.seen {r : Reader β} {room : Nat} {names : List String}
    {ms : Members} {empty x : β} (h : FieldReads r room names ms empty x)
    {name : String} {seen : List String} (hseen : name ∉ seen → values names ms = []) :
    (if name ∈ seen then x else empty) = x := by
  split
  · rfl
  · rename_i hnot
    exact (h.absent (hseen hnot)).symm

/-- A field that is read is taken over as such. -/
theorem FieldReads.taken {rec : Record α} {r : Reader β} {room : Nat} {f : FieldSpec}
    {ms : Members} {empty x : β} (h : FieldReads r room f.names ms empty x)
    (set : α → β → α) (htake : ∀ a t, rec.take a f.name room t = do return set a (← r room t))
    {upTo : List String → α} (hset : ∀ seen, set (upTo seen) x = upTo (f.name :: seen)) :
    (values f.names ms).length ≤ 1 ∧ ∀ d ∈ values f.names ms, ∀ seen,
      rec.take (upTo seen) f.name room d.tree = .ok (upTo (f.name :: seen)) := by
  refine ⟨h.once, ?_⟩
  intro d hd seen
  rw [htake, h.read d hd, ← hset]
  rfl

/-- Whether a value stands in a field, once, and is written some way. -/
def Writes (way : Doc → α → Prop) (names : List String) (ms : Members) (x : α) :
    Prop :=
  ∃ d, values names ms = [d] ∧ way d x

/-- The same of a field that may be left out where its value is `empty`. -/
def WritesOr (empty : α) (way : Doc → α → Prop) (names : List String)
    (ms : Members) (x : α) : Prop :=
  (values names ms = [] ∧ x = empty) ∨ Writes way names ms x

section
variable {r : Reader β} {way : Doc → α → Prop} {means : β → α → Prop} {names : List String}
  {ms : Members} {room : Nat} {x : α}

theorem Writes.reads (h : Writes way names ms x) (hroom : (Doc.object ms).depth ≤ room)
    (hread : ∀ d, d.depth ≤ room - 1 → way d x → ∃ y, r (room - 1) d.tree = .ok y ∧ means y x)
    (empty : β) : ∃ y, FieldReads r (room - 1) names ms empty y ∧ means y x := by
  obtain ⟨d, hvalues, hway⟩ := h
  have hdepth : d.depth ≤ room - 1 :=
    depth_le_of_mem_values hroom (hvalues ▸ List.mem_singleton_self d)
  obtain ⟨y, hy, hmeans⟩ := hread d hdepth hway
  refine ⟨y, ⟨?_, ?_, ?_⟩, hmeans⟩
  · simp [hvalues]
  · simp [hvalues]
  · simp [hvalues, hy]

theorem WritesOr.reads {emptyX : α} (h : WritesOr emptyX way names ms x)
    (hroom : (Doc.object ms).depth ≤ room)
    (hread : ∀ d, d.depth ≤ room - 1 → way d x → ∃ y, r (room - 1) d.tree = .ok y ∧ means y x)
    (empty : β) (hempty : means empty emptyX) :
    ∃ y, FieldReads r (room - 1) names ms empty y ∧ means y x := by
  rcases h with ⟨hvalues, rfl⟩ | h
  · refine ⟨empty, ⟨?_, fun _ => rfl, ?_⟩, hempty⟩
    · simp [hvalues]
    · simp [hvalues]
  · exact h.reads hroom hread empty

end

/-- Whether a value is an array whose items write some values in their order. -/
def IsArray (way : Doc → α → Prop) (d : Doc) (xs : List α) : Prop :=
  ∃ items, d = .array items ∧ List.Forall₂ way items xs

/-- Items that are read as what stands for some values make up an array that is read so. -/
theorem read_array {r : Reader β} {way : Doc → α → Prop} {means : β → α → Prop} {d : Doc}
    {xs : List α} {room : Nat} (h : IsArray way d xs) (hroom : d.depth ≤ room)
    (hread : ∀ d x, d.depth ≤ room - 1 → way d x → ∃ y, r (room - 1) d.tree = .ok y ∧ means y x) :
    ∃ ys, Reader.array r room d.tree = .ok ys ∧ List.Forall₂ means ys xs := by
  obtain ⟨items, rfl, hitems⟩ := h
  have hne : room ≠ 0 := by
    rw [Doc.depth] at hroom
    omega
  have hdepth : ∀ d ∈ items, d.depth ≤ room - 1 := by
    intro d hd
    have hle := Doc.depth_le_of_mem_items hd
    rw [Doc.depth] at hroom
    omega
  have hall : ∃ ys, (Doc.trees items).mapM (r (room - 1)) = .ok ys ∧
      List.Forall₂ means ys xs := by
    clear hroom
    induction hitems with
    | nil => exact ⟨[], rfl, .nil⟩
    | cons hx _ ih =>
      obtain ⟨y, hy, hmeans⟩ := hread _ _ (hdepth _ (by simp)) hx
      obtain ⟨ys, hys, hrest⟩ := ih fun d hd => hdepth d (by simp [hd])
      refine ⟨y :: ys, ?_, .cons hmeans hrest⟩
      rw [Doc.trees, List.mapM_cons, hy, hys]
      rfl
  obtain ⟨ys, hys, hmeans⟩ := hall
  refine ⟨ys, ?_, hmeans⟩
  rw [Doc.tree, Reader.array, if_neg hne, hys]
  rfl

theorem optional_tree (r : Reader β) (room : Nat) {d : Doc} (h : d ≠ .null) :
    Reader.optional r room d.tree = (r room d.tree).map some := by
  cases d with
  | null => exact absurd rfl h
  | bool b => rw [Doc.tree, Reader.optional]; simp
  | number n => rw [Doc.tree, Reader.optional]; simp
  | string s => rw [Doc.tree, Reader.optional]; simp
  | array items => rw [Doc.tree, Reader.optional]; simp
  | object ms => rw [Doc.tree, Reader.optional]; simp

theorem optional_null (r : Reader β) (room : Nat) :
    Reader.optional r room Doc.null.tree = .ok none := by
  rw [Doc.tree, Reader.optional]

theorem string_tree (room : Nat) (s : String) : Reader.string room (Doc.string s).tree = .ok s := by
  rw [Doc.tree, Reader.string, Doc.content]
  exact congrArg Except.ok String.ofList_toList

end

end OpStubs.Json
