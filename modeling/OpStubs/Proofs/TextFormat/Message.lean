import OpStubs.Proofs.Traversal
import OpStubs.Registry.Text

namespace OpStubs.TextFormat

/-- Whether the fields of a name are read as some values. -/
def Reads {α : Type} (read : Field → Except ReadError α) (name : String) (fs : List Field)
    (xs : List α) : Prop :=
  List.Forall₂ (fun f x => read f = .ok x) (fs.filter (·.name == name)) xs

section
variable {α : Type} {read : Field → Except ReadError α} {name : String} {x : Field}
  {fs : List Field} {ys zs : List α}

theorem reads_nil : Reads read name [] ys ↔ ys = [] := List.forall₂_nil_left_iff

theorem reads_cons :
    Reads read name (x :: fs) ys ↔
      if x.name = name then ∃ y ys', read x = .ok y ∧ Reads read name fs ys' ∧ ys = y :: ys'
      else Reads read name fs ys := by
  by_cases h : x.name = name
  · rw [if_pos h, Reads, List.filter_cons_of_pos (by simp [h]), List.forall₂_cons_left_iff]
    rfl
  · rw [if_neg h, Reads, List.filter_cons_of_neg (by simp [h])]
    rfl

theorem mapM_of_reads (h : Reads read name fs ys) :
    (fs.filter (·.name == name)).mapM read = .ok ys := mapM_ok_iff.2 h

theorem Reads.unique (h : Reads read name fs ys) (h' : Reads read name fs zs) : ys = zs :=
  Except.ok.inj ((mapM_of_reads h).symm.trans (mapM_of_reads h'))

theorem Reads.exists_read (h : Reads read name fs ys) (hx : x ∈ fs) (hname : x.name = name) :
    ∃ y, read x = .ok y := by
  have hmem : x ∈ fs.filter (·.name == name) := List.mem_filter.2 ⟨hx, by simp [hname]⟩
  obtain ⟨y, -, hy⟩ := exists_of_forall₂ h.flip hmem
  exact ⟨y, hy⟩

theorem Reads.exists_tail (h : Reads read name (x :: fs) ys) : ∃ zs, Reads read name fs zs := by
  rw [reads_cons] at h
  split at h
  · obtain ⟨_, zs, -, hzs, -⟩ := h
    exact ⟨zs, hzs⟩
  · exact ⟨ys, h⟩

end

/-- A part of a message: the name of its fields, how they are read, and how each of them changes what
is kept of the part. -/
structure Part (α : Type) : Type 1 where
  name : String
  {Given Kept : Type}
  read : Field → Except ReadError Given
  set : α → Given → α
  get : α → Kept
  put : Kept → Given → Kept
  get_set : ∀ a y, get (set a y) = put (get a) y := by intros; rfl

/-- Whether a step takes over the fields of some parts, which make up the message, and passes over
those of other names. -/
structure TakesOver {α : Type} (step : α → Field → Except ReadError α) (parts : List (Part α)) :
    Prop where
  own : ∀ p ∈ parts, ∀ a x, x.name = p.name → step a x = (p.read x).map (p.set a)
  apart : ∀ p ∈ parts, ∀ q ∈ parts, p.name ≠ q.name → ∀ a y, q.get (p.set a y) = q.get a
  unknown : ∀ a x, (∀ p ∈ parts, x.name ≠ p.name) → step a x = .ok a
  ext : ∀ a b, (∀ p ∈ parts, p.get a = p.get b) → a = b

namespace TakesOver

variable {α : Type} {step : α → Field → Except ReadError α} {parts : List (Part α)}
  {p : Part α} {x : Field} {fs : List Field} {a b : α}

/-- A field of another name leaves a part as it is. -/
theorem get_of_step (h : TakesOver step parts) (hp : p ∈ parts) (hstep : step a x = .ok b)
    (hname : x.name ≠ p.name) : p.get b = p.get a := by
  by_cases hknown : ∃ q ∈ parts, x.name = q.name
  · obtain ⟨q, hq, hx⟩ := hknown
    rw [h.own q hq a x hx] at hstep
    obtain ⟨y, -, rfl⟩ := map_ok_iff.1 hstep
    exact h.apart q hq p hp (hx ▸ hname) a y
  · rw [h.unknown a x fun q hq hx => hknown ⟨q, hq, hx⟩] at hstep
    rw [Except.ok.inj hstep]

/-- What is kept of a part is what its fields make of it in turn. -/
theorem reads (h : TakesOver step parts) (hp : p ∈ parts) (hfold : fs.foldlM step a = .ok b) :
    ∃ ys, Reads p.read p.name fs ys ∧ p.get b = ys.foldl p.put (p.get a) := by
  induction fs generalizing a with
  | nil =>
    cases hfold
    exact ⟨[], reads_nil.2 rfl, rfl⟩
  | cons x fs ih =>
    rw [List.foldlM_cons] at hfold
    obtain ⟨c, hstep, hrest⟩ := bind_ok_iff.1 hfold
    obtain ⟨ys, hys, hb⟩ := ih hrest
    by_cases hname : x.name = p.name
    · rw [h.own p hp a x hname] at hstep
      obtain ⟨y, hy, rfl⟩ := map_ok_iff.1 hstep
      refine ⟨y :: ys, ?_, ?_⟩
      · rw [reads_cons, if_pos hname]
        exact ⟨y, ys, hy, hys, rfl⟩
      · rw [hb, p.get_set]
        rfl
    · refine ⟨ys, ?_, ?_⟩
      · rw [reads_cons, if_neg hname]
        exact hys
      · rw [hb, h.get_of_step hp hstep hname]

/-- Fields that can be read are taken over. -/
theorem exists_foldlM (h : TakesOver step parts)
    (hreads : ∀ p ∈ parts, ∃ ys, Reads p.read p.name fs ys) (a : α) :
    ∃ b, fs.foldlM step a = .ok b := by
  induction fs generalizing a with
  | nil => exact ⟨a, rfl⟩
  | cons x fs ih =>
    have hstep : ∃ c, step a x = .ok c := by
      by_cases hknown : ∃ p ∈ parts, x.name = p.name
      · obtain ⟨p, hp, hx⟩ := hknown
        obtain ⟨ys, hys⟩ := hreads p hp
        obtain ⟨y, hy⟩ := hys.exists_read List.mem_cons_self hx
        exact ⟨p.set a y, by rw [h.own p hp a x hx, hy]; rfl⟩
      · exact ⟨a, h.unknown a x fun p hp hx => hknown ⟨p, hp, hx⟩⟩
    obtain ⟨c, hc⟩ := hstep
    obtain ⟨b, hb⟩ := ih (fun p hp => (hreads p hp).elim fun _ hys => hys.exists_tail) c
    exact ⟨b, by rw [List.foldlM_cons, hc]; exact hb⟩

/-- The message of some fields has of each part what the fields of its name make of it. -/
theorem foldlM_eq_ok_iff (h : TakesOver step parts) : fs.foldlM step a = .ok b ↔
    ∀ p ∈ parts, ∃ ys, Reads p.read p.name fs ys ∧ p.get b = ys.foldl p.put (p.get a) := by
  constructor
  · exact fun hfold p hp => h.reads hp hfold
  · intro hparts
    obtain ⟨c, hc⟩ := h.exists_foldlM (fun p hp => (hparts p hp).imp fun _ hys => hys.1) a
    have hsame : c = b := by
      refine h.ext c b fun p hp => ?_
      obtain ⟨ys, hys, hb⟩ := hparts p hp
      obtain ⟨zs, hzs, hget⟩ := h.reads hp hc
      rw [hget, hb, hzs.unique hys]
    rw [hc, hsame]

end TakesOver

/-- The parts of an argument. Of the fields of a name the last one stands. -/
def argParts : List (Part ArgDef) := [
  { name := "name", read := Entry.string, set := fun a name => { a with name }, get := (·.name),
    put := fun _ s => s },
  { name := "type", read := Entry.elementType, get := (·.elementType), put := fun _ t => some t,
    set := fun a t => { a with elementType := some t } },
  { name := "type_attr", read := Entry.string, get := (·.typeAttr), put := fun _ s => nonEmpty s,
    set := fun a s => { a with typeAttr := nonEmpty s } },
  { name := "number_attr", read := Entry.string, get := (·.numberAttr),
    put := fun _ s => nonEmpty s, set := fun a s => { a with numberAttr := nonEmpty s } },
  { name := "type_list_attr", read := Entry.string, get := (·.typeListAttr),
    put := fun _ s => nonEmpty s, set := fun a s => { a with typeListAttr := nonEmpty s } }]

def attrParts : List (Part AttrDef) := [
  { name := "name", read := Entry.string, set := fun a name => { a with name }, get := (·.name),
    put := fun _ s => s },
  { name := "type", read := Entry.string, set := fun a kind => { a with kind }, get := (·.kind),
    put := fun _ s => s },
  { name := "default_value", read := Entry.default, set := fun a default => { a with default },
    get := (·.default), put := fun _ d => d }]

/-- The parts of an operation. Arguments and attributes are lists, to which each field adds one. -/
def opParts : List (Part OpDef) := [
  { name := "name", read := Entry.string, set := fun op name => { op with name }, get := (·.name),
    put := fun _ s => s },
  { name := "input_arg", read := Entry.argDef, get := (·.inputs), put := fun as a => as ++ [a],
    set := fun op a => { op with inputs := op.inputs ++ [a] } },
  { name := "output_arg", read := Entry.argDef, get := (·.outputs), put := fun as a => as ++ [a],
    set := fun op a => { op with outputs := op.outputs ++ [a] } },
  { name := "attr", read := Entry.attrDef, get := (·.attrs), put := fun as a => as ++ [a],
    set := fun op a => { op with attrs := op.attrs ++ [a] } },
  { name := "summary", read := Entry.string, get := (·.summary), put := fun _ s => nonEmpty s,
    set := fun op s => { op with summary := nonEmpty s } },
  { name := "description", read := Entry.string, get := (·.description),
    put := fun _ s => nonEmpty s, set := fun op s => { op with description := nonEmpty s } }]

theorem map_nonEmpty_bind {α : Type} (x : Field) (set : Option String → α) :
    (do return set (← x.text)) = x.string.map fun s => set (nonEmpty s) := by
  rw [Entry.text]
  cases x.string <;> rfl

theorem takesOver_arg : TakesOver Entry.addToArg argParts where
  own := by
    simp only [argParts, List.forall_mem_cons]
    refine ⟨?_, ?_, ?_, ?_, ?_, nofun⟩
    all_goals
      intro a x hx
      unfold Entry.addToArg
      simp only [hx]
    · exact bind_pure_comp _ _
    · exact bind_pure_comp _ _
    · exact map_nonEmpty_bind x fun typeAttr => { a with typeAttr }
    · exact map_nonEmpty_bind x fun numberAttr => { a with numberAttr }
    · exact map_nonEmpty_bind x fun typeListAttr => { a with typeListAttr }
  apart := by simp [argParts]
  unknown a x h := by
    simp only [argParts, List.forall_mem_cons] at h
    obtain ⟨hname, htype, htypeAttr, hnumberAttr, htypeListAttr, -⟩ := h
    simp only [Entry.addToArg]
  ext a b h := by
    simp only [argParts, List.forall_mem_cons] at h
    obtain ⟨hname, htype, htypeAttr, hnumberAttr, htypeListAttr, -⟩ := h
    cases a
    cases b
    simp_all

theorem takesOver_attr : TakesOver Entry.addToAttr attrParts where
  own := by
    simp only [attrParts, List.forall_mem_cons]
    refine ⟨?_, ?_, ?_, nofun⟩
    all_goals
      intro a x hx
      unfold Entry.addToAttr
      simp only [hx]
      exact bind_pure_comp _ _
  apart := by simp [attrParts]
  unknown a x h := by
    simp only [attrParts, List.forall_mem_cons] at h
    obtain ⟨hname, hkind, hdefault, -⟩ := h
    simp only [Entry.addToAttr]
  ext a b h := by
    simp only [attrParts, List.forall_mem_cons] at h
    obtain ⟨hname, hkind, hdefault, -⟩ := h
    cases a
    cases b
    simp_all

theorem takesOver_op : TakesOver Entry.addToOp opParts where
  own := by
    simp only [opParts, List.forall_mem_cons]
    refine ⟨?_, ?_, ?_, ?_, ?_, ?_, nofun⟩
    all_goals
      intro op x hx
      unfold Entry.addToOp
      simp only [hx]
    · exact bind_pure_comp _ _
    · exact bind_pure_comp _ _
    · exact bind_pure_comp _ _
    · exact bind_pure_comp _ _
    · exact map_nonEmpty_bind x fun summary => { op with summary }
    · exact map_nonEmpty_bind x fun description => { op with description }
  apart := by simp [opParts]
  unknown op x h := by
    simp only [opParts, List.forall_mem_cons] at h
    obtain ⟨hname, hinputs, houtputs, hattrs, hsummary, hdescription, -⟩ := h
    simp only [Entry.addToOp]
  ext a b h := by
    simp only [opParts, List.forall_mem_cons] at h
    obtain ⟨hname, hinputs, houtputs, hattrs, hsummary, hdescription, -⟩ := h
    cases a
    cases b
    simp_all

theorem foldl_concat {α : Type} (xs ys : List α) :
    ys.foldl (fun zs y => zs ++ [y]) xs = xs ++ ys := by
  induction ys generalizing xs with
  | nil => rw [List.foldl_nil, List.append_nil]
  | cons y ys ih => rw [List.foldl_cons, ih, List.append_assoc, List.singleton_append]

section
variable {fs : List Field}

/-- The argument that some fields make up. -/
theorem foldlM_addToArg_eq_ok_iff {a b : ArgDef} : fs.foldlM Entry.addToArg a = .ok b ↔
    (∃ ys, Reads Entry.string "name" fs ys ∧ b.name = ys.foldl (fun _ s => s) a.name) ∧
    (∃ ys, Reads Entry.elementType "type" fs ys ∧
      b.elementType = ys.foldl (fun _ t => some t) a.elementType) ∧
    (∃ ys, Reads Entry.string "type_attr" fs ys ∧
      b.typeAttr = ys.foldl (fun _ s => nonEmpty s) a.typeAttr) ∧
    (∃ ys, Reads Entry.string "number_attr" fs ys ∧
      b.numberAttr = ys.foldl (fun _ s => nonEmpty s) a.numberAttr) ∧
    ∃ ys, Reads Entry.string "type_list_attr" fs ys ∧
      b.typeListAttr = ys.foldl (fun _ s => nonEmpty s) a.typeListAttr := by
  rw [takesOver_arg.foldlM_eq_ok_iff]
  simp only [argParts, List.forall_mem_cons, List.not_mem_nil, IsEmpty.forall_iff, implies_true,
    and_true]

theorem foldlM_addToAttr_eq_ok_iff {a b : AttrDef} : fs.foldlM Entry.addToAttr a = .ok b ↔
    (∃ ys, Reads Entry.string "name" fs ys ∧ b.name = ys.foldl (fun _ s => s) a.name) ∧
    (∃ ys, Reads Entry.string "type" fs ys ∧ b.kind = ys.foldl (fun _ s => s) a.kind) ∧
    ∃ ys, Reads Entry.default "default_value" fs ys ∧
      b.default = ys.foldl (fun _ d => d) a.default := by
  rw [takesOver_attr.foldlM_eq_ok_iff]
  simp only [attrParts, List.forall_mem_cons, List.not_mem_nil, IsEmpty.forall_iff, implies_true,
    and_true]

theorem foldlM_addToOp_eq_ok_iff {a b : OpDef} : fs.foldlM Entry.addToOp a = .ok b ↔
    (∃ ys, Reads Entry.string "name" fs ys ∧ b.name = ys.foldl (fun _ s => s) a.name) ∧
    (∃ ys, Reads Entry.argDef "input_arg" fs ys ∧ b.inputs = a.inputs ++ ys) ∧
    (∃ ys, Reads Entry.argDef "output_arg" fs ys ∧ b.outputs = a.outputs ++ ys) ∧
    (∃ ys, Reads Entry.attrDef "attr" fs ys ∧ b.attrs = a.attrs ++ ys) ∧
    (∃ ys, Reads Entry.string "summary" fs ys ∧
      b.summary = ys.foldl (fun _ s => nonEmpty s) a.summary) ∧
    ∃ ys, Reads Entry.string "description" fs ys ∧
      b.description = ys.foldl (fun _ s => nonEmpty s) a.description := by
  rw [takesOver_op.foldlM_eq_ok_iff]
  simp only [opParts, List.forall_mem_cons, List.not_mem_nil, IsEmpty.forall_iff, implies_true,
    and_true, foldl_concat]

end

end OpStubs.TextFormat
