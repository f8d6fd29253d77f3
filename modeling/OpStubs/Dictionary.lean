namespace OpStubs

/-- Texts by keys. The keys stand in order and each stands once, so equal contents are equal
dictionaries. -/
structure Dictionary where
  entries : List (String × String) := []
  sorted : entries.Pairwise fun a b => a.1 < b.1 := by exact List.Pairwise.nil
  deriving DecidableEq

namespace Dictionary

def empty : Dictionary := {}

/-- Puts an entry in its place, or in the place of the entry that has its key. -/
def insertEntry (key value : String) : List (String × String) → List (String × String)
  | [] => [(key, value)]
  | e :: rest =>
    if key < e.1 then (key, value) :: e :: rest
    else if key = e.1 then (key, value) :: rest
    else e :: insertEntry key value rest

theorem mem_insertEntry {key value : String} {x : String × String}
    {entries : List (String × String)} (h : x ∈ insertEntry key value entries) :
    x = (key, value) ∨ x ∈ entries := by
  induction entries with
  | nil => simpa [insertEntry] using h
  | cons e rest ih =>
    rw [insertEntry] at h
    split at h
    · simpa using h
    · split at h
      · simp only [List.mem_cons] at h ⊢
        exact h.imp_right .inr
      · simp only [List.mem_cons] at h ⊢
        rcases h with h | h
        · exact .inr (.inl h)
        · exact (ih h).imp_right .inr

theorem sorted_insertEntry (key value : String) (entries : List (String × String))
    (h : entries.Pairwise fun a b => a.1 < b.1) :
    (insertEntry key value entries).Pairwise fun a b => a.1 < b.1 := by
  induction entries with
  | nil => simp [insertEntry]
  | cons e rest ih =>
    have hr := (List.pairwise_cons.1 h)
    rw [insertEntry]
    split
    · rename_i hlt
      refine List.pairwise_cons.2 ⟨fun x hx => ?_, h⟩
      rcases List.mem_cons.1 hx with rfl | hx
      · exact hlt
      · exact String.lt_trans hlt (hr.1 x hx)
    · rename_i hlt
      split
      · rename_i heq
        refine List.pairwise_cons.2 ⟨fun x hx => ?_, hr.2⟩
        have := hr.1 x hx
        rwa [← heq] at this
      · rename_i hne
        refine List.pairwise_cons.2 ⟨fun x hx => ?_, ih hr.2⟩
        rcases mem_insertEntry hx with rfl | hx
        · exact Std.lt_of_le_of_ne hlt (Ne.symm hne)
        · exact hr.1 x hx

def insert (d : Dictionary) (key value : String) : Dictionary :=
  ⟨insertEntry key value d.entries, sorted_insertEntry key value d.entries d.sorted⟩

def find? (d : Dictionary) (key : String) : Option String := d.entries.lookup key

/-- Of entries with the same key the last counts. -/
def ofList (entries : List (String × String)) : Dictionary :=
  entries.foldl (fun d (key, value) => d.insert key value) empty

theorem lookup_insertEntry_self (key value : String) (entries : List (String × String)) :
    (insertEntry key value entries).lookup key = some value := by
  induction entries with
  | nil => simp [insertEntry]
  | cons e rest ih =>
    obtain ⟨k, v⟩ := e
    rw [insertEntry]
    split
    · simp
    · split
      · simp
      · rename_i hne
        have hb : (key == k) = false := by simpa using hne
        simp [List.lookup_cons, hb, ih]

theorem lookup_insertEntry_ne {key other : String} (value : String)
    (entries : List (String × String)) (h : other ≠ key) :
    (insertEntry key value entries).lookup other = entries.lookup other := by
  have hb : (other == key) = false := by simp [h]
  induction entries with
  | nil => simp [insertEntry, List.lookup_cons, hb]
  | cons e rest ih =>
    obtain ⟨k, v⟩ := e
    rw [insertEntry]
    split
    · simp [List.lookup_cons, hb]
    · split
      · rename_i heq
        have hk : (other == k) = false := by
          have heq : key = k := heq
          rwa [heq] at hb
        simp [List.lookup_cons, hb, hk]
      · simp [List.lookup_cons, ih]

theorem find?_insert (d : Dictionary) (key value other : String) :
    (d.insert key value).find? other = if other = key then some value else d.find? other := by
  split
  · rename_i h
    subst h
    exact lookup_insertEntry_self other value d.entries
  · rename_i h
    exact lookup_insertEntry_ne value d.entries h

end Dictionary

/-- How a text in YAML is read as a dictionary, if it is a mapping of texts. -/
class YamlReader where
  dictionary? : String → Option Dictionary

end OpStubs
