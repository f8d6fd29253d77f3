import Mathlib.Data.List.Induction
import Mathlib.Data.List.Nodup
import OpStubs.Dictionary

namespace OpStubs

/-- Of entries with different keys each one is found. -/
theorem lookup_eq_some_iff_mem {κ α : Type} [BEq κ] [LawfulBEq κ] {entries : List (κ × α)}
    (h : (entries.map Prod.fst).Nodup) {key : κ} {value : α} :
    entries.lookup key = some value ↔ (key, value) ∈ entries := by
  induction entries with
  | nil => simp
  | cons e rest ih =>
    obtain ⟨k, v⟩ := e
    obtain ⟨hk, hrest⟩ := List.nodup_cons.1 h
    rw [List.lookup_cons, List.mem_cons]
    by_cases heq : key = k
    · subst heq
      have hnot : (key, value) ∉ rest := fun hmem => hk (List.mem_map.2 ⟨_, hmem, rfl⟩)
      simp [hnot, eq_comm]
    · have hne : (key == k) = false := by simpa using heq
      rw [hne, ih hrest]
      simp [heq]

namespace Dictionary

variable {d d' : Dictionary} {entries : List (String × String)} {key value : String}

theorem nodup_keys (d : Dictionary) : (d.entries.map Prod.fst).Nodup := by
  refine List.pairwise_map.2 (d.sorted.imp ?_)
  intro a b hlt heq
  rw [heq] at hlt
  exact String.lt_irrefl _ hlt

theorem find?_eq_some_iff : d.find? key = some value ↔ (key, value) ∈ d.entries :=
  lookup_eq_some_iff_mem d.nodup_keys

/-- Dictionaries with the same content are the same. -/
theorem ext_find? (h : ∀ key, d.find? key = d'.find? key) : d = d' := by
  have hmem (e : String × String) : e ∈ d.entries ↔ e ∈ d'.entries := by
    rw [← find?_eq_some_iff, ← find?_eq_some_iff, h]
  have hperm : d.entries.Perm d'.entries :=
    (List.perm_ext_iff_of_nodup d.nodup_keys.of_map d'.nodup_keys.of_map).2 hmem
  have hentries : d.entries = d'.entries := by
    refine hperm.eq_of_pairwise (fun a b _ _ hab hba => ?_) d.sorted d'.sorted
    exact absurd (String.lt_trans hab hba) (String.lt_irrefl _)
  cases d
  cases d'
  cases hentries
  rfl

theorem find?_ofList_concat (entries : List (String × String)) (key value other : String) :
    (ofList (entries ++ [(key, value)])).find? other =
      if other = key then some value else (ofList entries).find? other := by
  rw [ofList, List.foldl_append, List.foldl_cons, List.foldl_nil, find?_insert]
  rfl

theorem mem_of_find?_ofList (h : (ofList entries).find? key = some value) :
    (key, value) ∈ entries := by
  induction entries using List.reverseRecOn with
  | nil => cases h
  | append_singleton entries e ih =>
    obtain ⟨k, v⟩ := e
    rw [find?_ofList_concat] at h
    split at h
    · rename_i hk
      cases h
      simp [hk]
    · exact List.mem_append_left _ (ih h)

theorem isSome_find?_ofList (h : (key, value) ∈ entries) : ((ofList entries).find? key).isSome := by
  induction entries using List.reverseRecOn with
  | nil => cases h
  | append_singleton entries e ih =>
    obtain ⟨k, v⟩ := e
    rw [find?_ofList_concat]
    split
    · rfl
    · rename_i hk
      rcases List.mem_append.1 h with h | h
      · exact ih h
      · cases List.mem_singleton.1 h
        exact absurd rfl hk

/-- Where entries of one key have one value, each entry is found. -/
theorem find?_ofList_of_agree (h : ∀ a ∈ entries, ∀ b ∈ entries, a.1 = b.1 → a.2 = b.2) :
    (ofList entries).find? key = some value ↔ (key, value) ∈ entries := by
  refine ⟨mem_of_find?_ofList, fun hmem => ?_⟩
  obtain ⟨v, hv⟩ := Option.isSome_iff_exists.1 (isSome_find?_ofList hmem)
  rw [hv, show v = value from h _ (mem_of_find?_ofList hv) _ hmem rfl]

/-- Entries of one key that all have one value make a dictionary whatever their order. -/
theorem ofList_perm {entries' : List (String × String)} (hperm : entries'.Perm entries)
    (h : ∀ a ∈ entries, ∀ b ∈ entries, a.1 = b.1 → a.2 = b.2) :
    ofList entries' = ofList entries := by
  have h' : ∀ a ∈ entries', ∀ b ∈ entries', a.1 = b.1 → a.2 = b.2 :=
    fun a ha b hb => h a (hperm.subset ha) b (hperm.subset hb)
  refine ext_find? fun key => Option.ext fun value => ?_
  rw [find?_ofList_of_agree h', find?_ofList_of_agree h, hperm.mem_iff]

/-- Of the entries with a key the last one is found. -/
theorem find?_ofList_eq_some_iff : (ofList entries).find? key = some value ↔
    ∃ before after, entries = before ++ (key, value) :: after ∧ key ∉ after.map Prod.fst := by
  induction entries using List.reverseRecOn with
  | nil =>
    have hempty : (ofList []).find? key = none := rfl
    simp [hempty]
  | append_singleton entries e ih =>
    obtain ⟨k, v⟩ := e
    rw [find?_ofList_concat]
    constructor
    · intro h
      split at h
      · rename_i hk
        cases h
        exact ⟨entries, [], by rw [hk], by simp⟩
      · rename_i hk
        obtain ⟨before, after, rfl, hafter⟩ := ih.1 h
        exact ⟨before, after ++ [(k, v)], by simp, by simpa [hk] using hafter⟩
    · rintro ⟨before, after, heq, hafter⟩
      rcases List.eq_nil_or_concat' after with rfl | ⟨after, x, rfl⟩
      · obtain ⟨-, hlast⟩ := List.append_inj' heq rfl
        cases hlast
        rw [if_pos rfl]
      · rw [← List.cons_append, ← List.append_assoc] at heq
        obtain ⟨hentries, hlast⟩ := List.append_inj' heq rfl
        cases hlast
        simp only [List.map_append, List.mem_append, not_or, List.map_cons, List.map_nil,
          List.mem_singleton] at hafter
        rw [if_neg hafter.2]
        exact ih.2 ⟨before, after, hentries, hafter.1⟩

/-- A dictionary keeps all entries exactly if their keys are different. -/
theorem perm_ofList_iff : entries.Perm (ofList entries).entries ↔
    (entries.map Prod.fst).Nodup := by
  constructor
  · intro h
    exact (h.map Prod.fst).nodup_iff.2 (ofList entries).nodup_keys
  · intro h
    have hagree : ∀ a ∈ entries, ∀ b ∈ entries, a.1 = b.1 → a.2 = b.2 := by
      intro a ha b hb hab
      rw [List.inj_on_of_nodup_map h ha hb hab]
    refine (List.perm_ext_iff_of_nodup h.of_map (ofList entries).nodup_keys.of_map).2 ?_
    intro e
    rw [← find?_eq_some_iff, find?_ofList_of_agree hagree]

end Dictionary

end OpStubs
