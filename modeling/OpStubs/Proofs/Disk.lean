import Mathlib.Data.List.Basic
import OpStubs.Disk
import OpStubs.Proofs.Dictionary
import OpStubs.Proofs.Path
import OpStubs.Proofs.Traversal

namespace OpStubs.Disk

variable {d d' : Disk} {loc out start : Location} {segs : List (List Char)}

theorem ne_nil_of_get? (h : d.get? loc = none) : loc ≠ [] := by
  rintro rfl
  cases h

theorem isFolderAt_iff : d.isFolderAt loc = true ↔ d.get? loc = some .folder := by
  unfold isFolderAt
  split
  · rename_i h
    simp [h]
  · rename_i h
    simpa using h

theorem ne_nil_of_isFolderAt (h : d.isFolderAt loc = false) : loc ≠ [] := by
  rintro rfl
  cases h

theorem get?_perm {entries : List (Location × Entry)} (hnodup : (d.entries.map Prod.fst).Nodup)
    (h : entries.Perm d.entries) : ({ d with entries } : Disk).get? = d.get? := by
  funext loc
  rw [get?, get?]
  refine congrArg _ (Option.ext fun e => ?_)
  rw [lookup_eq_some_iff_mem hnodup, lookup_eq_some_iff_mem ((h.map Prod.fst).nodup_iff.2 hnodup),
    h.mem_iff]

/-- Where paths lead by the entries alone, not by their order. -/
theorem walk_congr (h : d'.get? = d.get?) (start : Location) (segs : List (List Char)) :
    d'.walk start segs = d.walk start segs := by
  induction segs generalizing start with
  | nil => rw [walk, walk]
  | cons s rest ih => simp only [walk, h, ih]

theorem locate_congr (h : d'.get? = d.get?) (hwork : d'.workFolder = d.workFolder) (path : String) :
    d'.locate path = d.locate path := by
  simp only [locate, origin, hwork, walk_congr h]

theorem read_congr (h : d'.get? = d.get?) (hwork : d'.workFolder = d.workFolder) (path : String) :
    d'.read path = d.read path := by
  simp only [read, find, locate_congr h hwork, h]

theorem isFolder_congr (h : d'.get? = d.get?) (hwork : d'.workFolder = d.workFolder)
    (path : String) : d'.isFolder path = d.isFolder path := by
  simp only [isFolder, isFolderAt, locate_congr h hwork, h]

theorem makeOne_ok {made : Disk} (h : d.makeOne start segs = .ok made) :
    ∃ loc, d.walk start segs = .ok loc ∧ d.get? loc = none ∧ made = d.put loc .folder := by
  unfold makeOne at h
  cases hwalk : d.walk start segs with
  | error e =>
    rw [hwalk] at h
    cases h
  | ok loc =>
    rw [hwalk] at h
    change (if (d.get? loc).isSome = true then _ else _) = _ at h
    split at h
    · cases h
    · rename_i hnone
      cases h
      exact ⟨loc, rfl, Option.not_isSome_iff_eq_none.1 hnone, rfl⟩

/-- Whether a disk has come out of another one by folders put where nothing was. -/
inductive AddsFolders (d : Disk) : Disk → Prop
  | refl : AddsFolders d d
  | put {d' : Disk} {loc : Location} (h : AddsFolders d d') (hnone : d'.get? loc = none) :
    AddsFolders d (d'.put loc .folder)

theorem addsFolders_makeFolders (d : Disk) (start : Location) (segs : List (List Char)) :
    AddsFolders d (d.makeFolders start segs).2 := by
  have hmakeOne {d' : Disk} {segs : List (List Char)} {made : Disk} (h : AddsFolders d d')
      (hmade : d'.makeOne start segs = .ok made) : AddsFolders d made := by
    obtain ⟨loc, -, hnone, rfl⟩ := makeOne_ok hmade
    exact h.put hnone
  induction segs with
  | nil => exact .refl
  | cons s outer ih =>
    rw [makeFolders]
    dsimp only
    split
    · split
      · rename_i d' houter
        rw [houter] at ih
        split
        · rename_i made hmade
          exact hmakeOne ih hmade
        · exact ih
      · exact ih
    · split
      · rename_i made hmade
        exact hmakeOne .refl hmade
      · exact .refl

theorem addsFolders_makeFolder (d : Disk) (path : String) :
    AddsFolders d (d.makeFolder path).2 := by
  rw [makeFolder]
  split
  · exact .refl
  · exact addsFolders_makeFolders _ _ _

/-- Whether a disk has come out of another one by folders put where nothing was and a file written
to `out`. -/
structure Grows (out : Location) (d d' : Disk) : Prop where
  workFolder : d'.workFolder = d.workFolder
  folder : ∀ loc, d.get? loc = some .folder → d'.get? loc = some .folder
  file : ∀ loc content, loc ≠ out →
    (d'.get? loc = some (.file content) ↔ d.get? loc = some (.file content))
  listed : ∀ loc, ∃ new, d'.entries.filterMap (fileIn? loc) =
    d.entries.filterMap (fileIn? loc) ++ new ∧ ∀ name ∈ new, out = loc ++ [name]

theorem putEntry_of_lookup_none {e : Entry} {entries : List (Location × Entry)}
    (h : entries.lookup loc = none) : putEntry loc e entries = entries ++ [(loc, e)] := by
  induction entries with
  | nil => rfl
  | cons x rest ih =>
    obtain ⟨l, old⟩ := x
    rw [List.lookup_cons] at h
    split at h
    · cases h
    · rename_i hne
      have hl : l ≠ loc := by
        rintro rfl
        simp at hne
      rw [putEntry, if_neg hl, ih h]
      rfl

/-- A file that is written once more is listed where it was. -/
theorem filterMap_putEntry {old content : ByteArray} {entries : List (Location × Entry)}
    (h : entries.lookup loc = some (.file old)) (folder : Location) :
    (putEntry loc (.file content) entries).filterMap (fileIn? folder) =
      entries.filterMap (fileIn? folder) := by
  induction entries with
  | nil => cases h
  | cons x rest ih =>
    obtain ⟨l, e⟩ := x
    by_cases hl : l = loc
    · subst hl
      rw [List.lookup_cons_self] at h
      cases h
      rw [putEntry, if_pos rfl]
      rfl
    · have hne : (loc == l) = false := by simpa using Ne.symm hl
      rw [List.lookup_cons, hne] at h
      rw [putEntry, if_neg hl, List.filterMap_cons, List.filterMap_cons, ih h]

theorem lookup_of_get? (h : d.get? loc = none) : d.entries.lookup loc = none := by
  rwa [get?, if_neg (ne_nil_of_get? h)] at h

theorem Grows.refl (out : Location) (d : Disk) : Grows out d d where
  workFolder := rfl
  folder _ h := h
  file _ _ _ := Iff.rfl
  listed _ := ⟨[], (List.append_nil _).symm, nofun⟩

theorem Grows.putFolder (h : Grows out d d') (hnone : d'.get? loc = none) :
    Grows out d (d'.put loc .folder) where
  workFolder := h.workFolder
  folder l hl := by
    rw [get?_put _ _ _ (ne_nil_of_get? hnone)]
    split
    · rfl
    · exact h.folder l hl
  file l content hl := by
    rw [get?_put _ _ _ (ne_nil_of_get? hnone)]
    split
    · rename_i heq
      subst heq
      rw [← h.file l content hl, hnone]
      simp
    · exact h.file l content hl
  listed l := by
    obtain ⟨new, hnew, hout⟩ := h.listed l
    refine ⟨new, ?_, hout⟩
    rw [put, putEntry_of_lookup_none (lookup_of_get? hnone), List.filterMap_append, hnew]
    exact List.append_nil _

theorem AddsFolders.grows (h : AddsFolders d d') (out : Location) : Grows out d d' := by
  induction h with
  | refl => exact .refl out d
  | put _ hnone ih => exact ih.putFolder hnone

/-- A name that is listed anew is the name of the file that was written. -/
theorem fileIn?_eq_some {content : ByteArray} {folder : Location} {name : String}
    (h : fileIn? folder (loc, .file content) = some name) : loc = folder ++ [name] := by
  rw [fileIn?] at h
  split at h
  · rename_i hdrop
    subst hdrop
    exact (List.dropLast_append_getLast? name h).symm
  · cases h

theorem Grows.putFile (h : Grows out d d') (hout : d'.isFolderAt out = false)
    (content : ByteArray) : Grows out d (d'.put out (.file content)) := by
  have hne : out ≠ [] := ne_nil_of_isFolderAt hout
  have hnot : d'.get? out ≠ some .folder := by
    intro hfolder
    rw [isFolderAt_iff.2 hfolder] at hout
    cases hout
  refine ⟨h.workFolder, fun l hl => ?_, fun l c hl => ?_, fun l => ?_⟩
  · have hfolder := h.folder l hl
    rw [get?_put _ _ _ hne, if_neg]
    · exact hfolder
    · rintro rfl
      exact hnot hfolder
  · rw [get?_put _ _ _ hne, if_neg hl]
    exact h.file l c hl
  · obtain ⟨new, hnew, hname⟩ := h.listed l
    rw [put]
    cases hold : d'.entries.lookup out with
    | none =>
      refine ⟨new ++ (fileIn? l (out, .file content)).toList, ?_, ?_⟩
      · rw [putEntry_of_lookup_none hold, List.filterMap_append, hnew, List.append_assoc]
        cases hin : fileIn? l (out, .file content) <;> simp [hin]
      · intro name hmem
        rcases List.mem_append.1 hmem with hmem | hmem
        · exact hname name hmem
        · rw [Option.mem_toList] at hmem
          exact fileIn?_eq_some hmem
    | some e =>
      have hget : d'.get? out = some e := by rwa [get?, if_neg hne]
      cases e with
      | folder => exact absurd hget hnot
      | file old => exact ⟨new, by rw [filterMap_putEntry hold, hnew], hname⟩

/-- Where a path leads on a disk, it leads on one that has grown out of it. -/
theorem Grows.walk (h : Grows out d d') (hwalk : d.walk start segs = .ok loc) :
    d'.walk start segs = .ok loc := by
  fun_induction Disk.walk d start segs with
  | case1 => exact hwalk
  | case2 => cases hwalk
  | case3 => cases hwalk
  | case4 start s rest hfolder hidle ih =>
    rw [Disk.walk, h.folder _ hfolder]
    dsimp only
    rw [if_pos hidle]
    exact ih hwalk
  | case5 start rest hfolder hidle ih =>
    rw [Disk.walk, h.folder _ hfolder]
    dsimp only
    rw [if_neg hidle, if_pos rfl]
    exact ih hwalk
  | case6 start s rest hfolder hidle hup ih =>
    rw [Disk.walk, h.folder _ hfolder]
    dsimp only
    rw [if_neg hidle, if_neg hup]
    exact ih hwalk

theorem Grows.locate (h : Grows out d d') {path : String} (hlocate : d.locate path = .ok loc) :
    d'.locate path = .ok loc := by
  unfold Disk.locate at hlocate ⊢
  split at hlocate
  · cases hlocate
  · rename_i hne
    rw [if_neg hne, origin, h.workFolder]
    exact h.walk hlocate

theorem find_eq_ok_iff {e : Entry} : d.find loc = .ok e ↔ d.get? loc = some e := by
  rw [find]
  cases d.get? loc <;> simp

theorem read_eq_ok_iff {path : String} {content : ByteArray} :
    d.read path = .ok content ↔
      ∃ loc, d.locate path = .ok loc ∧ d.get? loc = some (.file content) := by
  constructor
  · intro h
    obtain ⟨loc, hloc, h⟩ := bind_ok_iff.1 h
    obtain ⟨e, he, h⟩ := bind_ok_iff.1 h
    cases e with
    | folder => cases h
    | file c =>
      cases h
      exact ⟨loc, hloc, find_eq_ok_iff.1 he⟩
  · rintro ⟨loc, hloc, hget⟩
    exact bind_ok_iff.2 ⟨loc, hloc, bind_ok_iff.2 ⟨_, find_eq_ok_iff.2 hget, rfl⟩⟩

theorem isFile_eq_true_iff {path : String} :
    d.isFile path = true ↔ ∃ content, d.read path = .ok content := by
  rw [isFile]
  cases d.read path with
  | error e => exact iff_of_false nofun nofun
  | ok content => exact iff_of_true rfl ⟨content, rfl⟩

theorem isFolder_eq_true_iff {path : String} :
    d.isFolder path = true ↔ ∃ loc, d.locate path = .ok loc ∧ d.get? loc = some .folder := by
  rw [isFolder]
  cases d.locate path with
  | error e => simp
  | ok loc => simp [isFolderAt_iff]

theorem list_eq_ok_iff {path : String} {names : List String} :
    d.list path = .ok names ↔ ∃ loc, d.locate path = .ok loc ∧ d.get? loc = some .folder ∧
      d.entries.filterMap (fileIn? loc) = names := by
  constructor
  · intro h
    obtain ⟨loc, hloc, h⟩ := bind_ok_iff.1 h
    obtain ⟨e, he, h⟩ := bind_ok_iff.1 h
    cases e with
    | file c => cases h
    | folder =>
      cases h
      exact ⟨loc, hloc, find_eq_ok_iff.1 he, rfl⟩
  · rintro ⟨loc, hloc, hget, rfl⟩
    exact bind_ok_iff.2 ⟨loc, hloc, bind_ok_iff.2 ⟨_, find_eq_ok_iff.2 hget, rfl⟩⟩

/-- What the order of its entries makes of a disk: only the order in which files are listed. -/
theorem list_perm (hget : d'.get? = d.get?) (hwork : d'.workFolder = d.workFolder)
    (h : d'.entries.Perm d.entries) {path : String} {names : List String}
    (hlist : d.list path = .ok names) : ∃ order, order.Perm names ∧ d'.list path = .ok order := by
  obtain ⟨loc, hloc, hfolder, rfl⟩ := list_eq_ok_iff.1 hlist
  refine ⟨_, h.filterMap (fileIn? loc), list_eq_ok_iff.2 ⟨loc, ?_, ?_, rfl⟩⟩
  · rw [locate_congr hget hwork, hloc]
  · rw [hget, hfolder]

/-- A file that is not written to is read as before. -/
theorem Grows.read (h : Grows out d d') {path : String} {content : ByteArray}
    (hread : d.read path = .ok content) (hout : d.locate path ≠ .ok out) :
    d'.read path = .ok content := by
  obtain ⟨loc, hloc, hget⟩ := read_eq_ok_iff.1 hread
  have hne : loc ≠ out := by
    rintro rfl
    exact hout hloc
  exact read_eq_ok_iff.2 ⟨loc, h.locate hloc, (h.file loc content hne).2 hget⟩

theorem Grows.isFolder (h : Grows out d d') {path : String} (hfolder : d.isFolder path = true) :
    d'.isFolder path = true := by
  obtain ⟨loc, hloc, hget⟩ := isFolder_eq_true_iff.1 hfolder
  exact isFolder_eq_true_iff.2 ⟨loc, h.locate hloc, h.folder loc hget⟩

theorem isFolder_of_read {path : String} {content : ByteArray} (h : d.read path = .ok content) :
    d.isFolder path = false := by
  obtain ⟨loc, hloc, hget⟩ := read_eq_ok_iff.1 h
  rw [Disk.isFolder, hloc]
  dsimp only
  rw [isFolderAt, hget]

theorem Grows.list (h : Grows out d d') {path : String} {names : List String}
    (hlist : d.list path = .ok names) : ∃ loc new, d.locate path = .ok loc ∧
      d'.list path = .ok (names ++ new) ∧ ∀ name ∈ new, out = loc ++ [name] := by
  obtain ⟨loc, hloc, hget, rfl⟩ := list_eq_ok_iff.1 hlist
  obtain ⟨new, hnew, hname⟩ := h.listed loc
  exact ⟨loc, new, hloc, list_eq_ok_iff.2 ⟨loc, h.locate hloc, h.folder loc hget, hnew⟩, hname⟩

theorem hasFolder_eq_true_iff :
    d.hasFolder start segs = true ↔ ∃ loc, d.walk start segs = .ok loc ∧
      d.get? loc = some .folder := by
  rw [hasFolder]
  cases d.walk start segs with
  | error e => simp
  | ok loc => simp [isFolderAt_iff]

theorem Grows.hasFolder (h : Grows out d d') (hfolder : d.hasFolder start segs = true) :
    d'.hasFolder start segs = true := by
  obtain ⟨loc, hloc, hget⟩ := hasFolder_eq_true_iff.1 hfolder
  exact hasFolder_eq_true_iff.2 ⟨loc, h.walk hloc, h.folder loc hget⟩

/-- The folder that has been made is there. -/
theorem hasFolder_makeFolders {s : List Char} {outer : List (List Char)}
    (h : d.makeFolders start (s :: outer) = (.ok (), d')) :
    d'.hasFolder start (s :: outer).reverse = true := by
  have hmade {d' made : Disk} (h : d'.makeOne start (s :: outer).reverse = .ok made) :
      made.hasFolder start (s :: outer).reverse = true := by
    obtain ⟨loc, hwalk, hnone, rfl⟩ := makeOne_ok h
    have hgrows := (Grows.refl [] d').putFolder hnone
    refine hasFolder_eq_true_iff.2 ⟨loc, hgrows.walk hwalk, ?_⟩
    rw [get?_put _ _ _ (ne_nil_of_get? hnone), if_pos rfl]
  have hsettled {d₁ : Disk} {e : FileError}
      (h : ((if d₁.hasFolder start (s :: outer).reverse = true then .ok () else .error e, d₁) :
        Except FileError Unit × Disk) = (.ok (), d')) :
      d'.hasFolder start (s :: outer).reverse = true := by
    obtain ⟨hresult, rfl⟩ := Prod.mk.inj h
    split at hresult
    · assumption
    · cases hresult
  rw [makeFolders] at h
  dsimp only at h
  split at h
  · split at h
    · split at h
      · rename_i made hone
        cases h
        exact hmade hone
      · exact hsettled h
    · rename_i hfailed
      exact absurd h (hfailed d')
  · split at h
    · rename_i made hone
      cases h
      exact hmade hone
    · exact hsettled h

/-- Nothing is made where the folder is there. -/
theorem makeFolders_of_hasFolder {s : List Char} {outer : List (List Char)}
    (h : d.hasFolder start (s :: outer).reverse = true) :
    d.makeFolders start (s :: outer) = (.ok (), d) := by
  obtain ⟨loc, hwalk, hget⟩ := hasFolder_eq_true_iff.1 h
  have hone : d.makeOne start (s :: outer).reverse = .error .exists := by
    rw [makeOne, hwalk]
    change (if (d.get? loc).isSome = true then _ else _) = _
    rw [hget]
    rfl
  rw [makeFolders, hone]
  dsimp only
  rw [if_pos h]

/-- A folder that has been made need not be made again, whatever has grown since. -/
theorem makeFolder_again {path : String} {d₂ : Disk} (h : d.makeFolder path = (.ok (), d'))
    (hgrows : Grows out d' d₂) : d₂.makeFolder path = (.ok (), d₂) := by
  have hmade : d'.workFolder = d.workFolder := by
    have hadds := addsFolders_makeFolder d path
    rw [h] at hadds
    exact (hadds.grows out).workFolder
  rw [makeFolder] at h ⊢
  split at h
  · rename_i hpath
    rw [if_pos hpath]
  · rename_i hpath
    rw [if_neg hpath]
    have horigin : d₂.origin path = d.origin path := by
      rw [origin, origin, hgrows.workFolder, hmade]
    rw [horigin]
    cases hsegs : (Path.segments path).reverse with
    | nil => rfl
    | cons s outer =>
      rw [hsegs] at h
      exact makeFolders_of_hasFolder (hgrows.hasFolder (hasFolder_makeFolders h))

theorem putEntry_putEntry (loc : Location) (e : Entry) (entries : List (Location × Entry)) :
    putEntry loc e (putEntry loc e entries) = putEntry loc e entries := by
  induction entries with
  | nil => simp [putEntry]
  | cons x rest ih =>
    obtain ⟨l, old⟩ := x
    by_cases hl : l = loc
    · simp [putEntry, hl]
    · simp [putEntry, hl, ih]

/-- Where a write succeeds: at a place that a path without a slash at its end leads to, unless there
is a folder. -/
theorem write_eq_ok_iff {path : String} {content : ByteArray} :
    d.write path content = .ok d' ↔ (path = "" ∨ (Path.segments path).getLast? ≠ some []) ∧
      ∃ out, d.locate path = .ok out ∧ d.isFolderAt out = false ∧
        d' = d.put out (.file content) := by
  rw [write]
  dsimp only
  split
  · rename_i hslash
    refine iff_of_false (fun h => ?_) (fun ⟨h, _⟩ => ?_)
    · obtain ⟨_, -, h⟩ := bind_ok_iff.1 h
      cases h
    · exact h.elim hslash.1 fun h => h hslash.2
  · rename_i hslash
    rw [not_and_or, not_not] at hslash
    refine Iff.trans bind_ok_iff ?_
    rw [and_iff_right hslash]
    refine exists_congr fun out => and_congr_right fun _ => ?_
    cases d.isFolderAt out with
    | true =>
      refine iff_of_false (fun h => ?_) (fun h => ?_)
      · cases h
      · cases h.1
    | false =>
      change (Except.ok (d.put out (.file content)) = .ok d') ↔ _
      rw [Except.ok.injEq, and_iff_right rfl, eq_comm]

theorem write_again {path : String} {content : ByteArray} (h : d.write path content = .ok d') :
    d'.write path content = .ok d' := by
  obtain ⟨hslash, out, hout, hfolder, rfl⟩ := write_eq_ok_iff.1 h
  have hgrows : Grows out d (d.put out (.file content)) :=
    (Grows.refl out d).putFile hfolder content
  refine write_eq_ok_iff.2 ⟨hslash, out, hgrows.locate hout, ?_, ?_⟩
  · rw [isFolderAt, get?_put _ _ _ (ne_nil_of_isFolderAt hfolder), if_pos rfl]
  · rw [put, put, putEntry_putEntry]

theorem walk_append (d : Disk) (start : Location) (segs segs' : List (List Char)) :
    d.walk start (segs ++ segs') = d.walk start segs >>= fun loc => d.walk loc segs' := by
  fun_induction Disk.walk d start segs with
  | case1 => rfl
  | case2 start s rest hnone => rw [List.cons_append, Disk.walk, hnone]; rfl
  | case3 start s rest content hfile => rw [List.cons_append, Disk.walk, hfile]; rfl
  | case4 start s rest hfolder hidle ih =>
    rw [List.cons_append, Disk.walk, hfolder]
    dsimp only
    rw [if_pos hidle, ih]
  | case5 start rest hfolder hidle ih =>
    rw [List.cons_append, Disk.walk, hfolder]
    dsimp only
    rw [if_neg hidle, if_pos rfl, ih]
  | case6 start s rest hfolder hidle hup ih =>
    rw [List.cons_append, Disk.walk, hfolder]
    dsimp only
    rw [if_neg hidle, if_neg hup, ih]

theorem walk_name {name : String} (h : Path.IsPlain name) (hfolder : d.get? loc = some .folder) :
    d.walk loc [name.toList] = .ok (loc ++ [name]) := by
  rw [walk, hfolder]
  dsimp only
  rw [if_neg (by simp [h.notIdle]), if_neg h.notUp, walk, String.ofList_toList]

/-- A name in a folder leads to what has that name there. -/
theorem locate_join {path name : String} (h : Path.IsPlain name) (hloc : d.locate path = .ok loc)
    (hfolder : d.get? loc = some .folder) :
    d.locate (Path.join path name) = .ok (loc ++ [name]) := by
  have hpath : path ≠ "" := by
    rintro rfl
    cases hloc
  obtain ⟨rest, hjoin⟩ := h.join_eq hpath
  have hne : Path.join path name ≠ "" := by
    rw [hjoin]
    simp [hpath]
  have horigin : d.origin (Path.join path name) = d.origin path := by
    have hlist : path.toList ≠ [] := by simpa using hpath
    rw [hjoin, origin, origin, Path.isAbsolute, Path.isAbsolute, String.toList_append,
      List.head?_append_of_ne_nil _ hlist]
  rw [locate, if_neg hpath] at hloc
  rw [locate, if_neg hne, horigin]
  rcases h.segments_join hpath with hsegs | ⟨outer, hslash, hsegs⟩
  · rw [hsegs, walk_append, hloc]
    exact walk_name h hfolder
  · rw [hslash, walk_append] at hloc
    obtain ⟨loc', hloc', hidle⟩ := bind_ok_iff.1 hloc
    have heq : loc' = loc := by
      rw [walk] at hidle
      split at hidle
      · cases hidle
      · cases hidle
      · exact Except.ok.inj hidle
    rw [hsegs, walk_append, hloc', heq]
    exact walk_name h hfolder

end OpStubs.Disk
