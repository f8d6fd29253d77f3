import OpStubs.Proofs.Command.Failing

namespace OpStubs.Command

/-- Reads the docstrings of a folder whose files are listed as `names`. -/
def docsListed {m : Type → Type} [Monad m] [Files m] (folder : String) (names : List String) :
    ExceptT Failure m Dictionary := do
  return .ofList (← loadDocFiles (docFiles folder names))

theorem docFiles_perm {folder : String} {order names : List String} (h : order.Perm names) :
    (docFiles folder order).Perm (docFiles folder names) := h.filterMap _

/-- Each file can be listed last. -/
theorem exists_order {folder : String} {names : List String} {file : String × String}
    (h : file ∈ docFiles folder names) :
    ∃ order before, order.Perm names ∧ docFiles folder order = before ++ [file] := by
  obtain ⟨name, hname, hkey, hpath⟩ := mem_docFiles.1 h
  have hfile : (docKey? (Path.join folder name)).map (fun key => (key, Path.join folder name)) =
      some file := by
    rw [hkey, ← hpath]
    rfl
  have hlast : docFiles folder [name] = [file] := by
    simp only [docFiles, List.filterMap_cons, hfile, List.filterMap_nil]
  refine ⟨names.erase name ++ [name], docFiles folder (names.erase name), ?_, ?_⟩
  · exact (List.perm_append_singleton _ _).trans (List.perm_cons_erase hname).symm
  · rw [docFiles_append, hlast]

section
variable {σ : Type} [Files (StateM σ)] {s t : σ} {folder : String} {names order : List String}

/-- The text of a file. -/
def textAt (s : σ) (path : String) : Except FileError String :=
  ((Files.readText path : StateM σ _).run s).1

/-- Whether the docs files of a folder can all be read. -/
def DocsReadable (s : σ) (folder : String) (names : List String) : Prop :=
  ∀ file ∈ docFiles folder names, ∃ text, textAt s file.2 = .ok text

/-- Whether the docs files of one operation hold one text. -/
def DocsAgree (s : σ) (folder : String) (names : List String) : Prop :=
  ∀ a ∈ docFiles folder names, ∀ b ∈ docFiles folder names, a.1 = b.1 →
    textAt s a.2 = textAt s b.2

/-- Whether two states hold the same files and list them each in some order. -/
structure Reordered (s t : σ) : Prop where
  read : ∀ path,
    ((Files.read path : StateM σ _).run t).1 = ((Files.read path : StateM σ _).run s).1
  isFile : ∀ path,
    ((Files.isFile path : StateM σ _).run t).1 = ((Files.isFile path : StateM σ _).run s).1
  isFolder : ∀ path,
    ((Files.isFolder path : StateM σ _).run t).1 = ((Files.isFolder path : StateM σ _).run s).1
  list : ∀ path names,
    (∃ order, order.Perm names ∧ ((Files.list path : StateM σ _).run t).1 = .ok order) ↔
      ∃ order, order.Perm names ∧ ((Files.list path : StateM σ _).run s).1 = .ok order

theorem Reordered.symm (h : Reordered s t) : Reordered t s where
  read path := (h.read path).symm
  isFile path := (h.isFile path).symm
  isFolder path := (h.isFolder path).symm
  list path names := (h.list path names).symm

theorem DocsReadable.exists_text (h : DocsReadable s folder names) : ∃ text : String → String,
    ∀ file ∈ docFiles folder names, textAt s file.2 = .ok (text file.2) := by
  refine ⟨fun path => (textAt s path).toOption.getD "", fun file hfile => ?_⟩
  obtain ⟨text, htext⟩ := h file hfile
  change textAt s file.2 = .ok ((textAt s file.2).toOption.getD "")
  rw [htext]
  rfl

end

section
variable {σ : Type} [Files (StateM σ)] [FileSystem σ] {s t : σ} {folder : String}
  {names order : List String} {text : String → String}

theorem outcome_loadDocFiles {files : List (String × String)}
    (h : ∀ file ∈ files, textAt s file.2 = .ok (text file.2)) :
    outcome (loadDocFiles files) s = .ok (files.map fun file => (file.1, text file.2)) := by
  induction files with
  | nil => rfl
  | cons file files ih =>
    obtain ⟨hfile, hfiles⟩ := List.forall_mem_cons.1 h
    have hread : outcome (readInput .docs file.2) s = .ok (text file.2) := by
      change (textAt s file.2).mapError _ = _
      rw [hfile]
      rfl
    have hlooks : Looks (σ := σ) (do return (file.1, ← readInput .docs file.2)) :=
      (looks_readInput _ _).bind fun _ => looks_pure _
    rw [loadDocFiles, List.mapM_cons, hlooks.outcome_bind, (looks_readInput _ _).outcome_bind,
      hread]
    change outcome (loadDocFiles files >>= _) s = _
    rw [(looks_loadDocFiles files).outcome_bind, ih hfiles]
    rfl

/-- What the files of a folder say in some order: the last file of an operation counts. -/
theorem outcome_docsListed
    (htext : ∀ file ∈ docFiles folder names, textAt s file.2 = .ok (text file.2))
    (horder : order.Perm names) : outcome (docsListed folder order) s =
      .ok (.ofList ((docFiles folder order).map fun file => (file.1, text file.2))) := by
  have hfiles := outcome_loadDocFiles fun file hfile =>
    htext file ((docFiles_perm horder).subset hfile)
  rw [docsListed, (looks_loadDocFiles _).outcome_bind, hfiles]
  rfl

/-- The order of a docs folder does not count exactly if its files agree. -/
theorem docsListed_perm_iff (hread : DocsReadable s folder names) :
    (∀ order order' : List String, order.Perm names → order'.Perm names →
      outcome (docsListed folder order) s = outcome (docsListed folder order') s) ↔
    DocsAgree s folder names := by
  obtain ⟨text, htext⟩ := hread.exists_text
  constructor
  · intro h a ha b hb hkey
    obtain ⟨order, before, horder, hlast⟩ := exists_order ha
    obtain ⟨order', before', horder', hlast'⟩ := exists_order hb
    have hsame := h order order' horder horder'
    rw [outcome_docsListed htext horder, outcome_docsListed htext horder', hlast, hlast',
      List.map_append, List.map_append] at hsame
    have hfind := congrArg (Dictionary.find? · a.1) (Except.ok.inj hsame)
    simp only [List.map_cons, List.map_nil, Dictionary.find?_ofList_concat, if_pos hkey,
      if_true, Option.some.injEq] at hfind
    rw [htext a ha, htext b hb, hfind]
  · intro h order order' horder horder'
    rw [outcome_docsListed htext horder, outcome_docsListed htext horder']
    congr 1
    refine Dictionary.ofList_perm ((docFiles_perm (horder.trans horder'.symm)).map _) ?_
    simp only [List.forall_mem_map]
    intro a ha b hb hkey
    have hmem : docFiles folder order' ⊆ docFiles folder names := (docFiles_perm horder').subset
    have hagree := h a (hmem ha) b (hmem hb) hkey
    rw [htext a (hmem ha), htext b (hmem hb)] at hagree
    exact Except.ok.inj hagree

theorem textAt_reordered (h : Reordered s t) (path : String) : textAt t path = textAt s path := by
  rw [textAt, textAt, readText_run, readText_run, h.read]

theorem Reordered.follows_readInput (h : Reordered s t) (input : Input) (path : String) :
    Follows s t (readInput input path) :=
  Command.follows_readInput input fun _ hread => (h.read path).trans hread

theorem Reordered.follows_settle (h : Reordered s t) (o : Options) : Follows s t (settle o) :=
  Command.follows_settle (fun path _ => h.follows_readInput .config path) fun _ =>
    ⟨h.isFile _, h.follows_readInput .config _⟩

variable [YamlReader]

theorem outcome_loadDocs_listed (hfolder : ((Files.isFolder folder : StateM σ _).run s).1 = true)
    (hlist : ((Files.list folder : StateM σ _).run s).1 = .ok names) :
    outcome (loadDocs folder) s = outcome (docsListed folder names) s := by
  rw [outcome_loadDocs_folder hfolder, hlist, docsListed, (looks_loadDocFiles _).outcome_bind]
  rfl

/-- Docs that agree are the same however a folder is listed. -/
theorem loadDocs_reordered (h : Reordered s t) (hread : DocsReadable s folder names)
    (hagree : DocsAgree s folder names)
    (hfolder : ((Files.isFolder folder : StateM σ _).run s).1 = true)
    (hlist : ((Files.list folder : StateM σ _).run s).1 = .ok names) :
    outcome (loadDocs folder) t = outcome (loadDocs folder) s := by
  obtain ⟨order, horder, hlist'⟩ := (h.list folder names).2 ⟨names, .refl names, hlist⟩
  obtain ⟨text, htext⟩ := hread.exists_text
  have hfolder' := (h.isFolder folder).trans hfolder
  have hsame := (docsListed_perm_iff hread).2 hagree order names horder (.refl names)
  rw [outcome_loadDocs_listed hfolder' hlist', outcome_loadDocs_listed hfolder hlist, ← hsame,
    outcome_docsListed htext horder]
  exact outcome_docsListed (fun file hfile => (textAt_reordered h _).trans (htext file hfile))
    horder

theorem Reordered.follows_prepare (h : Reordered s t) {o : Options} {st : Settings}
    (hst : outcome (settle o) s = .ok st) (hdocs : st.docs = some folder)
    (hload : Follows s t (loadDocs folder)) : Follows s t (prepare o) := by
  refine Command.follows_prepare (h.follows_settle o) fun st' hst' => ?_
  rw [hst] at hst'
  cases hst'
  refine follows_build (h.follows_readInput _ _) (fun path _ => h.follows_readInput _ path) ?_
  intro path hpath
  rw [hdocs] at hpath
  cases hpath
  exact hload

end

/-- A disk with its entries in another order. -/
theorem reordered_of_perm {d : Disk} {entries : List (Location × Entry)}
    (hnodup : (d.entries.map Prod.fst).Nodup) (h : entries.Perm d.entries) :
    Reordered d { d with entries } := by
  have hget := Disk.get?_perm hnodup h
  have hread := Disk.read_congr hget rfl
  refine ⟨hread, fun path => ?_, Disk.isFolder_congr hget rfl, fun path names => ⟨?_, ?_⟩⟩
  · change (Disk.read _ path).isOk = (d.read path).isOk
    rw [hread]
  · rintro ⟨order, horder, hlist⟩
    obtain ⟨order', horder', hlist'⟩ := Disk.list_perm hget.symm rfl h.symm hlist
    exact ⟨order', horder'.trans horder, hlist'⟩
  · rintro ⟨order, horder, hlist⟩
    obtain ⟨order', horder', hlist'⟩ := Disk.list_perm hget rfl h hlist
    exact ⟨order', horder'.trans horder, hlist'⟩

/-- The order in which a docs folder is listed does not count exactly if the files of each operation
hold one text. Then neither the docs nor the module of a run depend on it. -/
theorem docs_order_iff [YamlReader] {σ : Type} [Files (StateM σ)] [FileSystem σ] {s : σ}
    {folder : String} {names : List String} (hread : DocsReadable s folder names) :
    ((∀ order order' : List String, order.Perm names → order'.Perm names →
        outcome (docsListed folder order) s = outcome (docsListed folder order') s) ↔
      DocsAgree s folder names) ∧
    (DocsAgree s folder names → ((Files.isFolder folder : StateM σ _).run s).1 = true →
      ((Files.list folder : StateM σ _).run s).1 = .ok names → ∀ t, Reordered s t →
        outcome (loadDocs folder) t = outcome (loadDocs folder) s ∧
        ∀ o st, outcome (settle o) s = .ok st → st.docs = some folder →
          ∀ p, outcome (prepare o) t = .ok p ↔ outcome (prepare o) s = .ok p) := by
  refine ⟨docsListed_perm_iff hread, fun hagree hfolder hlist t ht => ?_⟩
  have hload := loadDocs_reordered ht hread hagree hfolder hlist
  refine ⟨hload, fun o st hst hdocs p => ⟨?_, ?_⟩⟩
  · refine ht.symm.follows_prepare (ht.follows_settle o st hst) hdocs ?_ p
    exact fun docs hok => hload.symm.trans hok
  · refine ht.follows_prepare hst hdocs ?_ p
    exact fun docs hok => hload.trans hok

/-- A registry with one operation and a docs folder with two files for it. The second one holds
`text`. -/
def casesDisk (text : String) : Disk where
  entries := [(["work"], .folder),
    (["work", "ops.txt"], .file "op \x7b name: \"A\" \x7d\n".toUTF8), (["work", "docs"], .folder),
    (["work", "docs", "A.txt"], .file "Adds.".toUTF8),
    (["work", "docs", "A.TXT"], .file text.toUTF8)]
  workFolder := ["work"]

/-- The same disk with its entries the other way round. -/
def casesDiskReversed (text : String) : Disk :=
  { casesDisk text with entries := (casesDisk text).entries.reverse }

def casesOptions : Options where
  overrides := { registry := some "ops.txt", docs := some "docs", output := some "raw_ops.lua" }

def casesSettings : Settings where
  registry := "ops.txt"
  docs := some "docs"
  output := "raw_ops.lua"
  privateStart := "_"

theorem docFiles_cases : docFiles "docs" ["A.txt", "A.TXT"] =
    [("A", "docs/A.txt"), ("A", "docs/A.TXT")] := by
  decide

theorem textAt_casesDisk (text : String) :
    textAt (casesDisk text) "docs/A.txt" = .ok "Adds." ∧
      textAt (casesDisk text) "docs/A.TXT" = .ok text := by
  rw [textAt, textAt, readText_run, readText_run]
  exact ⟨textOf_toUTF8 "Adds.", textOf_toUTF8 text⟩

theorem docsReadable_casesDisk (text : String) :
    DocsReadable (casesDisk text) "docs" ["A.txt", "A.TXT"] := by
  obtain ⟨hfirst, hsecond⟩ := textAt_casesDisk text
  simp [DocsReadable, docFiles_cases, hfirst, hsecond]

/-- Files of one operation that hold the same text may be listed in any order. -/
theorem docs_order_iff_casesDisk :
    outcome (docsListed "docs" ["A.TXT", "A.txt"]) (casesDisk "Adds.") =
      outcome (docsListed "docs" ["A.txt", "A.TXT"]) (casesDisk "Adds.") ∧
    outcome (loadDocs "docs") (casesDiskReversed "Adds.") =
      outcome (loadDocs "docs") (casesDisk "Adds.") ∧
    ∃ p, outcome (prepare casesOptions) (casesDiskReversed "Adds.") = .ok p ∧
      outcome (prepare casesOptions) (casesDisk "Adds.") = .ok p := by
  obtain ⟨hiff, hmodule⟩ := docs_order_iff (docsReadable_casesDisk "Adds.")
  have hagree : DocsAgree (casesDisk "Adds.") "docs" ["A.txt", "A.TXT"] := by
    obtain ⟨hfirst, hsecond⟩ := textAt_casesDisk "Adds."
    simp [DocsAgree, docFiles_cases, hfirst, hsecond]
  have hreordered : Reordered (casesDisk "Adds.") (casesDiskReversed "Adds.") :=
    reordered_of_perm (by decide) (List.reverse_perm _)
  obtain ⟨hdocs, hprepare⟩ := hmodule hagree rfl rfl _ hreordered
  have hok : (outcome (prepare casesOptions) (casesDisk "Adds.")).isOk = true := by decide +kernel
  refine ⟨hiff.2 hagree _ _ (.swap ..) (.refl _), hdocs, ?_⟩
  cases hp : outcome (prepare casesOptions) (casesDisk "Adds.") with
  | error f =>
    rw [hp] at hok
    cases hok
  | ok p => exact ⟨p, (hprepare casesOptions casesSettings rfl rfl p).2 hp, rfl⟩

/-- Two files of one operation that hold different texts: the one that is listed last counts. -/
theorem docs_order_counts :
    ["A.txt", "A.TXT"].Nodup ∧ DocsReadable (casesDisk "Drops.") "docs" ["A.txt", "A.TXT"] ∧
    outcome (docsListed "docs" ["A.TXT", "A.txt"]) (casesDisk "Drops.") ≠
      outcome (docsListed "docs" ["A.txt", "A.TXT"]) (casesDisk "Drops.") ∧
    Reordered (casesDisk "Drops.") (casesDiskReversed "Drops.") ∧
    outcome (loadDocs "docs") (casesDiskReversed "Drops.") ≠
      outcome (loadDocs "docs") (casesDisk "Drops.") ∧
    outcome (prepare casesOptions) (casesDiskReversed "Drops.") ≠
      outcome (prepare casesOptions) (casesDisk "Drops.") := by
  refine ⟨by decide, docsReadable_casesDisk _, fun h => ?_,
    reordered_of_perm (by decide) (List.reverse_perm _), fun h => ?_, fun h => ?_⟩
  · exact absurd (congrArg Except.toOption h) (by decide +kernel)
  · exact absurd (congrArg Except.toOption h) (by decide +kernel)
  · exact absurd (congrArg (·.toOption.map (·.2.code)) h) (by decide +kernel)

end OpStubs.Command
