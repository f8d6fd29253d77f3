import Mathlib.Data.Prod.Basic
import OpStubs.Proofs.Command.Failing

namespace OpStubs.Command

/-- Whether an option may stand behind some arguments: none of them waits for a value or is the
last that may be there. -/
def IsComplete (before : List String) : Prop :=
  ∀ rest, items (before ++ rest) = items before ++ items rest

theorem IsComplete.append {before more : List String} (hbefore : IsComplete before)
    (hmore : IsComplete more) : IsComplete (before ++ more) := by
  intro rest
  rw [List.append_assoc, hbefore, hmore, hbefore more, List.append_assoc]

theorem isComplete_switch {arg : String} (hne : arg ≠ "--") (h : (said arg).2 = none) :
    IsComplete [arg] := by
  intro rest
  cases hsaid : said arg with
  | mk found key =>
    rw [hsaid] at h
    cases h
    simp [items, hne, hsaid]

theorem isComplete_value {arg value : String} (hne : arg ≠ "--") (h : (said arg).2 ≠ none)
    (hvalue : isOption value = false) : IsComplete [arg, value] := by
  intro rest
  cases hsaid : said arg with
  | mk found key =>
    rw [hsaid] at h
    cases key with
    | none => exact absurd rfl h
    | some key => simp [items, hne, hsaid, hvalue]

theorem take_check {o o' : Options} {i : Item} (h : o.take i = .ok o') (hcheck : o'.check = false) :
    o.check = false ∧ { o with check := true }.take i = .ok { o' with check := true } := by
  cases i with
  | value key text =>
    have hget : ({ o with check := true } : Options).get key = o.get key := by cases key <;> rfl
    have hset : ({ o with check := true } : Options).set key text =
        { o.set key text with check := true } := by cases key <;> rfl
    have hkeeps : (o.set key text).check = o.check := by cases key <;> rfl
    rw [Options.take] at h ⊢
    split at h
    · cases h
    · rename_i hnew
      cases h
      rw [hget, if_neg hnew, hset]
      exact ⟨hkeeps ▸ hcheck, rfl⟩
  | switch s =>
    cases s with
    | check =>
      rw [Options.take] at h
      split at h
      · cases h
      · cases h
        cases hcheck
    | verbose =>
      rw [Options.take] at h ⊢
      split at h
      · cases h
      · rename_i hnew
        cases h
        rw [if_neg hnew]
        exact ⟨hcheck, rfl⟩
  | help => cases h
  | wrong => cases h

theorem foldlM_take_check {is : List Item} {o o' : Options} (h : is.foldlM Options.take o = .ok o')
    (hcheck : o'.check = false) : o.check = false ∧
      is.foldlM Options.take { o with check := true } = .ok { o' with check := true } := by
  induction is generalizing o with
  | nil =>
    cases h
    exact ⟨hcheck, rfl⟩
  | cons i is ih =>
    rw [List.foldlM_cons] at h ⊢
    obtain ⟨o₁, hi, his⟩ := bind_ok_iff.1 h
    obtain ⟨hcheck₁, hrest⟩ := ih his
    obtain ⟨hcheck₀, hfirst⟩ := take_check hi hcheck₁
    rw [hfirst]
    exact ⟨hcheck₀, hrest⟩

theorem ofArguments_generate {args : List String} {o : Options} :
    Invocation.ofArguments ("generate" :: args) = .generate o ↔
      Options.ofArguments args = .ok o := by
  rw [Invocation.ofArguments]
  split
  · rename_i o' ho
    rw [ho]
    simp
  · rename_i ho
    simp [ho]
  · rename_i ho
    simp [ho]

/-- To ask for a check as well says the same otherwise. -/
theorem ofArguments_check {before after : List String} {o : Options} (hbefore : IsComplete before)
    (h : Invocation.ofArguments ("generate" :: (before ++ after)) = .generate o)
    (hcheck : o.check = false) :
    Invocation.ofArguments ("generate" :: (before ++ "--check" :: after)) =
      .generate { o with check := true } := by
  rw [ofArguments_generate, Options.ofArguments, hbefore, List.foldlM_append] at h ⊢
  obtain ⟨o₁, h₁, h₂⟩ := bind_ok_iff.1 h
  obtain ⟨hcheck₁, hrest⟩ := foldlM_take_check h₂ hcheck
  have hitems : items ("--check" :: after) = .switch .check :: items after :=
    isComplete_switch (by decide) (by decide) after
  refine bind_ok_iff.2 ⟨o₁, h₁, ?_⟩
  rw [hitems, List.foldlM_cons, Options.take, hcheck₁]
  exact hrest

theorem code_ne {r : Registry} {q : Request} {g : Generated} (h : generate r q = .ok g) :
    g.code ≠ "" := by
  obtain ⟨ops, -, hg⟩ := bind_ok_iff.1 h
  cases hg
  intro hempty
  have hend : "\n" = "" := (String.append_eq_empty_iff.1 hempty).2
  exact absurd hend (by decide)

/-- What a check reports that has found some text in the output file. -/
def compared (path code existing : String) : Report :=
  if existing = code then { status := 0, stdout := path ++ " is up to date\n" } else {
    status := 1
    stdout := Diff.print path existing code
    stderr := (Failure.outOfDate path).report }

section
variable {σ : Type} [Files (StateM σ)] [FileSystem σ]

theorem outcome_readOutput (path : String) (s : σ) :
    outcome (readOutput path) s =
      if (((Files.isFile path : StateM σ _).run s).1 ||
          ((Files.isFolder path : StateM σ _).run s).1) = true
        then outcome (readInput .output path) s else .ok "" := by
  rw [readOutput, (looks_liftM fun s => by rw [isThere_run]).outcome_bind]
  change Except.ok ((Files.isThere path : StateM σ _).run s).1 >>= _ = _
  rw [isThere_run]
  change outcome (if _ then _ else _) s = _
  split <;> rfl

theorem outcome_check (path code : String) (s : σ) :
    outcome (check path code) s = (outcome (readOutput path) s).map (compared path code) := by
  rw [check, (looks_readOutput path).outcome_bind]
  cases outcome (readOutput path) s with
  | error f => rfl
  | ok existing =>
    change outcome (if _ then _ else _) s = _
    rw [Except.map, compared]
    split <;> rfl

end

/-- A check ends well exactly where the output is as it should be. Otherwise it is missing, another
one or cannot be read. -/
theorem status_check {d : Disk} {path code : String} (hcode : code ≠ "") :
    (d.read path = .ok code.toUTF8 → (reportOf (outcome (check path code) d)).status = 0) ∧
    (d.read path ≠ .ok code.toUTF8 → (reportOf (outcome (check path code) d)).status = 1) := by
  have hoff {existing : String} (h : existing ≠ code) :
      (compared path code existing).status = 1 := by
    rw [compared, if_neg h]
  have houtput : outcome (readOutput path) d = if ((d.read path).isOk || d.isFolder path) = true
      then (textOf (d.read path)).mapError (.unreadable .output path) else .ok "" := by
    rw [outcome_readOutput, outcome_readInput]
    rfl
  rw [outcome_check, houtput]
  cases hread : d.read path with
  | error e =>
    refine ⟨nofun, fun _ => ?_⟩
    cases d.isFolder path with
    | true => rfl
    | false => exact hoff (Ne.symm hcode)
  | ok content =>
    have hthere :
        ((Except.ok content : Except FileError ByteArray).isOk || d.isFolder path) = true := rfl
    rw [if_pos hthere, textOf]
    cases htext : String.fromUTF8? content with
    | none =>
      refine ⟨?_, fun _ => rfl⟩
      rintro ⟨⟩
      rw [fromUTF8?_eq_some_iff.2 rfl] at htext
      cases htext
    | some text =>
      obtain rfl := fromUTF8?_eq_some_iff.1 htext
      change (_ → (compared path code text).status = 0) ∧
        (_ → (compared path code text).status = 1)
      constructor
      · intro h
        have heq : text = code := String.toByteArray_inj.1 (Except.ok.inj h)
        rw [compared, if_pos heq]
      · intro h
        refine hoff fun heq => h ?_
        rw [heq]

/-- A disk after the folders for an output file are made. -/
def roomOn (d : Disk) (path : String) : Except FileError Unit × Disk :=
  match Path.parent? path with
  | some folder => d.makeFolder folder
  | none => (.ok (), d)

theorem addsFolders_roomOn {d d' : Disk} {path : String} (h : roomOn d path = (.ok (), d')) :
    d.AddsFolders d' := by
  rw [roomOn] at h
  split at h
  · rename_i folder _
    have hadds := d.addsFolders_makeFolder folder
    rwa [h] at hadds
  · cases h
    exact .refl

theorem roomOn_again {d d' d₂ : Disk} {path : String} {out : Location}
    (h : roomOn d path = (.ok (), d')) (hgrows : Disk.Grows out d' d₂) :
    roomOn d₂ path = (.ok (), d₂) := by
  rw [roomOn] at h ⊢
  split at h
  · exact Disk.makeFolder_again h hgrows
  · rfl

theorem outcome_makeRoom (path : String) (d : Disk) :
    outcome (makeRoom path) d = (roomOn d path).1.mapError .noFolder ∧
      after (makeRoom path) d = (roomOn d path).2 := by
  rw [makeRoom, roomOn]
  cases Path.parent? path with
  | some folder => exact ⟨rfl, rfl⟩
  | none => exact ⟨rfl, rfl⟩

section
variable {d d' : Disk} {path : String} {content : ByteArray}

theorem outcome_write_ok (h : d.write path content = .ok d') :
    outcome (orFail (.unwritable path) (Files.write path content)) d = .ok () ∧
      after (orFail (.unwritable path) (Files.write path content)) d = d' := by
  change ((Files.write path content : StateM Disk _).run d).1.mapError _ = .ok () ∧
    ((Files.write path content : StateM Disk _).run d).2 = d'
  rw [write_run, h]
  exact ⟨rfl, rfl⟩

theorem outcome_write_error {e : FileError} (h : d.write path content = .error e) :
    outcome (orFail (.unwritable path) (Files.write path content)) d =
      .error (.unwritable path e) := by
  change ((Files.write path content : StateM Disk _).run d).1.mapError _ = _
  rw [write_run, h]
  rfl

end

/-- What a run that writes its output does to a disk. -/
theorem writeOutput_eq_ok_iff {path : String} {g : Generated} {d d' : Disk} :
    outcome (writeOutput path g) d = .ok (written path g) ∧ after (writeOutput path g) d = d' ↔
      ∃ d₁, roomOn d path = (.ok (), d₁) ∧ d₁.write path g.code.toUTF8 = .ok d' := by
  obtain ⟨hroom, hmade⟩ := outcome_makeRoom path d
  rw [writeOutput_eq]
  cases hresult : roomOn d path with
  | mk r d₁ =>
    rw [hresult] at hroom hmade
    cases r with
    | error e =>
      refine iff_of_false ?_ nofun
      rintro ⟨h, -⟩
      rw [outcome_bind, hroom] at h
      cases h
    | ok u =>
      rw [outcome_bind, hroom, after_bind_ok hroom, hmade]
      change outcome (orFail _ _ >>= _) d₁ = _ ∧ _ ↔ _
      rw [outcome_bind]
      cases hwrite : d₁.write path g.code.toUTF8 with
      | error e =>
        rw [outcome_write_error hwrite]
        refine iff_of_false nofun ?_
        rintro ⟨_, ⟨⟩, h⟩
        rw [hwrite] at h
        cases h
      | ok made =>
        obtain ⟨hok, hafter⟩ := outcome_write_ok hwrite
        rw [hok, after_bind_ok hok, hafter]
        constructor
        · rintro ⟨-, rfl⟩
          exact ⟨d₁, rfl, hwrite⟩
        · rintro ⟨_, ⟨⟩, h⟩
          rw [hwrite] at h
          cases h
          exact ⟨rfl, rfl⟩

/-- What a run that has written its output leaves: the output can be read, and to write it again
changes nothing. -/
theorem writeOutput_grows {path : String} {g : Generated} {d d' : Disk}
    (h : outcome (writeOutput path g) d = .ok (written path g))
    (hd' : after (writeOutput path g) d = d') :
    ∃ out, d'.locate path = .ok out ∧ Disk.Grows out d d' ∧
      d'.read path = .ok g.code.toUTF8 ∧
      outcome (writeOutput path g) d' = .ok (written path g) ∧
      after (writeOutput path g) d' = d' := by
  obtain ⟨d₁, hroom, hwrite⟩ := writeOutput_eq_ok_iff.1 ⟨h, hd'⟩
  obtain ⟨-, out, hout, hfolder, rfl⟩ := Disk.write_eq_ok_iff.1 hwrite
  have hfile := (Disk.Grows.refl out d₁).putFile hfolder g.code.toUTF8
  have hgrows := (addsFolders_roomOn hroom).grows out
  refine ⟨out, hfile.locate hout, hgrows.putFile hfolder _, ?_, writeOutput_eq_ok_iff.2
    ⟨_, roomOn_again hroom hfile, Disk.write_again hwrite⟩⟩
  refine Disk.read_eq_ok_iff.2 ⟨out, hfile.locate hout, ?_⟩
  rw [Disk.get?_put _ _ _ (Disk.ne_nil_of_isFolderAt hfolder), if_pos rfl]

/-- Whether a disk is as systems keep it: its names can stand in paths, and runs start in a folder
that is there. -/
structure IsTree (d : Disk) : Prop where
  workFolder : d.get? d.workFolder = some .folder
  plain : ∀ e ∈ d.entries, ∀ name ∈ e.1, Path.IsPlain name

/-- The places of the files that a run reads or looks for: its config file, its registry, its names
file, its docs file, and the `.txt` files of its docs folder. -/
inductive Consults (d : Disk) (o : Options) (st : Settings) : Location → Prop
  | config {path : String} {loc : Location} (h : o.config = some path)
    (hloc : d.locate path = .ok loc) : Consults d o st loc
  | defaultConfig (h : o.config = none) : Consults d o st (d.workFolder ++ [Config.defaultFile])
  | registry {loc : Location} (hloc : d.locate st.registry = .ok loc) : Consults d o st loc
  | names {path : String} {loc : Location} (h : st.names = some path)
    (hloc : d.locate path = .ok loc) : Consults d o st loc
  | docs {path : String} {loc : Location} (h : st.docs = some path)
    (hloc : d.locate path = .ok loc) : Consults d o st loc
  | docFile {path name : String} {folder : Location} (h : st.docs = some path)
    (hfolder : d.locate path = .ok folder)
    (htxt : Path.extension? (Path.join path name) = some "txt") : Consults d o st (folder ++ [name])

theorem isPlain_defaultFile : Path.IsPlain Config.defaultFile := by decide

section
variable {d d' : Disk} {out : Location}

theorem follows_input (hgrows : Disk.Grows out d d') {path : String} (input : Input)
    (hout : d.locate path ≠ .ok out) : Follows d d' (readInput input path) :=
  follows_readInput input fun _ hread => hgrows.read hread hout

theorem IsTree.locate_default (hd : IsTree d) :
    d.locate Config.defaultFile = .ok (d.workFolder ++ [Config.defaultFile]) := by
  have hsegs : Path.segments Config.defaultFile = [Config.defaultFile.toList] := by decide
  have horigin : d.origin Config.defaultFile = d.workFolder := if_neg (by decide)
  rw [Disk.locate, if_neg (by decide), hsegs, horigin]
  exact Disk.walk_name isPlain_defaultFile hd.workFolder

/-- A config file does not come up or go away where none is written. -/
theorem isFile_default (hd : IsTree d) (hgrows : Disk.Grows out d d')
    (hout : out ≠ d.workFolder ++ [Config.defaultFile]) :
    d'.isFile Config.defaultFile = d.isFile Config.defaultFile := by
  have hread (content : ByteArray) : d'.read Config.defaultFile = .ok content ↔
      d.read Config.defaultFile = .ok content := by
    rw [Disk.read_eq_ok_iff, Disk.read_eq_ok_iff, hd.locate_default,
      hgrows.locate hd.locate_default]
    refine exists_congr fun loc => and_congr_right fun hloc => ?_
    cases hloc
    exact hgrows.file _ content (Ne.symm hout)
  have hiff : d'.isFile Config.defaultFile = true ↔ d.isFile Config.defaultFile = true := by
    rw [Disk.isFile_eq_true_iff, Disk.isFile_eq_true_iff]
    exact exists_congr hread
  exact Bool.eq_iff_iff.2 hiff

/-- The names that are listed stand in a folder, and a path can spell them. -/
theorem IsTree.listed (hd : IsTree d) {path name : String} {names : List String} {loc : Location}
    (hnames : d.list path = .ok names) (hloc : d.locate path = .ok loc) (hname : name ∈ names) :
    d.get? loc = some .folder ∧ Path.IsPlain name := by
  obtain ⟨loc', hloc', hget, rfl⟩ := Disk.list_eq_ok_iff.1 hnames
  rw [hloc] at hloc'
  cases hloc'
  obtain ⟨⟨l, e⟩, hmem, hin⟩ := List.mem_filterMap.1 hname
  cases e with
  | folder => cases hin
  | file content =>
    obtain rfl := Disk.fileIn?_eq_some hin
    exact ⟨hget, hd.plain _ hmem name (by simp)⟩

variable [YamlReader]

/-- Docs that are read stay as they are where no file of theirs is written. -/
theorem follows_loadDocs (hd : IsTree d) (hgrows : Disk.Grows out d d') {path : String}
    (hfile : d.locate path ≠ .ok out)
    (htxt : ∀ folder name, d.locate path = .ok folder →
      Path.extension? (Path.join path name) = some "txt" → out ≠ folder ++ [name]) :
    Follows d d' (loadDocs path) := by
  intro docs hdocs
  cases hfolder : d.isFolder path with
  | false =>
    rw [outcome_loadDocs_file (s := d) hfolder] at hdocs
    obtain ⟨text, htext, -⟩ := bind_ok_iff.1 ((looks_readInput _ _).outcome_bind _ d ▸ hdocs)
    obtain ⟨content, hread⟩ := exists_content htext
    have hfolder' := Disk.isFolder_of_read (hgrows.read hread hfile)
    rw [outcome_loadDocs_file (s := d') hfolder']
    exact (follows_input hgrows .docs hfile).bind (looks_readInput _ _) (fun _ _ => follows_mk _)
      docs hdocs
  | true =>
    -- The output may be listed anew in the folder, but only under a name that is passed over.
    rw [outcome_loadDocs_folder (s := d) hfolder] at hdocs
    obtain ⟨names, hnames, hdocs⟩ := bind_ok_iff.1 hdocs
    obtain ⟨entries, hentries, hresult⟩ := bind_ok_iff.1 hdocs
    obtain ⟨loc, new, hloc, hlist, hnew⟩ := hgrows.list (mapError_ok hnames)
    have hskip : docFiles path new = [] := by
      refine List.filterMap_eq_nil_iff.2 fun name hname => ?_
      refine Option.map_eq_none_iff.2 (Option.eq_none_iff_forall_ne_some.2 fun key hkey => ?_)
      exact htxt loc name hloc (extension?_of_docKey? hkey) (hnew name hname)
    have hsame : Follows d d' (loadDocFiles (docFiles path names)) := by
      refine follows_loadDocFiles fun file hmem => follows_input hgrows .docs ?_
      obtain ⟨name, hname, hkey, hpath⟩ := mem_docFiles.1 hmem
      obtain ⟨hget, hplain⟩ := hd.listed (mapError_ok hnames) hloc hname
      rw [hpath, Disk.locate_join hplain hloc hget]
      intro heq
      exact htxt loc name hloc (extension?_of_docKey? hkey) (Except.ok.inj heq).symm
    rw [outcome_loadDocs_folder (s := d') (hgrows.isFolder hfolder)]
    change (d'.list path).mapError _ >>= _ = _
    rw [hlist]
    change outcome (loadDocFiles (docFiles path (names ++ new))) d' >>= _ = _
    rw [docFiles_append, hskip, List.append_nil, hsame entries hentries]
    exact hresult

/-- A run prepares the same again where its output is none of the files that it reads. -/
theorem follows_prepare_grown (hd : IsTree d) (hgrows : Disk.Grows out d d') {o : Options}
    {st : Settings} (hst : outcome (settle o) d = .ok st) (hout : ¬ Consults d o st out) :
    Follows d d' (prepare o) := by
  refine follows_prepare (follows_settle ?_ ?_) ?_
  · intro path hpath
    exact follows_input hgrows .config fun hloc => hout (.config hpath hloc)
  · intro hnone
    have hne : out ≠ d.workFolder ++ [Config.defaultFile] := by
      rintro rfl
      exact hout (.defaultConfig hnone)
    refine ⟨isFile_default hd hgrows hne, follows_input hgrows .config ?_⟩
    rw [hd.locate_default]
    exact fun heq => hne (Except.ok.inj heq).symm
  · intro st' hst'
    rw [hst] at hst'
    cases hst'
    refine follows_build (follows_input hgrows .registry fun hloc => hout (.registry hloc))
      (fun path hpath => follows_input hgrows .names fun hloc => hout (.names hpath hloc)) ?_
    intro path hpath
    refine follows_loadDocs hd hgrows (fun hloc => hout (.docs hpath hloc)) ?_
    rintro folder name hfolder htxt rfl
    exact hout (.docFile hpath hfolder htxt)

end

/-- A run on a disk: what it reports, and the disk that it leaves. -/
def runOn [YamlReader] (args : List String) (d : Disk) : Report × Disk :=
  (run args : StateM Disk Report).run d

section
variable [YamlReader] {args : List String} {o : Options} {st : Settings} {g : Generated} {d d' : Disk}
  {report : Report}

theorem code_ne_of_build (h : outcome (build st) d = .ok g) : g.code ≠ "" := by
  rw [build, (looks_loadRegistry _).outcome_bind] at h
  obtain ⟨registry, -, h⟩ := bind_ok_iff.1 h
  rw [(looks_loadRequest _).outcome_bind] at h
  obtain ⟨request, -, h⟩ := bind_ok_iff.1 h
  exact code_ne (mapError_ok h)

/-- What a run does that ends well and was not asked to check. -/
theorem runOn_writes (hargs : Invocation.ofArguments args = .generate o) (hcheck : o.check = false)
    (hrun : runOn args d = (report, d')) (hstatus : report.status = 0) :
    ∃ st g, outcome (prepare o) d = .ok (st, g) ∧
      outcome (writeOutput st.output g) d = .ok (written st.output g) ∧
      after (writeOutput st.output g) d = d' ∧ report = written st.output g := by
  rw [runOn, run_generate hargs] at hrun
  obtain ⟨hreport, hafter⟩ := Prod.mk.inj hrun
  cases hprepare : outcome (prepare o) d with
  | error f =>
    rw [runGenerate, (looks_prepare o).outcome_bind, hprepare] at hreport
    rw [← hreport] at hstatus
    cases hstatus
  | ok p =>
    obtain ⟨st, g⟩ := p
    obtain ⟨hresult, hleft⟩ := runGenerate_prepared hprepare
    rw [if_neg (by simp [hcheck])] at hresult hleft
    rw [hresult] at hreport
    rw [hleft] at hafter
    cases hwrite : outcome (writeOutput st.output g) d with
    | error f =>
      rw [hwrite] at hreport
      rw [← hreport] at hstatus
      cases hstatus
    | ok r =>
      obtain rfl := writeOutput_ok hwrite
      rw [hwrite] at hreport
      exact ⟨st, g, rfl, hwrite, hafter, hreport.symm⟩

theorem runOn_of_writeOutput (hargs : Invocation.ofArguments args = .generate o)
    (hcheck : o.check = false) (hprepare : outcome (prepare o) d = .ok (st, g))
    (hwrite : outcome (writeOutput st.output g) d = .ok (written st.output g))
    (hafter : after (writeOutput st.output g) d = d') :
    runOn args d = (written st.output g, d') := by
  obtain ⟨hresult, hleft⟩ := runGenerate_prepared hprepare
  rw [if_neg (by simp [hcheck])] at hresult hleft
  rw [runOn, run_generate hargs, hresult, hleft, hwrite, hafter]
  rfl

theorem runOn_check (hargs : Invocation.ofArguments args = .generate o) (hcheck : o.check = true)
    (hprepare : outcome (prepare o) d = .ok (st, g)) :
    runOn args d = (reportOf (outcome (check st.output g.code) d), d) := by
  obtain ⟨hresult, hleft⟩ := runGenerate_prepared hprepare
  rw [if_pos hcheck] at hresult hleft
  rw [runOn, run_generate hargs, hresult, hleft, looks_check]

/-- A run that ends well leaves the output that a check goes by: the same run with a check changes
nothing, ends well if that output is there already, and badly if it is missing, another one or no
text. If the run reads no file that is the output, then after it a check ends well and a second run
changes nothing. -/
theorem check_agrees_with_run {before after : List String} (hbefore : IsComplete before)
    (hargs : Invocation.ofArguments ("generate" :: (before ++ after)) = .generate o)
    (hcheck : o.check = false) (hrun : runOn ("generate" :: (before ++ after)) d = (report, d'))
    (hstatus : report.status = 0) :
    ∃ st content, outcome (settle o) d = .ok st ∧ d'.read st.output = .ok content ∧
      (runOn ("generate" :: (before ++ "--check" :: after)) d).2 = d ∧
      (d.read st.output = .ok content →
        (runOn ("generate" :: (before ++ "--check" :: after)) d).1.status = 0) ∧
      (d.read st.output ≠ .ok content →
        (runOn ("generate" :: (before ++ "--check" :: after)) d).1.status = 1) ∧
      (IsTree d → ∀ out, d'.locate st.output = .ok out → ¬ Consults d o st out →
        (runOn ("generate" :: (before ++ "--check" :: after)) d').1.status = 0 ∧
        (runOn ("generate" :: (before ++ "--check" :: after)) d').2 = d' ∧
        runOn ("generate" :: (before ++ after)) d' = (report, d')) := by
  obtain ⟨st, g, hprepare, hwrite, hafter, rfl⟩ := runOn_writes hargs hcheck hrun hstatus
  obtain ⟨hst, hg⟩ := outcome_prepare_eq_ok_iff.1 hprepare
  obtain ⟨out, hout, hgrows, hread, hagain, hleft⟩ := writeOutput_grows hwrite hafter
  have hasked := ofArguments_check hbefore hargs hcheck
  have hcode : g.code ≠ "" := code_ne_of_build hg
  have hchecked := runOn_check (d := d) hasked rfl hprepare
  refine ⟨st, g.code.toUTF8, hst, hread, ?_, ?_, ?_, ?_⟩
  · rw [hchecked]
  · rw [hchecked]
    exact (status_check hcode).1
  · rw [hchecked]
    exact (status_check hcode).2
  · intro hd out' hout' hconsults
    rw [hout] at hout'
    cases hout'
    have hprepare' : outcome (prepare o) d' = .ok (st, g) :=
      follows_prepare_grown hd hgrows hst hconsults _ hprepare
    rw [runOn_check (d := d') hasked rfl hprepare']
    exact ⟨(status_check hcode).1 hread, rfl,
      runOn_of_writeOutput hargs hcheck hprepare' hagain hleft⟩

end

/-- A registry with one operation and its docs folder. -/
def workshop : Disk where
  entries := [(["work"], .folder),
    (["work", "ops.txt"], .file "op \x7b name: \"NoOp\" \x7d\n".toUTF8),
    (["work", "docs"], .folder), (["work", "docs", "NoOp.txt"], .file "Does nothing.\n".toUTF8)]
  workFolder := ["work"]

def workshopInputs : List String := ["-v", "--registry", "ops.txt"] ++ ["--docs", "docs"]

def workshopOutput : List String := ["-o", "new/../lua/raw_ops.lua"]

def workshopOptions : Options where
  overrides := {
    registry := some "ops.txt"
    docs := some "docs"
    output := some "new/../lua/raw_ops.lua" }
  verbose := true

def workshopSettings : Settings where
  registry := "ops.txt"
  docs := some "docs"
  output := "new/../lua/raw_ops.lua"
  privateStart := "_"

theorem consults_workshop {loc : Location}
    (h : Consults workshop workshopOptions workshopSettings loc) :
    loc ≠ ["work", "lua", "raw_ops.lua"] := by
  have hregistry : workshop.locate "ops.txt" = .ok ["work", "ops.txt"] := rfl
  have hdocs : workshop.locate "docs" = .ok ["work", "docs"] := rfl
  cases h with
  | config h => cases h
  | defaultConfig h => decide
  | registry hloc =>
    rw [workshopSettings, hregistry] at hloc
    cases hloc
    decide
  | names h => cases h
  | docs h hloc =>
    cases h
    rw [hdocs] at hloc
    cases hloc
    decide
  | docFile h hfolder =>
    cases h
    rw [hdocs] at hfolder
    cases hfolder
    simp

/-- The first check misses the output, the one after the run finds it, and the second run changes
nothing. -/
theorem check_agrees_with_run_workshop :
    let plain := "generate" :: (workshopInputs ++ workshopOutput)
    let checking := "generate" :: (workshopInputs ++ "--check" :: workshopOutput)
    (runOn plain workshop).1.status = 0 ∧ (runOn checking workshop).2 = workshop ∧
      (runOn checking workshop).1.status = 1 ∧
      (runOn checking (runOn plain workshop).2).1.status = 0 ∧
      (runOn checking (runOn plain workshop).2).2 = (runOn plain workshop).2 ∧
      runOn plain (runOn plain workshop).2 = runOn plain workshop := by
  have hverbose : IsComplete ["-v"] := isComplete_switch (by decide) (by decide)
  have hregistry : IsComplete ["--registry", "ops.txt"] :=
    isComplete_value (by decide) (by decide) (by decide)
  have hdocs : IsComplete ["--docs", "docs"] := isComplete_value (by decide) (by decide) (by decide)
  have hargs : Invocation.ofArguments ("generate" :: (workshopInputs ++ workshopOutput)) =
      .generate workshopOptions := by
    decide
  have hstatus :
      (runOn ("generate" :: (workshopInputs ++ workshopOutput)) workshop).1.status = 0 := by
    decide +kernel
  have htree : IsTree workshop := ⟨rfl, by decide⟩
  obtain ⟨st, content, hst, hread, hsame, -, hother, hagain⟩ :=
    check_agrees_with_run ((hverbose.append hregistry).append hdocs) hargs rfl
      (Prod.mk.eta (p := runOn ("generate" :: (workshopInputs ++ workshopOutput)) workshop)).symm
      hstatus
  obtain rfl : workshopSettings = st := Except.ok.inj hst
  have hmissing : workshop.read workshopSettings.output ≠ .ok content := nofun
  have hlocate : (runOn ("generate" :: (workshopInputs ++ workshopOutput)) workshop).2.locate
      workshopSettings.output = .ok ["work", "lua", "raw_ops.lua"] :=
    ok_of_toOption (by decide +kernel)
  obtain ⟨hup, hidle, htwice⟩ := hagain htree _ hlocate (consults_workshop · rfl)
  exact ⟨hstatus, hsame, hother hmissing, hup, hidle, htwice⟩

/-- A registry without its module. -/
def bareDisk : Disk where
  entries := [(["work"], .folder),
    (["work", "ops.txt"], .file "op \x7b name: \"NoOp\" \x7d\n".toUTF8)]
  workFolder := ["work"]

/-- The same disk once the module is made. -/
def madeDisk : Disk := (runOn ["generate", "--registry", "ops.txt", "-o", "raw_ops.lua"] bareDisk).2

/-- Arguments with a path to the output through a folder that is not there. -/
def detour : List String := ["generate", "--registry", "ops.txt", "-o", "new/../raw_ops.lua"]

def checkedDetour : List String :=
  ["generate", "--registry", "ops.txt", "--check", "-o", "new/../raw_ops.lua"]

/-- The output is there and as it should be, but only a run without a check makes the folder on the
way to it. -/
theorem check_misses_output_madeDisk :
    (runOn detour madeDisk).1.status = 0 ∧
      (runOn detour madeDisk).2.locate "new/../raw_ops.lua" = .ok ["work", "raw_ops.lua"] ∧
      (contentOn madeDisk ["work", "raw_ops.lua"]).isSome = true ∧
      contentOn (runOn detour madeDisk).2 ["work", "raw_ops.lua"] =
        contentOn madeDisk ["work", "raw_ops.lua"] ∧
      (runOn checkedDetour madeDisk).1.status = 1 := by
  have hruns :
      ((runOn detour madeDisk).1.status, (runOn checkedDetour madeDisk).1.status) = (0, 1) := by
    decide +kernel
  have hlocate : (runOn detour madeDisk).2.locate "new/../raw_ops.lua" =
      .ok ["work", "raw_ops.lua"] := ok_of_toOption (by decide +kernel)
  have hthere : (contentOn madeDisk ["work", "raw_ops.lua"]).isSome = true := by decide +kernel
  -- Lists are compared faster than arrays.
  have hbytes : (contentOn (runOn detour madeDisk).2 ["work", "raw_ops.lua"]).map (·.data.toList) =
      (contentOn madeDisk ["work", "raw_ops.lua"]).map (·.data.toList) := by
    decide +kernel
  have hsame := Option.map_injective (fun a b h => ByteArray.ext (Array.toList_inj.1 h)) hbytes
  obtain ⟨hstatus, hchecked⟩ := Prod.mk.inj hruns
  exact ⟨hstatus, hlocate, hthere, hsame, hchecked⟩

end OpStubs.Command
