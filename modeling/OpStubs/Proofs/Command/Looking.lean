import OpStubs.Command.Run
import OpStubs.Disk
import OpStubs.Proofs.Traversal

namespace OpStubs

/-- Files held in a state. To look at them changes nothing, and a file changes only where it is
written with success. -/
class FileSystem (σ : Type) [Files (StateM σ)] where
  /-- The content of the file that stands somewhere. -/
  content? : σ → Location → Option ByteArray
  read_run (path : String) (s : σ) : ((Files.read path : StateM σ _).run s).2 = s
  isFile_run (path : String) (s : σ) : ((Files.isFile path : StateM σ _).run s).2 = s
  isFolder_run (path : String) (s : σ) : ((Files.isFolder path : StateM σ _).run s).2 = s
  list_run (path : String) (s : σ) : ((Files.list path : StateM σ _).run s).2 = s
  content?_makeFolder (path : String) (s : σ) :
    content? ((Files.makeFolder path : StateM σ _).run s).2 = content? s
  content?_write {path : String} {content : ByteArray} {s : σ} {e : FileError}
    (h : ((Files.write path content : StateM σ _).run s).1 = .error e) :
    content? ((Files.write path content : StateM σ _).run s).2 = content? s

namespace Command

section
variable {σ α β : Type}

/-- What an action gives where it starts from `s`. -/
def outcome (x : ExceptT Failure (StateM σ) α) (s : σ) : Except Failure α := (x.run.run s).1

/-- The state that an action leaves where it starts from `s`. -/
def after (x : ExceptT Failure (StateM σ) α) (s : σ) : σ := (x.run.run s).2

/-- Whether an action leaves every state as it was. -/
def Looks (x : ExceptT Failure (StateM σ) α) : Prop := ∀ s, after x s = s

/-- Whether an action gives from `t` what it gives from `s`, if it succeeds there. -/
def Follows (s t : σ) (x : ExceptT Failure (StateM σ) α) : Prop :=
  ∀ a, outcome x s = .ok a → outcome x t = .ok a

theorem outcome_bind (x : ExceptT Failure (StateM σ) α) (f : α → ExceptT Failure (StateM σ) β)
    (s : σ) : outcome (x >>= f) s = outcome x s >>= fun a => outcome (f a) (after x s) := by
  rw [outcome, outcome, after, ExceptT.run_bind, StateT.run_bind]
  cases x.run.run s with
  | mk r s' => cases r <;> rfl

theorem after_bind_ok {x : ExceptT Failure (StateM σ) α} {s : σ} {a : α} (h : outcome x s = .ok a)
    (f : α → ExceptT Failure (StateM σ) β) : after (x >>= f) s = after (f a) (after x s) := by
  rw [outcome] at h
  rw [after, after, after, ExceptT.run_bind, StateT.run_bind]
  cases hx : x.run.run s with
  | mk r s' =>
    rw [hx] at h
    cases h
    rfl

theorem after_bind_error {x : ExceptT Failure (StateM σ) α} {s : σ} {e : Failure}
    (h : outcome x s = .error e) (f : α → ExceptT Failure (StateM σ) β) :
    after (x >>= f) s = after x s := by
  rw [outcome] at h
  rw [after, after, ExceptT.run_bind, StateT.run_bind]
  cases hx : x.run.run s with
  | mk r s' =>
    rw [hx] at h
    cases h
    rfl

theorem looks_pure (a : α) : Looks (pure a : ExceptT Failure (StateM σ) α) := fun _ => rfl

theorem looks_throw (e : Failure) : Looks (throw e : ExceptT Failure (StateM σ) α) := fun _ => rfl

/-- A result that is there without files. -/
theorem looks_mk (r : Except Failure α) :
    Looks (ExceptT.mk (pure r) : ExceptT Failure (StateM σ) α) := fun _ => rfl

theorem looks_liftM {y : StateM σ α} (h : ∀ s, (y.run s).2 = s) :
    Looks (liftM y : ExceptT Failure (StateM σ) α) := h

theorem looks_orFail {y : StateM σ (Except FileError α)} (failure : FileError → Failure)
    (h : ∀ s, (y.run s).2 = s) : Looks (orFail failure y) := h

theorem Looks.bind {x : ExceptT Failure (StateM σ) α} {f : α → ExceptT Failure (StateM σ) β}
    (hx : Looks x) (hf : ∀ a, Looks (f a)) : Looks (x >>= f) := by
  intro s
  cases h : outcome x s with
  | error e => rw [after_bind_error h, hx]
  | ok a => rw [after_bind_ok h, hx, hf]

theorem Looks.outcome_bind {x : ExceptT Failure (StateM σ) α} (hx : Looks x)
    (f : α → ExceptT Failure (StateM σ) β) (s : σ) :
    outcome (x >>= f) s = outcome x s >>= fun a => outcome (f a) s := by
  rw [Command.outcome_bind, hx]

theorem follows_pure {s t : σ} (a : α) : Follows s t (pure a) := fun _ h => h

theorem follows_throw {s t : σ} (e : Failure) :
    Follows s t (throw e : ExceptT Failure (StateM σ) α) := fun _ h => h

theorem follows_mk {s t : σ} (r : Except Failure α) :
    Follows s t (ExceptT.mk (pure r) : ExceptT Failure (StateM σ) α) := fun _ h => h

theorem Follows.bind {s t : σ} {x : ExceptT Failure (StateM σ) α}
    {f : α → ExceptT Failure (StateM σ) β} (hlooks : Looks x) (hx : Follows s t x)
    (hf : ∀ a, outcome x s = .ok a → Follows s t (f a)) : Follows s t (x >>= f) := by
  intro b hb
  rw [hlooks.outcome_bind] at hb ⊢
  cases ha : outcome x s with
  | error e =>
    rw [ha] at hb
    cases hb
  | ok a =>
    rw [ha] at hb
    rw [hx a ha]
    exact hf a ha b hb

end

theorem docFiles_append (folder : String) (names names' : List String) :
    docFiles folder (names ++ names') = docFiles folder names ++ docFiles folder names' :=
  List.filterMap_append

theorem extension?_of_docKey? {path key : String} (h : docKey? path = some key) :
    Path.extension? path = some "txt" := by
  rw [docKey?] at h
  split at h
  · assumption
  · cases h

theorem mem_docFiles {folder : String} {names : List String} {file : String × String} :
    file ∈ docFiles folder names ↔ ∃ name ∈ names,
      docKey? (Path.join folder name) = some file.1 ∧ file.2 = Path.join folder name := by
  obtain ⟨key, path⟩ := file
  simp only [docFiles, List.mem_filterMap, Option.map_eq_some_iff, Prod.mk.injEq]
  refine exists_congr fun name => and_congr_right fun _ => ?_
  constructor
  · rintro ⟨_, hkey, rfl, rfl⟩
    exact ⟨hkey, rfl⟩
  · rintro ⟨hkey, rfl⟩
    exact ⟨key, hkey, rfl, rfl⟩

/-- The settings of a run: what its options say, and its config file where they say nothing. -/
def settle {m : Type → Type} [Monad m] [Files m] (o : Options) : ExceptT Failure m Settings := do
  let file ← discoverConfig o.config
  ExceptT.mk (pure ((file.override o.overrides).settings.mapError .missing))

/-- The module that some settings ask for. -/
def build {m : Type → Type} [Monad m] [Files m] [YamlReader] (s : Settings) :
    ExceptT Failure m Generated := do
  let registry ← loadRegistry s.registry
  let request ← loadRequest s
  ExceptT.mk (pure ((generate registry request).mapError .notGenerated))

theorem prepare_eq {m : Type → Type} [Monad m] [LawfulMonad m] [Files m] [YamlReader]
    (o : Options) :
    (prepare o : ExceptT Failure m (Settings × Generated)) = do
      let s ← settle o
      let g ← build s
      return (s, g) := by
  simp only [prepare, settle, build, bind_assoc]

/-- The text of a content, if it has one. -/
def textOf : Except FileError ByteArray → Except FileError String
  | .error e => .error e
  | .ok content =>
    match String.fromUTF8? content with
    | some text => .ok text
    | none => .error .notText

theorem fromUTF8?_eq_some_iff {content : ByteArray} {text : String} :
    String.fromUTF8? content = some text ↔ content = text.toUTF8 := by
  rw [String.fromUTF8?]
  split
  · rw [Option.some.injEq, ← String.toByteArray_inj]
    rfl
  · rename_i hnot
    refine iff_of_false nofun ?_
    rintro rfl
    exact hnot text.isValidUTF8

theorem textOf_toUTF8 (text : String) : textOf (.ok text.toUTF8) = .ok text := by
  rw [textOf, fromUTF8?_eq_some_iff.2 rfl]

theorem readText_eq {m : Type → Type} [Monad m] [LawfulMonad m] [Files m] (path : String) :
    (Files.readText path : m _) = textOf <$> Files.read path := by
  rw [Files.readText, ← bind_pure_comp]
  congr
  funext r
  cases r with
  | error e => rfl
  | ok content =>
    dsimp only [textOf]
    cases String.fromUTF8? content <;> rfl

section
variable {σ : Type} [Files (StateM σ)] [FileSystem σ]

open FileSystem

theorem readText_run (path : String) (s : σ) :
    (Files.readText path : StateM σ _).run s =
      (textOf ((Files.read path : StateM σ _).run s).1, s) := by
  rw [readText_eq, StateT.run_map]
  exact Prod.ext rfl (read_run path s)

theorem looks_readInput (input : Input) (path : String) :
    Looks (σ := σ) (readInput input path) :=
  looks_orFail _ fun s => by rw [readText_run]

theorem looks_loadConfig (path : String) : Looks (σ := σ) (loadConfig path) := by
  refine (looks_readInput _ _).bind fun text => ?_
  split
  · exact looks_pure _
  · exact looks_throw _

theorem looks_discoverConfig (path : Option String) : Looks (σ := σ) (discoverConfig path) := by
  cases path with
  | some path => exact looks_loadConfig path
  | none =>
    refine (looks_liftM (isFile_run _)).bind fun isThere => ?_
    split
    · exact looks_loadConfig _
    · exact looks_pure _

theorem looks_settle (o : Options) : Looks (σ := σ) (settle o) :=
  (looks_discoverConfig _).bind fun _ => looks_mk _

theorem looks_loadRegistry (path : String) : Looks (σ := σ) (loadRegistry path) := by
  refine (looks_readInput _ _).bind fun text => ?_
  split
  · exact looks_throw _
  · exact looks_mk _

theorem looks_loadNames (path : String) : Looks (σ := σ) (loadNames path) :=
  (looks_readInput _ _).bind fun _ => looks_pure _

theorem looks_loadDocFiles (files : List (String × String)) :
    Looks (σ := σ) (loadDocFiles files) := by
  rw [loadDocFiles]
  induction files with
  | nil => exact looks_pure _
  | cons file files ih =>
    rw [List.mapM_cons]
    refine Looks.bind ?_ fun _ => ih.bind fun _ => looks_pure _
    exact (looks_readInput _ _).bind fun _ => looks_pure _

theorem isThere_run (path : String) (s : σ) :
    (Files.isThere path : StateM σ _).run s =
      (((Files.isFile path : StateM σ _).run s).1 ||
        ((Files.isFolder path : StateM σ _).run s).1, s) := by
  have hfile : (Files.isFile path : StateM σ _).run s =
      (((Files.isFile path : StateM σ _).run s).1, s) := Prod.ext rfl (isFile_run path s)
  rw [Files.isThere, StateT.run_bind, hfile]
  cases ((Files.isFile path : StateM σ _).run s).1 with
  | true => rfl
  | false => exact Prod.ext rfl (isFolder_run path s)

theorem looks_readOutput (path : String) : Looks (σ := σ) (readOutput path) := by
  refine (looks_liftM fun s => by rw [isThere_run]).bind fun isThere => ?_
  split
  · exact looks_readInput _ _
  · exact looks_pure _

theorem looks_check (path code : String) : Looks (σ := σ) (check path code) := by
  refine (looks_readOutput _).bind fun existing => ?_
  split <;> exact looks_pure _

theorem outcome_readInput (input : Input) (path : String) (s : σ) :
    outcome (readInput input path) s =
      (textOf ((Files.read path : StateM σ _).run s).1).mapError (.unreadable input path) := by
  change ((Files.readText path : StateM σ _).run s).1.mapError _ = _
  rw [readText_run]

variable [YamlReader]

theorem looks_loadDocs (path : String) : Looks (σ := σ) (loadDocs path) := by
  refine (looks_liftM (isFolder_run _)).bind fun isThere => ?_
  split
  · exact (looks_orFail _ (list_run _)).bind fun names =>
      (looks_loadDocFiles _).bind fun _ => looks_pure _
  · exact (looks_readInput _ _).bind fun _ => looks_mk _

theorem looks_loadRequest (s : Settings) : Looks (σ := σ) (loadRequest s) := by
  have hdocs (names : Option (List String)) : Looks (σ := σ) (match s.docs with
      | some path => do
        let docs ← loadDocs path
        pure { names, docs, privateStart := s.privateStart }
      | none => do
        let docs ← pure .empty
        pure { names, docs, privateStart := s.privateStart : Request }) := by
    split
    · exact (looks_loadDocs _).bind fun _ => looks_pure _
    · exact (looks_pure _).bind fun _ => looks_pure _
  unfold loadRequest
  dsimp only
  split
  · refine Looks.bind ?_ hdocs
    rw [← bind_pure_comp]
    exact (looks_loadNames _).bind fun _ => looks_pure _
  · exact (looks_pure _).bind hdocs

theorem looks_build (s : Settings) : Looks (σ := σ) (build s) :=
  (looks_loadRegistry _).bind fun _ => (looks_loadRequest _).bind fun _ => looks_mk _

theorem looks_prepare (o : Options) : Looks (σ := σ) (prepare o) := by
  rw [prepare_eq]
  exact (looks_settle _).bind fun _ => (looks_build _).bind fun _ => looks_pure _

/-- What a docs path gives where it leads to a folder. -/
theorem outcome_loadDocs_folder {path : String} {s : σ}
    (h : ((Files.isFolder path : StateM σ _).run s).1 = true) :
    outcome (loadDocs path) s = do
      let names ← ((Files.list path : StateM σ _).run s).1.mapError (.unlistableDocs path)
      let entries ← outcome (loadDocFiles (docFiles path names)) s
      return .ofList entries := by
  rw [loadDocs, (looks_liftM (isFolder_run path)).outcome_bind]
  change (Except.ok ((Files.isFolder path : StateM σ _).run s).1 >>= _) = _
  rw [h]
  change outcome (orFail _ _ >>= _) s = _
  rw [(looks_orFail _ (list_run path)).outcome_bind]
  change ((Files.list path : StateM σ _).run s).1.mapError _ >>= _ = _
  refine bind_congr fun names => ?_
  rw [(looks_loadDocFiles _).outcome_bind]
  rfl

theorem outcome_loadDocs_file {path : String} {s : σ}
    (h : ((Files.isFolder path : StateM σ _).run s).1 = false) :
    outcome (loadDocs path) s = outcome (readInput .docs path >>= fun text =>
      ExceptT.mk (pure ((docsOf (Path.extension? path) text).mapError (.badDocs path)))) s := by
  rw [loadDocs, (looks_liftM (isFolder_run path)).outcome_bind]
  change (Except.ok ((Files.isFolder path : StateM σ _).run s).1 >>= _) = _
  rw [h]
  rfl

end

section
variable {σ : Type} [Files (StateM σ)] [FileSystem σ] {s t : σ}

theorem exists_content {input : Input} {path text : String}
    (h : outcome (readInput input path) s = .ok text) :
    ∃ content, ((Files.read path : StateM σ _).run s).1 = .ok content := by
  rw [outcome_readInput] at h
  cases hread : ((Files.read path : StateM σ _).run s).1 with
  | error e =>
    rw [hread] at h
    cases h
  | ok content => exact ⟨content, rfl⟩

theorem follows_readInput {path : String} (input : Input)
    (h : ∀ content, ((Files.read path : StateM σ _).run s).1 = .ok content →
      ((Files.read path : StateM σ _).run t).1 = .ok content) :
    Follows s t (readInput input path) := by
  intro text htext
  obtain ⟨content, hread⟩ := exists_content htext
  rw [outcome_readInput, hread] at htext
  rw [outcome_readInput, h content hread, htext]

theorem follows_loadConfig {path : String} (h : Follows s t (readInput .config path)) :
    Follows s t (loadConfig path) := by
  refine h.bind (looks_readInput _ _) fun text _ => ?_
  split
  · exact follows_pure _
  · exact follows_throw _

/-- A run finds its settings again where its config file is the same, or missing in both cases. -/
theorem follows_settle {o : Options}
    (hnamed : ∀ path, o.config = some path → Follows s t (readInput .config path))
    (hdefault : o.config = none →
      ((Files.isFile Config.defaultFile : StateM σ _).run t).1 =
        ((Files.isFile Config.defaultFile : StateM σ _).run s).1 ∧
      Follows s t (readInput .config Config.defaultFile)) : Follows s t (settle o) := by
  have hdiscover : Follows s t (discoverConfig o.config) := by
    cases hconfig : o.config with
    | some path => exact follows_loadConfig (hnamed path hconfig)
    | none =>
      obtain ⟨hsame, hread⟩ := hdefault hconfig
      refine Follows.bind (looks_liftM (FileSystem.isFile_run _)) ?_ fun isThere _ => ?_
      · intro isThere h
        change Except.ok ((Files.isFile Config.defaultFile : StateM σ _).run t).1 = _
        rw [hsame]
        exact h
      · split
        · exact follows_loadConfig hread
        · exact follows_pure _
  exact hdiscover.bind (looks_discoverConfig _) fun _ _ => follows_mk _

theorem follows_loadRegistry {path : String} (h : Follows s t (readInput .registry path)) :
    Follows s t (loadRegistry path) := by
  refine h.bind (looks_readInput _ _) fun text _ => ?_
  split
  · exact follows_throw _
  · exact follows_mk _

theorem follows_loadDocFiles {files : List (String × String)}
    (h : ∀ file ∈ files, Follows s t (readInput .docs file.2)) :
    Follows s t (loadDocFiles files) := by
  rw [loadDocFiles]
  induction files with
  | nil => exact follows_pure _
  | cons file files ih =>
    obtain ⟨hfile, hfiles⟩ := List.forall_mem_cons.1 h
    rw [List.mapM_cons]
    refine Follows.bind ((looks_readInput _ _).bind fun _ => looks_pure _) ?_ fun _ _ => ?_
    · exact hfile.bind (looks_readInput _ _) fun _ _ => follows_pure _
    · exact (ih hfiles).bind (looks_loadDocFiles files) fun _ _ => follows_pure _

variable [YamlReader]

theorem follows_loadRequest {st : Settings}
    (hnames : ∀ path, st.names = some path → Follows s t (readInput .names path))
    (hdocs : ∀ path, st.docs = some path → Follows s t (loadDocs path)) :
    Follows s t (loadRequest st) := by
  have hrest (names : Option (List String)) : Follows s t (match st.docs with
      | some path => do
        let docs ← loadDocs path
        pure { names, docs, privateStart := st.privateStart }
      | none => do
        let docs ← pure .empty
        pure { names, docs, privateStart := st.privateStart : Request }) := by
    split
    · rename_i path hpath
      exact (hdocs path hpath).bind (looks_loadDocs _) fun _ _ => follows_pure _
    · exact (follows_pure _).bind (looks_pure _) fun _ _ => follows_pure _
  unfold loadRequest
  dsimp only
  split
  · rename_i path hpath
    rw [← bind_pure_comp, bind_assoc]
    refine Follows.bind (looks_loadNames _) ?_ fun names _ => hrest (some names)
    exact (hnames path hpath).bind (looks_readInput _ _) fun _ _ => follows_pure _
  · exact (follows_pure _).bind (looks_pure _) fun names _ => hrest names

theorem follows_build {st : Settings} (hregistry : Follows s t (readInput .registry st.registry))
    (hnames : ∀ path, st.names = some path → Follows s t (readInput .names path))
    (hdocs : ∀ path, st.docs = some path → Follows s t (loadDocs path)) :
    Follows s t (build st) :=
  (follows_loadRegistry hregistry).bind (looks_loadRegistry _) fun _ _ =>
    (follows_loadRequest hnames hdocs).bind (looks_loadRequest _) fun _ _ => follows_mk _

theorem follows_prepare {o : Options} (hsettle : Follows s t (settle o))
    (hbuild : ∀ st, outcome (settle o) s = .ok st → Follows s t (build st)) :
    Follows s t (prepare o) := by
  rw [prepare_eq]
  exact hsettle.bind (looks_settle _) fun st hst =>
    (hbuild st hst).bind (looks_build _) fun _ _ => follows_pure _

/-- What a run prepares: settings, and the module that they ask for. -/
theorem outcome_prepare_eq_ok_iff {o : Options} {st : Settings} {g : Generated} :
    outcome (prepare o) s = .ok (st, g) ↔
      outcome (settle o) s = .ok st ∧ outcome (build st) s = .ok g := by
  rw [prepare_eq, (looks_settle o).outcome_bind, bind_ok_iff]
  constructor
  · rintro ⟨st', hst, h⟩
    rw [(looks_build st').outcome_bind] at h
    obtain ⟨g', hg, h⟩ := bind_ok_iff.1 h
    cases h
    exact ⟨hst, hg⟩
  · rintro ⟨hst, hg⟩
    refine ⟨st, hst, ?_⟩
    rw [(looks_build st).outcome_bind, hg]
    rfl

end

end Command

end OpStubs
