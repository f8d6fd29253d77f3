import OpStubs.Proofs.Command.Looking
import OpStubs.Proofs.Disk

namespace OpStubs.Command

open FileSystem

/-- Whether a run fails while it puts its output in place. -/
def Failure.ofOutput : Failure → Bool
  | noFolder _ | unwritable .. => true
  | _ => false

/-- What a run reports by what comes of it. -/
def reportOf : Except Failure Report → Report
  | .ok report => report
  | .error f => { status := 1, stderr := f.report }

section
variable {σ : Type} [Files (StateM σ)] [YamlReader]

theorem run_generate {args : List String} {o : Options}
    (h : Invocation.ofArguments args = .generate o) (s : σ) :
    (run args : StateM σ Report).run s =
      (reportOf (outcome (runGenerate o) s), after (runGenerate o) s) := by
  rw [run, h]
  dsimp only
  rw [StateT.run_bind, outcome, after]
  cases (runGenerate o : ExceptT Failure (StateM σ) Report).run.run s with
  | mk r s' => cases r <;> rfl

theorem run_idle {args : List String} (h : ∀ o, Invocation.ofArguments args ≠ .generate o) (s : σ) :
    ((run args : StateM σ Report).run s).2 = s := by
  rw [run]
  cases hargs : Invocation.ofArguments args with
  | generate o => exact absurd hargs (h o)
  | help => rfl
  | version => rfl
  | misuse => rfl

end

/-- Makes the folders that an output file needs. -/
def makeRoom {m : Type → Type} [Monad m] [Files m] (path : String) : ExceptT Failure m Unit :=
  match Path.parent? path with
  | some folder => orFail .noFolder (Files.makeFolder folder)
  | none => pure ()

/-- What a run says that has written its output. -/
def written (path : String) (g : Generated) : Report where
  status := 0
  stdout := "generated " ++ toString g.functions.length ++ " operations -> " ++ path ++ "\n"

theorem writeOutput_eq {m : Type → Type} [Monad m] [LawfulMonad m] [Files m] (path : String)
    (g : Generated) : (writeOutput path g : ExceptT Failure m Report) = do
      makeRoom path
      orFail (.unwritable path) (Files.write path g.code.toUTF8)
      return written path g := by
  rw [writeOutput, makeRoom]
  cases Path.parent? path with
  | some folder => rfl
  | none =>
    dsimp only
    rw [pure_bind]
    rfl

theorem outcome_orFail_error {σ α : Type} {failure : FileError → Failure} {f : Failure} {s : σ}
    {y : StateM σ (Except FileError α)} (h : outcome (orFail failure y) s = .error f) :
    ∃ e, (y.run s).1 = .error e ∧ f = failure e := by
  change (y.run s).1.mapError failure = .error f at h
  cases hy : (y.run s).1 with
  | error e =>
    rw [hy] at h
    cases h
    exact ⟨e, rfl, rfl⟩
  | ok a =>
    rw [hy] at h
    cases h

theorem ofOutput_makeRoom {σ : Type} [Files (StateM σ)] {s : σ} {f : Failure} {path : String}
    (h : outcome (makeRoom path) s = .error f) :
    f.ofOutput = true := by
  rw [makeRoom] at h
  split at h
  · obtain ⟨e, -, rfl⟩ := outcome_orFail_error h
    rfl
  · cases h

theorem writeOutput_ok {σ : Type} [Files (StateM σ)] {s : σ} {path : String} {g : Generated}
    {report : Report} (h : outcome (writeOutput path g) s = .ok report) :
    report = written path g := by
  rw [writeOutput_eq, outcome_bind] at h
  obtain ⟨-, -, h⟩ := bind_ok_iff.1 h
  rw [outcome_bind] at h
  obtain ⟨-, -, h⟩ := bind_ok_iff.1 h
  cases h
  rfl

section
variable {σ : Type} [Files (StateM σ)] [FileSystem σ] {s : σ} {f : Failure}

theorem content?_makeRoom (path : String) (s : σ) :
    content? (after (makeRoom path) s) = content? s := by
  rw [makeRoom]
  split
  · exact content?_makeFolder _ s
  · rfl

/-- Where the output cannot be put in place, the files are as before. -/
theorem writeOutput_error {path : String} {g : Generated}
    (h : outcome (writeOutput path g) s = .error f) :
    f.ofOutput = true ∧ content? (after (writeOutput path g) s) = content? s := by
  rw [writeOutput_eq] at h ⊢
  rw [outcome_bind] at h
  cases hroom : outcome (makeRoom path) s with
  | error e =>
    rw [hroom] at h
    cases h
    rw [after_bind_error hroom]
    exact ⟨ofOutput_makeRoom hroom, content?_makeRoom path s⟩
  | ok u =>
    rw [hroom] at h
    change outcome (_ >>= _) _ = _ at h
    rw [outcome_bind] at h
    rw [after_bind_ok hroom]
    cases hwrite : outcome (orFail (.unwritable path) (Files.write path g.code.toUTF8))
        (after (makeRoom path) s) with
    | error e =>
      rw [hwrite] at h
      cases h
      obtain ⟨e, he, rfl⟩ := outcome_orFail_error hwrite
      rw [after_bind_error hwrite]
      exact ⟨rfl, (content?_write he).trans (content?_makeRoom path s)⟩
    | ok u =>
      rw [hwrite] at h
      cases h

variable [YamlReader]

/-- What a run does with the module that it has prepared. -/
theorem runGenerate_prepared {o : Options} {st : Settings} {g : Generated}
    (h : outcome (prepare o) s = .ok (st, g)) :
    outcome (runGenerate o) s =
        outcome (if o.check then check st.output g.code else writeOutput st.output g) s ∧
      after (runGenerate o) s =
        after (if o.check then check st.output g.code else writeOutput st.output g) s := by
  rw [runGenerate, (looks_prepare o).outcome_bind, after_bind_ok h, looks_prepare, h]
  exact ⟨rfl, rfl⟩

theorem runGenerate_unprepared {o : Options} (h : outcome (prepare o) s = .error f) :
    outcome (runGenerate o) s = .error f ∧ after (runGenerate o) s = s := by
  rw [runGenerate, (looks_prepare o).outcome_bind, after_bind_error h, looks_prepare, h]
  exact ⟨rfl, rfl⟩

/-- What a run does that does not end well: it fails before the output is put in place, or at that,
or else it finds the output out of date. -/
theorem runGenerate_failed {o : Options} (h : (reportOf (outcome (runGenerate o) s)).status ≠ 0) :
    content? (after (runGenerate o) s) = content? s ∧
    ((∀ f, outcome (runGenerate o) s = .error f → f.ofOutput = false) →
      after (runGenerate o) s = s) := by
  cases hprepare : outcome (prepare o) s with
  | error f =>
    rw [(runGenerate_unprepared hprepare).2]
    exact ⟨rfl, fun _ => rfl⟩
  | ok p =>
    obtain ⟨settings, g⟩ := p
    obtain ⟨houtcome, hafter⟩ := runGenerate_prepared hprepare
    rw [houtcome] at h ⊢
    rw [hafter]
    split
    · rw [looks_check]
      exact ⟨rfl, fun _ => rfl⟩
    · rename_i hcheck
      rw [if_neg hcheck] at h
      cases hwrite : outcome (writeOutput settings.output g) s with
      | error f =>
        obtain ⟨hf, hfiles⟩ := writeOutput_error hwrite
        refine ⟨hfiles, fun hnot => ?_⟩
        rw [hnot f rfl] at hf
        cases hf
      | ok report =>
        rw [hwrite, writeOutput_ok hwrite] at h
        exact absurd rfl h

/-- A run that fails leaves every file as it was. It makes no folder either, unless it fails while it
puts its output in place. -/
theorem failed_run_keeps_files (args : List String) (s : σ)
    (h : ((run args : StateM σ Report).run s).1.status ≠ 0) :
    content? ((run args : StateM σ Report).run s).2 = content? s ∧
    ((∀ o f, Invocation.ofArguments args = .generate o → outcome (runGenerate o) s = .error f →
        f.ofOutput = false) →
      ((run args : StateM σ Report).run s).2 = s) := by
  by_cases hargs : ∃ o, Invocation.ofArguments args = .generate o
  · obtain ⟨o, ho⟩ := hargs
    rw [run_generate ho] at h ⊢
    obtain ⟨hfiles, hfolders⟩ := runGenerate_failed h
    exact ⟨hfiles, fun hnot => hfolders fun f => hnot o f ho⟩
  · rw [run_idle fun o ho => hargs ⟨o, ho⟩]
    exact ⟨rfl, fun _ => rfl⟩

end

/-- The content of the file that stands somewhere on a disk. -/
def contentOn (d : Disk) (loc : Location) : Option ByteArray :=
  match d.get? loc with
  | some (.file content) => some content
  | _ => none

theorem contentOn_addsFolders {d d' : Disk} (h : d.AddsFolders d') : contentOn d' = contentOn d := by
  induction h with
  | refl => rfl
  | @put _ loc _ hnone ih =>
    rw [← ih]
    funext other
    rw [contentOn, contentOn, Disk.get?_put _ _ _ (Disk.ne_nil_of_get? hnone)]
    by_cases h : other = loc
    · rw [if_pos h, h, hnone]
    · rw [if_neg h]

theorem write_run (path : String) (content : ByteArray) (d : Disk) :
    (Files.write path content : StateM Disk _).run d = match d.write path content with
      | .ok d' => (.ok (), d')
      | .error e => (.error e, d) := rfl

instance : FileSystem Disk where
  content? := contentOn
  read_run _ _ := rfl
  isFile_run _ _ := rfl
  isFolder_run _ _ := rfl
  list_run _ _ := rfl
  content?_makeFolder path d := by
    exact contentOn_addsFolders (d.addsFolders_makeFolder path)
  content?_write {path content d e} h := by
    rw [write_run] at h ⊢
    cases hwrite : d.write path content with
    | ok d' =>
      rw [hwrite] at h
      cases h
    | error e => rfl

/-- An empty registry, and an output path on which a file stands in the way behind a folder that is
missing. -/
def blockedDisk : Disk := {
  entries := [(["work"], .folder), (["work", "ops.txt"], .file "".toUTF8),
    (["work", "old"], .file "x".toUTF8)]
  workFolder := ["work"] }

def blockedArguments : List String :=
  ["generate", "--registry", "ops.txt", "-o", "new/../old/raw_ops.lua"]

/-- Arguments that take a file for a registry that is none. -/
def misnamedArguments : List String := ["generate", "--registry", "old", "-o", "raw_ops.lua"]

def misnamedOptions : Options where
  overrides := { registry := some "old", output := some "raw_ops.lua" }

/-- The first run has made a folder on the way, the second one has done nothing. -/
theorem failed_run_keeps_files_blockedDisk :
    (((run blockedArguments : StateM Disk Report).run blockedDisk).1.status ≠ 0 ∧
      ((run blockedArguments : StateM Disk Report).run blockedDisk).2.isFolderAt
        ["work", "new"] = true ∧
      content? ((run blockedArguments : StateM Disk Report).run blockedDisk).2 =
        content? blockedDisk) ∧
    ((run misnamedArguments : StateM Disk Report).run blockedDisk).1.status ≠ 0 ∧
      ((run misnamedArguments : StateM Disk Report).run blockedDisk).2 = blockedDisk := by
  have hblocked : ((run blockedArguments : StateM Disk Report).run blockedDisk).1.status ≠ 0 := by
    decide +kernel
  have hmisnamed :
      ((run misnamedArguments : StateM Disk Report).run blockedDisk).1.status ≠ 0 := by
    decide +kernel
  have hfailure : (match outcome (runGenerate misnamedOptions) blockedDisk with
      | .error f => f.ofOutput
      | .ok _ => false) = false := by
    decide +kernel
  refine ⟨⟨hblocked, by decide +kernel, (failed_run_keeps_files _ _ hblocked).1⟩, hmisnamed,
    (failed_run_keeps_files _ _ hmisnamed).2 ?_⟩
  intro o f ho hf
  have hoptions : Invocation.ofArguments misnamedArguments = .generate misnamedOptions := by decide
  rw [hoptions] at ho
  cases ho
  rwa [hf] at hfailure

end OpStubs.Command
