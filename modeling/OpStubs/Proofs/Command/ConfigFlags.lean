import OpStubs.Proofs.Command.Checking
import OpStubs.Proofs.TextParts

namespace OpStubs

theorem Config.empty_override (c : Config) : ({} : Config).override c = c := by
  simp [Config.override]

namespace Command

/-- The long name of an option that takes a value. -/
def Key.name : Key → String
  | config => "config"
  | registry => "registry"
  | docs => "docs"
  | names => "names"
  | output => "output"
  | privateStart => "private-prefix"

/-- The options that are settings of a run. -/
def Key.settings : List Key := [registry, docs, names, output, privateStart]

/-- An option and its value as one argument. -/
def Key.flag (key : Key) (value : String) : String := "--" ++ key.name ++ "=" ++ value

/-- The settings that have values as arguments. -/
def flags (value : Key → Option String) : List String :=
  Key.settings.filterMap fun key => (value key).map key.flag

/-- The switches of a run as arguments. -/
def switches (o : Options) : List String :=
  (if o.check then ["--check"] else []) ++ if o.verbose then ["--verbose"] else []

/-- What some values say in place of a config file. -/
def configOf (value : Key → Option String) : Config where
  registry := value .registry
  docs := value .docs
  names := value .names
  output := value .output
  privateStart := value .privateStart

theorem said_flag (key : Key) (value : String) :
    said (key.flag value) = ([.value key value], none) := by
  have hcut : Text.cut '=' (key.name.toList ++ '=' :: value.toList) =
      some (key.name.toList, value.toList) := Text.cut_append (by cases key <;> decide) _
  have hmeaning : meaning? key.name = some (.key key) := by cases key <;> rfl
  have hflag : (key.flag value).toList =
      '-' :: '-' :: (key.name.toList ++ '=' :: value.toList) := by
    simp [Key.flag]
  rw [said, hflag]
  change longOption (key.name.toList ++ '=' :: value.toList) = _
  rw [longOption, hcut]
  simp only [String.ofList_toList, hmeaning]

theorem items_flag (key : Key) (value : String) (rest : List String) :
    items (key.flag value :: rest) = .value key value :: items rest := by
  have hne : key.flag value ≠ "--" := by
    intro h
    have hsaid := said_flag key value
    rw [h] at hsaid
    cases hsaid
  rw [items, if_neg hne, said_flag]
  rfl

theorem items_flags (value : Key → Option String) :
    items (flags value) = Key.settings.filterMap fun key => (value key).map (.value key) := by
  rw [flags]
  generalize Key.settings = keys
  induction keys with
  | nil => rfl
  | cons key keys ih =>
    cases hvalue : value key with
    | none =>
      rw [List.filterMap_cons_none (by rw [hvalue]; rfl),
        List.filterMap_cons_none (by rw [hvalue]; rfl), ih]
    | some v =>
      rw [List.filterMap_cons_some (by rw [hvalue]; rfl),
        List.filterMap_cons_some (by rw [hvalue]; rfl), items_flag, ih]

theorem Options.get_set {key key' : Key} (o : Options) (value : String) (h : key' ≠ key) :
    (o.set key value).get key' = o.get key' := by
  cases key <;> cases key' <;> first | rfl | exact absurd rfl h

/-- Takes over the values of some options that are not set yet. -/
theorem foldlM_take_values {value : Key → Option String} {keys : List Key} (hkeys : keys.Nodup)
    (hvalue : ∀ key ∈ keys, key ≠ .privateStart → value key ≠ some "") {o : Options}
    (hfree : ∀ key ∈ keys, o.get key = none) :
    (keys.filterMap fun key => (value key).map (Item.value key)).foldlM Options.take o =
      .ok (keys.foldl (fun o key => (value key).elim o (o.set key)) o) := by
  induction keys generalizing o with
  | nil => rfl
  | cons key keys ih =>
    obtain ⟨hnot, hrest⟩ := List.nodup_cons.1 hkeys
    obtain ⟨hone, hvalues⟩ := List.forall_mem_cons.1 hvalue
    obtain ⟨hget, hgets⟩ := List.forall_mem_cons.1 hfree
    rw [List.foldl_cons]
    cases hv : value key with
    | none =>
      rw [List.filterMap_cons_none (by rw [hv]; rfl)]
      exact ih hrest hvalues hgets
    | some v =>
      have htake : o.take (.value key v) = .ok (o.set key v) := by
        rw [Options.take, hget, if_neg]
        rintro (h | ⟨rfl, hkey⟩)
        · cases h
        · exact hone hkey hv
      rw [List.filterMap_cons_some (by rw [hv]; rfl), List.foldlM_cons, htake]
      refine ih hrest hvalues fun key' hkey' => ?_
      rw [Options.get_set o v (by rintro rfl; exact hnot hkey')]
      exact hgets key' hkey'

theorem foldl_settings (value : Key → Option String) (check verbose : Bool) :
    Key.settings.foldl (fun (o : Options) key => (value key).elim o (o.set key))
      { check, verbose } = { overrides := configOf value, check, verbose } := by
  simp only [Key.settings, List.foldl_cons, List.foldl_nil, configOf]
  cases value .registry <;> cases value .docs <;> cases value .names <;> cases value .output <;>
    cases value .privateStart <;> rfl

/-- What the switches of a run say, where nothing is said before. -/
theorem foldlM_take_switches (o : Options) : (items (switches o)).foldlM Options.take {} =
    .ok { check := o.check, verbose := o.verbose } := by
  rw [switches]
  cases o.check <;> cases o.verbose <;> rfl

theorem isComplete_switches (o : Options) : IsComplete (switches o) := by
  have hcheck : IsComplete ["--check"] := isComplete_switch (by decide) (by decide)
  have hverbose : IsComplete ["--verbose"] := isComplete_switch (by decide) (by decide)
  have hnone : IsComplete [] := fun _ => rfl
  rw [switches]
  refine IsComplete.append ?_ ?_
  · cases o.check
    · exact hnone
    · exact hcheck
  · cases o.verbose
    · exact hnone
    · exact hverbose

/-- Settings that are written as arguments are read back. -/
theorem ofArguments_flags (o : Options) {value : Key → Option String}
    (hvalue : ∀ key ∈ Key.settings, key ≠ .privateStart → value key ≠ some "") :
    Options.ofArguments (switches o ++ flags value) =
      .ok { overrides := configOf value, check := o.check, verbose := o.verbose } := by
  have hvalues := foldlM_take_values (by decide) hvalue
    (o := { check := o.check, verbose := o.verbose }) fun key _ => by cases key <;> rfl
  rw [Options.ofArguments, isComplete_switches, List.foldlM_append, foldlM_take_switches,
    items_flags]
  exact hvalues.trans (congrArg _ (foldl_settings ..))

/-- What a config file says about a setting. -/
def fileValue (file : Config) : Key → Option String
  | .config => none
  | .registry => file.registry
  | .docs => file.docs
  | .names => file.names
  | .output => file.output
  | .privateStart => file.privateStart

/-- A setting as the config file `path` means it: a relative path starts at the folder of the
file. -/
def resolve (path : String) (key : Key) (value : String) : String :=
  if key = .privateStart ∨ Path.isAbsolute value then value
  else Path.join ((Path.parent? path).getD "") value

/-- A setting of a run with the config file `path`: what the options say, or else the file. -/
def settingOf (o : Options) (path : String) (file : Config) (key : Key) : Option String :=
  o.get key <|> (fileValue file key).map (resolve path key)

theorem resolve_path (path : String) (key : Key) (hkey : key ≠ .privateStart) :
    resolve path key = Path.join ((Path.parent? path).getD "") := by
  funext value
  rw [resolve]
  by_cases habs : Path.isAbsolute value = true
  · rw [if_pos (.inr habs), Path.join_of_isAbsolute habs]
  · rw [if_neg (by simp [hkey, habs])]

theorem resolve_privateStart (path : String) : resolve path .privateStart = id :=
  funext fun _ => if_pos (.inl rfl)

/-- The settings of a run are those of its config file, as far as its options say nothing. -/
theorem configOf_settingOf (o : Options) (path : String) (file : Config) :
    configOf (settingOf o path file) =
      (file.relativeTo ((Path.parent? path).getD "")).override o.overrides := by
  rw [configOf]
  simp only [settingOf, resolve_path path .registry (by decide),
    resolve_path path .docs (by decide), resolve_path path .names (by decide),
    resolve_path path .output (by decide), resolve_privateStart, Option.map_id]
  rfl

section
variable {σ : Type} [Files (StateM σ)] [FileSystem σ] {s : σ}

theorem outcome_loadConfig {path text : String} {file : Config}
    (hread : ((Files.read path : StateM σ _).run s).1 = .ok text.toUTF8)
    (hfile : Config.ofToml? text = some file) :
    outcome (loadConfig path) s = .ok (file.relativeTo ((Path.parent? path).getD "")) := by
  rw [loadConfig, (looks_readInput _ _).outcome_bind, outcome_readInput, hread, textOf_toUTF8]
  dsimp only [Bind.bind, Except.bind, Except.mapError]
  rw [hfile]
  rfl

variable [YamlReader]

/-- A run goes by its settings, wherever they come from. -/
theorem run_of_settle {args args' : List String} {o o' : Options}
    (hargs : Invocation.ofArguments args = .generate o)
    (hargs' : Invocation.ofArguments args' = .generate o') (hcheck : o.check = o'.check)
    (hsettle : outcome (settle o) s = outcome (settle o') s) :
    (run args : StateM σ Report).run s = (run args' : StateM σ Report).run s := by
  have hprepare : outcome (prepare o) s = outcome (prepare o') s := by
    rw [prepare_eq, prepare_eq, (looks_settle o).outcome_bind, (looks_settle o').outcome_bind,
      hsettle]
  rw [run_generate hargs, run_generate hargs']
  cases hp : outcome (prepare o') s with
  | error f =>
    obtain ⟨hresult, hleft⟩ := runGenerate_unprepared (hprepare.trans hp)
    obtain ⟨hresult', hleft'⟩ := runGenerate_unprepared hp
    rw [hresult, hleft, hresult', hleft']
  | ok p =>
    obtain ⟨st, g⟩ := p
    obtain ⟨hresult, hleft⟩ := runGenerate_prepared (hprepare.trans hp)
    obtain ⟨hresult', hleft'⟩ := runGenerate_prepared hp
    rw [hresult, hleft, hresult', hleft', hcheck]

/-- A run with a config file is the run without one that is given the settings of both as
arguments. -/
theorem config_as_flags {args : List String} {o : Options} {path text : String} {file : Config}
    (hargs : Invocation.ofArguments ("generate" :: args) = .generate o)
    (hconfig : o.config = some path)
    (hread : ((Files.read path : StateM σ _).run s).1 = .ok text.toUTF8)
    (hfile : Config.ofToml? text = some file)
    (hdefault : ((Files.isFile Config.defaultFile : StateM σ _).run s).1 = false)
    (hpaths : ∀ key ∈ Key.settings, key ≠ .privateStart → settingOf o path file key ≠ some "") :
    (run ("generate" :: args) : StateM σ Report).run s =
      (run ("generate" :: (switches o ++ flags (settingOf o path file))) : StateM σ Report).run s := by
  have hwritten := ofArguments_flags o hpaths
  refine run_of_settle hargs (ofArguments_generate.2 hwritten) rfl ?_
  have hloaded : outcome (discoverConfig o.config) s =
      .ok (file.relativeTo ((Path.parent? path).getD "")) := by
    rw [hconfig]
    exact outcome_loadConfig hread hfile
  have hnone : outcome (discoverConfig none) s = .ok {} := by
    rw [discoverConfig, (looks_liftM (FileSystem.isFile_run _)).outcome_bind]
    change outcome (if ((Files.isFile Config.defaultFile : StateM σ _).run s).1 = true then _
      else _) s = _
    rw [hdefault]
    rfl
  rw [settle, settle, (looks_discoverConfig _).outcome_bind, (looks_discoverConfig _).outcome_bind,
    hloaded, hnone, configOf_settingOf]
  change _ = outcome (ExceptT.mk (pure ((({} : Config).override _).settings.mapError .missing))) s
  rw [Config.empty_override]
  rfl

end

/-- A config file with paths of both kinds. -/
def projectConfig : String :=
  "registry = \"ops.txt\"\nnames = \"/names\"\noutput = \"raw_ops.lua\"\nprivate_prefix = \"__\"\n"

/-- A folder with a config file and a registry, and the operations beside it. -/
def projectDisk : Disk where
  entries := [(["conf"], .folder), (["names"], .file "NoOp\n".toUTF8),
    (["conf", "opgen.toml"], .file projectConfig.toUTF8),
    (["conf", "ops.txt"], .file "op \x7b name: \"NoOp\" \x7d\n".toUTF8)]

/-- The file gives a relative path and an absolute one, and an option takes the place of another. -/
theorem config_as_flags_project :
    runOn ["generate", "-o", "lua/raw_ops.lua", "--config", "conf/opgen.toml"] projectDisk =
      runOn ["generate", "--registry=conf/ops.txt", "--names=/names", "--output=lua/raw_ops.lua",
        "--private-prefix=__"] projectDisk ∧
    (runOn ["generate", "-o", "lua/raw_ops.lua", "--config", "conf/opgen.toml"]
      projectDisk).1.status = 0 := by
  have hargs : Invocation.ofArguments
      ["generate", "-o", "lua/raw_ops.lua", "--config", "conf/opgen.toml"] = .generate {
        config := some "conf/opgen.toml", overrides := { output := some "lua/raw_ops.lua" } } := by
    decide
  have hfile : Config.ofToml? projectConfig = some {
      registry := some "ops.txt", names := some "/names", output := some "raw_ops.lua"
      privateStart := some "__" } := by
    decide +kernel
  have hsame := config_as_flags (s := projectDisk) hargs rfl rfl hfile rfl (by decide)
  exact ⟨hsame, by decide +kernel⟩

end Command

end OpStubs
