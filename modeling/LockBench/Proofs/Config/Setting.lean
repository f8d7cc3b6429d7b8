import LockBench.Proofs.Config.Changing
import LockBench.Proofs.Config.Saved
import LockBench.Proofs.Session.Notes
import LockBench.Task.Configure

/-!
# Setting a value is all or nothing

Setting a value loads the configuration, changes it and saves it.  Where it
succeeds, the value of the key is the one that the text stands for, and nothing
else of the configuration has changed.  Where it does not, because what is
stored is no configuration or because the key has no such value, no file has
changed.
-/

namespace LockBench
namespace Config

/-! ## What is stored -/

/-- What is stored under a path of a machine: nothing is configured where the
path leads nowhere, and a file holds a configuration, another text or no text
at all. -/
inductive Stored
    (machine : Machine)
    (path : Path) : Except Failure Config -> Prop
  | absent
      (nowhere : ∀ location node,
        ¬machine.tree.Leads machine.workingDir path location node) :
      Stored machine path (.ok {})
  | configured
      {location : Location}
      {content : ByteArray}
      {executable : Bool}
      {text : String}
      {config : Config}
      (leads : machine.tree.Leads machine.workingDir path location
        (.file content executable))
      (isText : String.fromUTF8? content = some text)
      (holds : ofText? text = some config) : Stored machine path (.ok config)
  | malformed
      {location : Location}
      {content : ByteArray}
      {executable : Bool}
      {text : String}
      (leads : machine.tree.Leads machine.workingDir path location
        (.file content executable))
      (isText : String.fromUTF8? content = some text)
      (holdsNone : ofText? text = none) :
      Stored machine path (.error .unreadable)
  | undecodable
      {location : Location}
      {content : ByteArray}
      {executable : Bool}
      (leads : machine.tree.Leads machine.workingDir path location
        (.file content executable))
      (noText : String.fromUTF8? content = none) :
      Stored machine path (.error (.io .notText))

section Storing

variable {machine : Machine} {path : Path}
  {loaded : Except Failure Config}

/-- A path that can be written to leads to no directory. -/
theorem IsWritable.not_directory
    (writable : IsWritable machine path)
    (location : Location) :
    ¬machine.tree.Leads machine.workingDir path location .directory := by
  intro leads
  obtain ⟨made, content, after, madeDirs, written⟩ := writable
  obtain ⟨place, _, placed, noDirectory, _⟩ := FileTree.write_eq_ok written
  have grows : machine.tree.Grows made := by
    rw [madeAbove] at madeDirs
    split at madeDirs
    · cases madeDirs
      exact fun _ _ => id
    · exact FileTree.grows_of_makeDirs madeDirs
  apply noDirectory
  rw [FileTree.place_eq_follow placed, ← leads.place_eq]
  exact grows location .directory leads.present

/-- Something is stored under a path that can be written to. -/
theorem exists_stored
    (writable : IsWritable machine path) :
    ∃ loaded, Stored machine path loaded := by
  cases found : machine.tree.find machine.workingDir path with
  | error cause =>
      refine ⟨_, .absent fun location node leads => ?_⟩
      rw [← FileTree.find_eq_ok_iff, found] at leads
      cases leads
  | ok reached =>
      obtain ⟨location, node⟩ := reached
      have leads := (FileTree.find_eq_ok_iff _ _ _ _ _).mp found
      cases node with
      | directory => exact absurd leads (writable.not_directory location)
      | file content executable =>
          cases decoded : String.fromUTF8? content with
          | none => exact ⟨_, .undecodable leads decoded⟩
          | some text =>
              cases read : ofText? text with
              | none => exact ⟨_, .malformed leads decoded read⟩
              | some config => exact ⟨_, .configured leads decoded read⟩

/-- What is stored is what is loaded, and loading changes nothing. -/
theorem runOn_loadFrom_of_stored
    (stored : Stored machine path loaded) :
    (loadFrom path).runOn machine = (loaded, machine) := by
  rw [loadFrom, Action.runOn_bind]
  cases stored with
  | absent nowhere =>
      rw [Action.runOn_pathExists_of_nowhere nowhere]
      rfl
  | configured leads isText holds =>
      rw [Action.runOn_pathExists leads]
      simp only [if_true]
      rw [Action.runOn_bind, Action.runOn_readText_of_leads leads, isText]
      simp only [holds]
      rfl
  | malformed leads isText holdsNone =>
      rw [Action.runOn_pathExists leads]
      simp only [if_true]
      rw [Action.runOn_bind, Action.runOn_readText_of_leads leads, isText]
      simp only [holdsNone]
      rfl
  | undecodable leads noText =>
      rw [Action.runOn_pathExists leads]
      simp only [if_true]
      rw [Action.runOn_bind, Action.runOn_readText_of_leads leads, noText]
      rfl

/-! ## Where the configuration is -/

/-- A request for a variable. -/
def AsksVariable (request : Request) : Prop :=
  ∃ name, request = .variable name

/-- What an action finds that asks for variables only depends on nothing
else. -/
theorem runOn_of_variables
    {action : Action α}
    (asks : action.AsksOnly AsksVariable)
    {other : Machine}
    (same : other.environment = machine.environment) :
    action.runOn other = ((action.runOn machine).1, other) := by
  induction action with
  | done result => rfl
  | ask request next inductionHypothesis =>
      obtain ⟨name, rfl⟩ := asks.1
      have answer_eq : other.environment.lookup name =
          machine.environment.lookup name := by rw [same]
      change (next (other.environment.lookup name)).runOn other = _
      rw [answer_eq]
      exact inductionHypothesis _ (asks.2 _)

theorem asksOnly_userDir?
    (named belowHome : String) :
    (userDir? named belowHome).AsksOnly AsksVariable := by
  have asks : ∀ name, (Action.environment name).AsksOnly AsksVariable :=
    fun name => Action.asksOnly_request ⟨name, rfl⟩
  have falls : (userDir?.fallback belowHome).AsksOnly AsksVariable := by
    refine (asks "HOME").bind ?_
    rintro (_ | home)
    · exact Action.asksOnly_pure _
    · dsimp only
      split <;> exact Action.asksOnly_pure _
  refine (asks named).bind ?_
  rintro (_ | text)
  · exact falls
  · dsimp only
    split
    · exact Action.asksOnly_pure _
    · exact falls

theorem asksOnly_path? : path?.AsksOnly AsksVariable := by
  refine (Action.asksOnly_request ⟨pathVariable, rfl⟩).bind fun named => ?_
  dsimp only
  split
  · refine (asksOnly_userDir? _ _).bind ?_
    rintro (_ | dir) <;> exact Action.asksOnly_pure _
  · exact Action.asksOnly_pure _

/-- Where the configuration is depends on variables only. -/
theorem runOn_path?
    {other : Machine}
    (same : other.environment = machine.environment) :
    path?.runOn other = ((path?.runOn machine).1, other) :=
  runOn_of_variables asksOnly_path? same

/-- Loading the configuration is loading it from where it is. -/
theorem runOn_load
    (located : (path?.runOn machine).1 = .ok path) :
    load.runOn machine = (loadFrom path).runOn machine := by
  rw [load, Action.runOn_bind, runOn_path? (Eq.refl machine.environment),
    located]

/-- Saving to a path that can be written to succeeds, and the path leads to the
text of the configuration then. -/
theorem runOn_save
    (located : (path?.runOn machine).1 = .ok path)
    (writable : IsWritable machine path)
    (config : Config) :
    ∃ after location executable,
      config.save.runOn machine = (.ok path, after) ∧
        after.Finds machine.environment machine.workingDir path location
          (.file config.toText.toUTF8 executable) := by
  obtain ⟨made, content, other, madeDirs, takesOther⟩ := writable
  obtain ⟨location, executable, placed, noDirectory, noSlash, takes⟩ :=
    FileTree.write_eq_ok takesOther
  have saved := config.runOn_saveTo madeDirs (takes config.toText.toUTF8)
  refine ⟨{ machine with
      tree := made.put location (.file config.toText.toUTF8 executable) },
    location, executable, ?_, rfl, rfl,
    FileTree.leads_put placed noDirectory noSlash _ executable⟩
  rw [save, Action.runOn_bind, runOn_path? (Eq.refl machine.environment),
    located]
  simp only
  rw [Action.runOn_bind, saved]
  rfl

/-- A configuration that is found where it was saved is loaded. -/
theorem runOn_load_of_finds
    {after : Machine}
    {location : Location}
    {executable : Bool}
    (located : (path?.runOn machine).1 = .ok path)
    (finds : after.Finds machine.environment machine.workingDir path location
      (.file config.toText.toUTF8 executable)) :
    (load.runOn after).1 = .ok config := by
  obtain ⟨environment_eq, workingDir_eq, leads⟩ := finds
  have locatedAfter : (path?.runOn after).1 = .ok path := by
    rw [runOn_path? environment_eq, located]
  rw [runOn_load locatedAfter, config.runOn_loadFrom (workingDir_eq ▸ leads)]

end Storing

end Config

namespace ConfigureTask

section Setting

variable {machine : Machine} {path : Path} {journal : Journal}
  {name text : String} {config : Config}

/-- Where nothing can be loaded, nothing is changed. -/
theorem runOn_update_of_unloaded
    {failure : Config.Failure}
    (load_eq : Config.load.runOn machine = (.error failure, machine)) :
    (update journal name text).run.runOn machine =
      (.error (.config failure), machine) := by
  rw [update, Action.runOn_run_bind, Action.runOn_attempt, load_eq]
  rfl

/-- Where the value is refused, nothing is changed. -/
theorem runOn_update_of_refused
    {refusal : Config.Refusal}
    (load_eq : Config.load.runOn machine = (.ok config, machine))
    (refused : config.update name text = .error refusal) :
    (update journal name text).run.runOn machine =
      (.error (.config (.refused refusal)), machine) := by
  rw [update, Action.runOn_run_bind, Action.runOn_attempt, load_eq]
  simp only [Except.mapError, refused]
  rfl

/-- The machine after a value was set, from the one on which the changed
configuration was saved. -/
def noted
    (journal : Journal)
    (name text : String)
    (path : Path)
    (saved : Machine) : Machine :=
  ((journal.note (.debug ("Saved config to " ++ path.text))).runOn
    ((journal.note (.success ("Set " ++ name ++ " = " ++ text))).runOn
      saved).2).2

/-- Where the value is set, the changed configuration is saved. -/
theorem runOn_update_of_changed
    {changed : Config}
    {saved : Machine}
    (load_eq : Config.load.runOn machine = (.ok config, machine))
    (isChanged : config.update name text = .ok changed)
    (save_eq : changed.save.runOn machine = (.ok path, saved)) :
    (update journal name text).run.runOn machine =
      (.ok (), noted journal name text path saved) := by
  rw [update, Action.runOn_run_bind, Action.runOn_attempt, load_eq]
  simp only [Except.mapError, isChanged]
  rw [Action.runOn_run_bind, Action.runOn_attempt, save_eq]
  simp only [Except.mapError]
  rw [Action.runOn_run_bind, Action.runOn_run_lift]
  exact Action.runOn_run_lift _ _

/-- Setting a value at a place that can be written to succeeds or changes
nothing.  Where it succeeds, and the log is not the very file, what is loaded
afterwards is what was loaded before, with the value of the key set and nothing
else changed; where it does not, what is stored was no configuration, or the
key has no such value. -/
theorem set_is_all_or_nothing
    (journal : Journal)
    (name text : String)
    (verbosity : Nat)
    (located : (Config.path?.runOn machine).1 = .ok path)
    (writable : Config.IsWritable machine path) :
    ∃ loaded, Config.Stored machine path loaded ∧
      Config.load.runOn machine = (loaded, machine) ∧
      let ended := ((ConfigureTask.set name text).perform journal
        verbosity).run.runOn machine
      (∃ config key changed, loaded = .ok config ∧ key.name = name ∧
        config.SetTo key text changed ∧ ended.1 = .ok () ∧
        ((∀ log ∈ journal.file, log.locationFrom machine.workingDir ≠
            path.locationFrom machine.workingDir) ->
          (Config.load.runOn ended.2).1 = .ok changed)) ∨
      ∃ failure, Config.Rejects name text loaded failure ∧
        ended = (.error (.config failure), machine) := by
  obtain ⟨loaded, stored⟩ := Config.exists_stored writable
  have load_eq : Config.load.runOn machine = (loaded, machine) := by
    rw [Config.runOn_load located, Config.runOn_loadFrom_of_stored stored]
  refine ⟨loaded, stored, load_eq, ?_⟩
  dsimp only [perform]
  cases loaded with
  | error failure =>
      exact .inr ⟨failure, .unloaded failure, runOn_update_of_unloaded load_eq⟩
  | ok config =>
      rcases config.update_cases name text with
        ⟨key, changed, isChanged, named, setTo⟩ | ⟨refusal, refused, rejects⟩
      · obtain ⟨saved, location, executable, save_eq, finds⟩ :=
          Config.runOn_save located writable changed
        rw [runOn_update_of_changed load_eq isChanged save_eq]
        refine .inl ⟨config, key, changed, rfl, named, setTo, rfl,
          fun apart => ?_⟩
        exact Config.runOn_load_of_finds located
          ((finds.note apart _).note apart _)
      · exact .inr ⟨_, rejects, runOn_update_of_refused load_eq refused⟩

end Setting

/-! ## Two runs -/

namespace Settings

/-- A machine with a configuration that holds a count and a binary. -/
def machine (path : String) : Machine where
  tree := ⟨[(["conf"], .directory),
    (["conf", "bench.toml"], .file
      "warmup = 3\n[tools]\nuv = [\"/opt/uv\"]\n".toUTF8 false)]⟩
  workingDir := []
  environment := [(Config.pathVariable, path)]
  behavior := fun _ => none
  time := "12:00:00"
  freshNames := []

/-- The log that is started in the directory of the configuration. -/
def log : Path := (Path.mk "/conf").join Journal.fileName

/-- A count is set, and what is done is noted in the log. -/
def ended (path : String) : Except Failure Unit × Machine :=
  ((ConfigureTask.set "warmup" " +7 ").perform { file := some log } 0).run.runOn
    (machine path)

end Settings

/-- Blanks and a sign around a count are passed over, and the binary stays. -/
theorem set_is_all_or_nothing_count :
    let machine := Settings.machine "/conf/bench.toml"
    let ended := Settings.ended "/conf/bench.toml"
    let changed : Config :=
      { warmup := some 7, tools := { uv := ["/opt/uv"] } }
    (Config.path?.runOn machine).1 = .ok ⟨"/conf/bench.toml"⟩ ∧
      Config.IsWritable machine ⟨"/conf/bench.toml"⟩ ∧
      (∀ log ∈ some Settings.log, log.locationFrom [] ≠
        (Path.mk "/conf/bench.toml").locationFrom []) ∧
      ∃ config, Config.Stored machine ⟨"/conf/bench.toml"⟩ (.ok config) ∧
        config.SetTo .warmup " +7 " changed ∧ ended.1 = .ok () ∧
        (Config.load.runOn ended.2).1 = .ok changed := by
  intro machine ended changed
  have located : (Config.path?.runOn machine).1 =
      .ok ⟨"/conf/bench.toml"⟩ := by
    decide +kernel
  have writable : Config.IsWritable machine ⟨"/conf/bench.toml"⟩ :=
    ⟨_, .empty, _, rfl, rfl⟩
  have apart : ∀ log ∈ some Settings.log, log.locationFrom [] ≠
      (Path.mk "/conf/bench.toml").locationFrom [] := by
    decide +kernel
  have isOk : ended.1 = .ok () := by decide +kernel
  have loads : (Config.load.runOn ended.2).1 = .ok changed := by
    decide +kernel
  refine ⟨located, writable, apart, ?_⟩
  obtain ⟨loaded, stored, -, isSet | ⟨failure, -, isNotSet⟩⟩ :=
    set_is_all_or_nothing { file := some Settings.log } "warmup" " +7 " 0
      located writable
  · obtain ⟨config, key, other, rfl, named, setTo, -, loadsOther⟩ := isSet
    obtain rfl : key = .warmup := Config.name_injective named
    obtain rfl : other = changed :=
      Except.ok.inj ((loadsOther apart).symm.trans loads)
    exact ⟨config, stored, setTo, isOk, loads⟩
  · have isNotOk := isOk.symm.trans (congrArg Prod.fst isNotSet)
    cases isNotOk

/-- Where the log that is started is the configuration file itself, a value is
set, but what is noted about it is no part of a configuration. -/
theorem set_is_not_all_or_nothing_in_log :
    let machine := Settings.machine Settings.log.text
    let ended := Settings.ended Settings.log.text
    ((Journal.start {} 0 ⟨"/conf"⟩).runOn machine).1 =
        (.ok Settings.log, { file := some Settings.log }) ∧
      (Config.path?.runOn machine).1 = .ok Settings.log ∧
      Config.IsWritable machine Settings.log ∧
      (Config.load.runOn machine).1 = .ok {} ∧ ended.1 = .ok () ∧
      (Config.load.runOn ended.2).1 = .error .unreadable := by
  intro machine ended
  have writable : Config.IsWritable machine Settings.log :=
    ⟨_, .empty, _, rfl, rfl⟩
  exact ⟨by decide +kernel, by decide +kernel, writable, by decide +kernel,
    by decide +kernel, by decide +kernel⟩

end ConfigureTask
end LockBench
