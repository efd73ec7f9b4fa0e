import MetricScript.Proofs.CommandLine.Rounds

/-!
# Restarts cannot be told

A script may be run repeatedly by one request, or by one request after the other with the same
pauses between them.  In the first case a round goes on with the store that the last one left; in
the second case it finds that store in the state file.  As long as stores are savable and their
numbers read back, these are the same, so both ways lead to the same workplace: the same lines
are printed and the same state is left.  The later requests also read the script and the settings
again, and find them as they were if the state file is neither of them.
-/

namespace MetricScript.CommandLine

/-- The same options for one round. -/
def RunOptions.once (options : RunOptions) : RunOptions :=
  { options with every := none, times := none }

namespace Workplace

/-- A round of a repeated run: where it begins and which store it leaves. -/
structure Stage where
  begins : Workplace
  left : Store

/-- The rounds of a repeated run, up to the first one that fails. -/
def stages (clockwork : Clockwork) (log : Log) (options : RunOptions) (path : String)
    (script : Script) (duration : Duration) : (rounds : Nat) → Store → Workplace → List Stage
  | 0, _, _ => []
  | rounds + 1, store, workplace =>
      match workplace.carryOut (round clockwork log options path script store) with
      | (.ok after, done) =>
          ⟨workplace, after⟩ :: stages clockwork log options path script duration rounds after
            ((clockwork.pause duration).run done).2
      | (.error _, _) => []

theorem stages_succ (clockwork : Clockwork) (log : Log) (options : RunOptions) (path : String)
    (script : Script) (duration : Duration) (rounds : Nat) (store : Store) (workplace : Workplace) :
    stages clockwork log options path script duration (rounds + 1) store workplace =
      match workplace.carryOut (round clockwork log options path script store) with
      | (.ok after, done) =>
          ⟨workplace, after⟩ :: stages clockwork log options path script duration rounds after
            ((clockwork.pause duration).run done).2
      | (.error _, _) => [] := (rfl)

/-- The rounds of a request to run a script repeatedly, if it comes to any. -/
def stagesOf (clockwork : Clockwork) (environment : String → Option String) (logging : LogOptions)
    (options : RunOptions) (path : String) (duration : Duration) (start : Workplace) :
    List Stage :=
  match LogFilter.choose logging.level (environment "RUST_LOG")
      (start.settings environment).logLevel,
    parsed (start.source options.script), loaded path (start.scene.files.read path) with
  | .ok filter, .ok script, .ok store =>
      stages clockwork ⟨none, filter⟩ (options.completed (start.settings environment)) path script
        duration options.rounds store start
  | _, _, _ => []

/-- Requests one after the other with a pause between them, as many as given and one more.  Their
exit codes are told. -/
def restarted (clockwork : Clockwork) (environment : String → Option String) (request : Request)
    (duration : Duration) : (more : Nat) → StateM Workplace (List Nat)
  | 0 => return [← performRequest clockwork.host environment request]
  | more + 1 => do
      let code ← performRequest clockwork.host environment request
      clockwork.pause duration
      return code :: (← restarted clockwork environment request duration more)

/-! ## What a round keeps -/

variable {clockwork : Clockwork} {log : Log} {options : RunOptions} {path : String}
  {script : Script} {duration : Duration} {store after : Store} {workplace finish : Workplace}

/-- A round that succeeds leaves its store in the state file. -/
theorem read_of_round
    (hround : workplace.carryOut (round clockwork log options path script store) =
      (.ok after, finish)) :
    finish.scene.files.read path = .ok after.savedText := by
  obtain ⟨output, ran, saved, hrun, hsave, rfl⟩ := exists_of_round hround
  change saved.scene.files.read path = _
  exact read_of_saveState hsave

/-- The store that a round leaves is sound again. -/
theorem sound_of_round
    (hround : workplace.carryOut (round clockwork log options path script store) =
      (.ok after, finish)) (hlog : log.file = none)
    (harguments : ∀ argument ∈ options.arguments, argument.2.Keyed .ascending)
    (hstore : store.Sound) (hordered : workplace.Ordered) :
    after.Sound ∧ finish.Ordered := by
  obtain ⟨output, ran, saved, hrun, hsave, rfl⟩ := exists_of_round hround
  obtain ⟨hsound, hkept⟩ := sound_round clockwork hlog script hstore hordered harguments
  rw [hrun] at hsound hkept
  rw [carryOut_saveState] at hsave
  obtain ⟨-, rfl⟩ := Prod.mk.inj hsave
  exact ⟨hsound, hkept⟩

theorem ordered_pause (duration : Duration) (hordered : workplace.Ordered) :
    ((clockwork.pause duration).run workplace).2.Ordered := by
  obtain ⟨time, htime⟩ := clockwork.pause_moves duration workplace
  rw [htime]
  exact hordered

/-- A last round that succeeds. -/
theorem exists_of_runRounds_last (hpath : options.stateFile = some path)
    (hrun : workplace.carryOut (runRounds clockwork.host log options script 1 store) =
      (.ok (), finish)) :
    ∃ after, workplace.carryOut (round clockwork log options path script store) =
      (.ok after, finish) := by
  rw [runRounds_last clockwork hpath] at hrun
  rcases carryOut_bind_cases hrun with ⟨_, _, hfailure⟩ | ⟨after, done, hround, hfinish⟩
  · exact nomatch hfailure
  · obtain ⟨-, rfl⟩ := Prod.mk.inj hfinish
    exact ⟨after, hround⟩

/-- If more rounds follow and all succeed, the first one does, and so do the others after a
pause. -/
theorem exists_of_runRounds_succ (hpath : options.stateFile = some path)
    (hevery : options.every = some duration) {rounds : Nat}
    (hrun : workplace.carryOut (runRounds clockwork.host log options script (rounds + 2) store) =
      (.ok (), finish)) :
    ∃ after done, workplace.carryOut (round clockwork log options path script store) =
        (.ok after, done) ∧
      ((clockwork.pause duration).run done).2.carryOut
        (runRounds clockwork.host log options script (rounds + 1) after) = (.ok (), finish) := by
  rw [runRounds_succ clockwork hpath hevery] at hrun
  rcases carryOut_bind_cases hrun with ⟨_, _, hfailure⟩ | ⟨after, done, hround, hrest⟩
  · exact nomatch hfailure
  · rw [carryOut_bind, carryOut_asking] at hrest
    exact ⟨after, done, hround, hrest⟩

/-! ## What stays between the rounds -/

/-- The second workplace has come from the first one by saving to a path.  The input is still
there. -/
structure Follows (path : String) (before after : Workplace) : Prop where
  files : Disk.SavedTo path before.scene.files after.scene.files
  input : after.input = before.input

theorem Follows.refl (path : String) (workplace : Workplace) : Follows path workplace workplace :=
  ⟨.refl path _, rfl⟩

theorem Follows.trans {before middle : Workplace} (hfirst : Follows path before middle)
    (hsecond : Follows path middle finish) : Follows path before finish :=
  ⟨hfirst.files.trans hsecond.files, hsecond.input.trans hfirst.input⟩

theorem follows_of_round
    (hround : workplace.carryOut (round clockwork log options path script store) =
      (.ok after, finish)) (hlog : log.file = none) : Follows path workplace finish := by
  obtain ⟨output, ran, saved, hrun, hsave, rfl⟩ := exists_of_round hround
  have hundisturbed := undisturbed_runOnce clockwork hlog options script store workplace
  rw [hrun] at hundisturbed
  rw [carryOut_saveState] at hsave
  obtain ⟨-, rfl⟩ := Prod.mk.inj hsave
  refine ⟨?_, hundisturbed.input⟩
  rw [← hundisturbed.files]
  exact Disk.savedTo_save path after.savedText ran.scene.files

theorem follows_pause (clockwork : Clockwork) (path : String) (duration : Duration)
    (workplace : Workplace) :
    Follows path workplace ((clockwork.pause duration).run workplace).2 := by
  have hpaused := undisturbed_pause clockwork duration workplace
  exact ⟨hpaused.files ▸ .refl path _, hpaused.input⟩

/-- Every round begins after the start and before the finish. -/
theorem follows_of_runRounds (hlog : log.file = none) (hpath : options.stateFile = some path)
    (hevery : options.every = some duration) {rounds : Nat}
    (hrun : workplace.carryOut (runRounds clockwork.host log options script (rounds + 1) store) =
      (.ok (), finish)) :
    Follows path workplace finish ∧
      ∀ stage ∈ stages clockwork log options path script duration (rounds + 1) store workplace,
        Follows path workplace stage.begins ∧ Follows path stage.begins finish := by
  induction rounds generalizing store workplace with
  | zero =>
    obtain ⟨after, hround⟩ := exists_of_runRounds_last hpath hrun
    have hfollows := follows_of_round hround hlog
    rw [stages_succ, hround]
    exact ⟨hfollows, List.forall_mem_cons.2 ⟨⟨.refl path workplace, hfollows⟩, nofun⟩⟩
  | succ rounds ih =>
    obtain ⟨after, done, hround, hrest⟩ := exists_of_runRounds_succ hpath hevery hrun
    obtain ⟨hfinish, hothers⟩ := ih hrest
    have hnext := (follows_of_round hround hlog).trans
      (follows_pause clockwork path duration done)
    rw [stages_succ, hround]
    refine ⟨hnext.trans hfinish, List.forall_mem_cons.2
      ⟨⟨.refl path workplace, hnext.trans hfinish⟩, fun stage hstage => ?_⟩⟩
    obtain ⟨hbefore, hafter⟩ := hothers stage hstage
    exact ⟨hnext.trans hbefore, hafter⟩

/-! ## Requests in place of rounds -/

variable {environment : String → Option String} {logging : LogOptions} {filter : LogFilter}
  {start : Workplace}

/-- The settings and the script are found as at the start. -/
def Finds (environment : String → Option String) (options : RunOptions)
    (start workplace : Workplace) : Prop :=
  workplace.settings environment = start.settings environment ∧
    workplace.source options.script = start.source options.script

/-- A state file that is given comes before the one of the settings. -/
theorem completed_stateFile (hpath : options.stateFile = some path) (settings : Settings) :
    (options.completed settings).stateFile = some path := by
  change options.stateFile.or settings.stateFile = some path
  rw [hpath]
  rfl

/-- A request with exit code zero did not fail. -/
theorem eq_of_concluded {result : Except Failure Unit × Workplace}
    (hresult : concluded result = (0, finish)) : result = (.ok (), finish) := by
  obtain ⟨result, done⟩ := result
  cases result with
  | ok finished =>
    obtain ⟨-, rfl⟩ := Prod.mk.inj hresult
    rfl
  | error failure =>
    obtain ⟨hcode, -⟩ := Prod.mk.inj hresult
    cases failure <;> exact nomatch hcode

/-- A request to run a script once comes to a round, if the script is found and the state is
loaded. -/
theorem run_of_round (hlog : logging.file = none)
    (hfilter : LogFilter.choose logging.level (environment "RUST_LOG")
      (start.settings environment).logLevel = .ok filter)
    (hpath : options.stateFile = some path)
    (hscript : parsed (start.source options.script) = .ok script)
    (hfinds : Finds environment options start workplace)
    (hload : loaded path (workplace.scene.files.read path) = .ok store)
    (hround : workplace.carryOut (round clockwork ⟨none, filter⟩
      (options.completed (start.settings environment)) path script store) = (.ok after, finish)) :
    (performRequest clockwork.host environment ⟨logging, .run options.once⟩).run workplace =
      (0, finish) := by
  obtain ⟨hsettings, hsource⟩ := hfinds
  rw [← hsettings] at hfilter hround
  rw [← hsource] at hscript
  have hchosen := completed_stateFile hpath (workplace.settings environment)
  have hrequest := @run_performRequest_once clockwork environment ⟨logging, .run options.once⟩ _
    workplace rfl hlog filter hfilter path hchosen rfl script hscript store hload
  have hsame : round clockwork ⟨none, filter⟩
      (options.once.completed (workplace.settings environment)) path script store =
        round clockwork ⟨none, filter⟩ (options.completed (workplace.settings environment)) path
          script store := rfl
  rw [hrequest, carryOut_bind, hsame, hround]
  rfl

/-- Rounds, and requests one after the other, lead to the same workplace. -/
theorem restarted_of_runRounds (hlog : logging.file = none)
    (hfilter : LogFilter.choose logging.level (environment "RUST_LOG")
      (start.settings environment).logLevel = .ok filter)
    (hpath : options.stateFile = some path) (hevery : options.every = some duration)
    (harguments : ∀ argument ∈ options.arguments, argument.2.Keyed .ascending)
    (hscript : parsed (start.source options.script) = .ok script) {rounds : Nat}
    (hordered : workplace.Ordered)
    (hload : loaded path (workplace.scene.files.read path) = .ok store)
    (hstages : ∀ stage ∈ stages clockwork ⟨none, filter⟩
      (options.completed (start.settings environment)) path script duration (rounds + 1) store
        workplace,
      Finds environment options start stage.begins ∧ stage.left.Savable ∧ stage.left.toJson.Exact)
    (hrun : workplace.carryOut (runRounds clockwork.host ⟨none, filter⟩
      (options.completed (start.settings environment)) script (rounds + 1) store) =
        (.ok (), finish)) :
    (restarted clockwork environment ⟨logging, .run options.once⟩ duration rounds).run workplace =
      (List.replicate (rounds + 1) 0, finish) := by
  have hcompleted := completed_stateFile hpath (start.settings environment)
  have hpaced : (options.completed (start.settings environment)).every = some duration := hevery
  induction rounds generalizing store workplace with
  | zero =>
    obtain ⟨after, hround⟩ := exists_of_runRounds_last hcompleted hrun
    rw [stages_succ, hround] at hstages
    obtain ⟨⟨hfinds, -⟩, -⟩ := List.forall_mem_cons.1 hstages
    have hrequest := run_of_round hlog hfilter hpath hscript hfinds hload hround
    rw [restarted, StateT.run_bind, hrequest]
    rfl
  | succ rounds ih =>
    obtain ⟨after, done, hround, hrest⟩ := exists_of_runRounds_succ hcompleted hpaced hrun
    rw [stages_succ, hround] at hstages
    obtain ⟨⟨hfinds, hsavable, hexact⟩, hothers⟩ := List.forall_mem_cons.1 hstages
    have hrequest := run_of_round hlog hfilter hpath hscript hfinds hload hround
    obtain ⟨hsound, hdone⟩ := sound_of_round hround rfl harguments (sound_of_loaded hload) hordered
    -- The next request loads the very store with which the next round would go on.
    have hreload : loaded path (((clockwork.pause duration).run done).2.scene.files.read path) =
        .ok after := by
      rw [(undisturbed_pause clockwork duration done).files, read_of_round hround]
      exact (loaded_savedText hsound hexact path).1 hsavable
    have hmore := ih (ordered_pause duration hdone) hreload hothers hrest
    rw [restarted, StateT.run_bind, hrequest]
    change ((restarted clockwork environment _ duration rounds).run
      ((clockwork.pause duration).run done).2 >>= fun told => pure (0 :: told.1, told.2) : Id _) = _
    rw [hmore]
    rfl

/-- A request that succeeds has read its script, loaded its state and run all rounds. -/
theorem exists_of_success {rounds : Nat} (hlog : logging.file = none)
    (hpath : options.stateFile = some path) (hevery : options.every = some duration)
    (htimes : options.times = some (rounds + 1))
    (hrun : (performRequest clockwork.host environment ⟨logging, .run options⟩).run start =
      (0, finish)) :
    ∃ filter script store,
      LogFilter.choose logging.level (environment "RUST_LOG")
        (start.settings environment).logLevel = .ok filter ∧
      parsed (start.source options.script) = .ok script ∧
      loaded path (start.scene.files.read path) = .ok store ∧
      stagesOf clockwork environment logging options path duration start =
        stages clockwork ⟨none, filter⟩ (options.completed (start.settings environment)) path
          script duration (rounds + 1) store start ∧
      start.carryOut (runRounds clockwork.host ⟨none, filter⟩
        (options.completed (start.settings environment)) script (rounds + 1) store) =
          (.ok (), finish) := by
  obtain ⟨filter, hfilter⟩ := exists_filter_of_success hrun
  have hcount : options.rounds = rounds + 1 := by
    rw [RunOptions.rounds, hevery, htimes]
    exact Nat.max_eq_left (Nat.succ_pos rounds)
  rw [run_performRequest rfl hlog hfilter] at hrun
  have hscript := eq_of_concluded hrun
  rw [carryOut_runScript (completed_stateFile hpath _)] at hscript
  split at hscript
  · cases hscript
  · next script hread =>
    split at hscript
    · cases hscript
    · next store hload =>
      have hstages : stagesOf clockwork environment logging options path duration start =
          stages clockwork ⟨none, filter⟩ (options.completed (start.settings environment)) path
            script duration (rounds + 1) store start := by
        have hfound : parsed (start.source options.script) = .ok script := hread
        dsimp only at hfilter
        rw [stagesOf, hfilter, hfound, hload, ← hcount]
      rw [← hcount] at hstages ⊢
      exact ⟨filter, script, store, hfilter, hread, hload, hstages, hscript⟩

/-! ## When the rounds find the same -/

/-- Saving to a path has spared what another path leads to, from the start to the finish. -/
def Spared (path other : String) (start finish : Workplace) : Prop :=
  finish.scene.files.Apart path other ∧
    ∀ text, finish.scene.files.read other = .ok text → start.scene.files.read other = .ok text

/-- At every moment in between, what is spared is read as at the start. -/
theorem Spared.read_iff {other : String} (hspared : Spared path other start finish)
    {around : Workplace} (hbefore : Follows path start around) (hafter : Follows path around finish)
    (text : String) :
    around.scene.files.read other = .ok text ↔ start.scene.files.read other = .ok text := by
  obtain ⟨hapart, hsame⟩ := hspared
  constructor
  · intro hread
    exact hsame text (hafter.files.read_of_apart hapart hread)
  · intro hread
    exact hbefore.files.read_of_apart (hafter.files.apart hapart) hread

/-- A spared settings file reads the same at every workplace in between. -/
theorem Spared.settings_eq {around : Workplace}
    (hspared : ∀ folder, Settings.folder? environment = some folder →
      Spared path (Settings.fileIn folder) start finish)
    (hbefore : Follows path start around) (hafter : Follows path around finish) :
    around.settings environment = start.settings environment := by
  unfold settings
  cases hfolder : Settings.folder? environment with
  | none => rfl
  | some folder =>
    have hread := (hspared folder hfolder).read_iff hbefore hafter
    dsimp only
    -- If the file cannot be read, the reason does not matter.
    cases hstart : start.scene.files.read (Settings.fileIn folder) with
    | ok text => rw [(hread text).2 hstart]
    | error error =>
      cases haround : around.scene.files.read (Settings.fileIn folder) with
      | ok text => exact nomatch hstart.symm.trans ((hread text).1 haround)
      | error other => rfl

/-- A spared script reads the same at every workplace in between. -/
theorem Spared.source_eq {around : Workplace} {text : String} {file : Option String}
    (hspared : ∀ name, file = some name → Spared path name start finish)
    (hbefore : Follows path start around) (hafter : Follows path around finish)
    (hsource : start.source file = .ok text) : around.source file = .ok text := by
  cases file with
  | none => exact (congrArg Except.ok hbefore.input).trans hsource
  | some name =>
    unfold source at hsource ⊢
    dsimp only at hsource ⊢
    split at hsource
    · next hstandard => rw [if_pos hstandard, hbefore.input, hsource]
    · next hfile =>
      rw [if_neg hfile]
      exact ((hspared name rfl).read_iff hbefore hafter text).2 hsource

/-- Every round finds the script and the settings as at the start, if the state file is neither of
them. -/
theorem finds_of_spared {rounds : Nat} (hlog : logging.file = none)
    (hpath : options.stateFile = some path) (hevery : options.every = some duration)
    (htimes : options.times = some (rounds + 1))
    (hscript : ∀ name, options.script = some name → Spared path name start finish)
    (hsettings : ∀ folder, Settings.folder? environment = some folder →
      Spared path (Settings.fileIn folder) start finish)
    (hrun : (performRequest clockwork.host environment ⟨logging, .run options⟩).run start =
      (0, finish)) :
    ∀ stage ∈ stagesOf clockwork environment logging options path duration start,
      Finds environment options start stage.begins := by
  obtain ⟨filter, script, store, -, hparsed, -, hsame, hrounds⟩ :=
    exists_of_success hlog hpath hevery htimes hrun
  obtain ⟨-, hfollows⟩ :=
    follows_of_runRounds rfl (completed_stateFile hpath _) hevery hrounds
  obtain ⟨text, htext⟩ : ∃ text, start.source options.script = .ok text := by
    cases hsource : start.source options.script with
    | ok text => exact ⟨text, rfl⟩
    | error error =>
      rw [hsource] at hparsed
      exact nomatch hparsed
  intro stage hstage
  rw [hsame] at hstage
  obtain ⟨hbefore, hafter⟩ := hfollows stage hstage
  refine ⟨Spared.settings_eq hsettings hbefore hafter, ?_⟩
  rw [htext]
  exact Spared.source_eq hscript hbefore hafter htext

/-- **Restarts cannot be told.**  Suppose that a request to run a script with a state file
repeatedly succeeds, and that every round finds the script and the settings as they were at the
start, which it does unless they are kept in the state file, and leaves a store that is savable and
whose numbers read back.  Then requests to run the script once, one after the other with the same
pauses, all succeed, and they lead to the very same workplace: what is printed is the same, and so
is what the state file holds at the end.  The clock may go in any way, as long as it goes in the
same way. -/
theorem restart_invisible {rounds : Nat} (hlog : logging.file = none)
    (hpath : options.stateFile = some path) (hevery : options.every = some duration)
    (htimes : options.times = some (rounds + 1))
    (harguments : ∀ argument ∈ options.arguments, argument.2.Keyed .ascending)
    (hordered : start.Ordered)
    (hstages : ∀ stage ∈ stagesOf clockwork environment logging options path duration start,
      Finds environment options start stage.begins ∧ stage.left.Savable ∧ stage.left.toJson.Exact)
    (hrun : (performRequest clockwork.host environment ⟨logging, .run options⟩).run start =
      (0, finish)) :
    (restarted clockwork environment ⟨logging, .run options.once⟩ duration rounds).run start =
      (List.replicate (rounds + 1) 0, finish) := by
  obtain ⟨filter, script, store, hfilter, hscript, hload, hsame, hrounds⟩ :=
    exists_of_success hlog hpath hevery htimes hrun
  rw [hsame] at hstages
  exact restarted_of_runRounds hlog hfilter hpath hevery harguments hscript hordered hload hstages
    hrounds

/-- A workplace in which visits are counted, a load is recorded at the time of the visit, and the
number of visits is told. -/
def observed : Workplace :=
  ofScript ("counter(\"visits\").increment(3)\nseries(\"load\").push(value: 1.5)\n" ++
    "seen = counter(\"visits\")\n")

/-- Runs the script twice, with a pause of a minute. -/
def everyMinute : RunOptions := { recording with every := some ⟨60, 0⟩, times := some 2 }

/-- Nothing but counters and loads of 1.5 is kept. -/
def isSteady (store : Store) : Bool :=
  store.storage.isEmpty && store.series.all fun entry => entry.2.all fun point => point.value = 1.5

/-- What the Boolean check accepts can be saved, and its document is exact. -/
theorem savable_of_isSteady {store : Store} (hsteady : isSteady store = true) :
    store.Savable ∧ store.toJson.Exact := by
  have hfinite : (1.5 : Float).isFinite = true := by decide +kernel
  simp only [isSteady, Bool.and_eq_true, List.isEmpty_iff, List.all_eq_true, decide_eq_true_eq]
    at hsteady
  obtain ⟨hstorage, hloads⟩ := hsteady
  refine ⟨⟨fun entry hentry point hpoint => ?_, ?_⟩, ?_, ?_, ?_, trivial⟩
  · rw [hloads entry hentry point hpoint, hfinite]
  · rw [hstorage]
    exact List.forall_mem_nil _
  · refine (Json.numbersEntries_iff _).2 fun entry hentry => ?_
    obtain ⟨counter, -, rfl⟩ := List.mem_map.1 hentry
    trivial
  · refine (Json.numbersEntries_iff _).2 fun entry hentry => ?_
    obtain ⟨series, hseries, rfl⟩ := List.mem_map.1 hentry
    refine (Json.numbersItems_iff _).2 fun item hitem => ?_
    obtain ⟨point, hpoint, rfl⟩ := List.mem_map.1 hitem
    refine ⟨trivial, fun _ => ?_, trivial⟩
    rw [hloads series hseries point hpoint]
    exact readsBack_load
  · rw [hstorage]
    trivial

/-- A script run once a minute, in one process and in separate ones. -/
theorem restart_invisible_everyMinute :
    let performed := (performRequest Clockwork.ticking.host (fun _ => none)
      ⟨{}, .run everyMinute⟩).run observed
    performed.1 = 0 ∧
      performed.2.printed = "\x7b\"seen\":3.0\x7d\n\x7b\"seen\":6.0\x7d\n" ∧
      (restarted Clockwork.ticking (fun _ => none) ⟨{}, .run recording⟩ ⟨60, 0⟩ 1).run observed =
        ([0, 0], performed.2) := by
  intro performed
  have hcomputed : performed.1 = 0 ∧
      performed.2.printed = "\x7b\"seen\":3.0\x7d\n\x7b\"seen\":6.0\x7d\n" ∧
      performed.2.scene.files.LeadsTo "state.json" ["work", "state.json"] ∧
      performed.2.scene.files.LeadsTo "run.asl" ["work", "run.asl"] ∧
      performed.2.scene.files.read "run.asl" = observed.scene.files.read "run.asl" := by
    decide +kernel
  obtain ⟨hcode, hprinted, hstate, hscript, hunchanged⟩ := hcomputed
  have hrun : (performRequest Clockwork.ticking.host (fun _ => none)
      ⟨{}, .run everyMinute⟩).run observed = (0, performed.2) := Prod.ext hcode rfl
  have hspared : Spared "state.json" "run.asl" observed performed.2 := by
    refine ⟨fun place hplace hother => ?_, fun text htext => hunchanged.symm.trans htext⟩
    exact absurd ((hplace.unique hstate).symm.trans (hother.unique hscript)) (by decide)
  have hfolder : Settings.folder? (fun _ => none) = none := by decide
  have hfinds := finds_of_spared rfl rfl rfl rfl
    (fun name hname => Option.some.inj hname ▸ hspared)
    (fun folder hsome => absurd (hfolder.symm.trans hsome) (Option.some_ne_none folder).symm) hrun
  have hsteady : (stagesOf Clockwork.ticking (fun _ => none) {} everyMinute "state.json" ⟨60, 0⟩
      observed).all (fun stage => isSteady stage.left) = true := by decide +kernel
  have hordered : observed.Ordered := fun _ hnetwork => by cases hnetwork
  refine ⟨hcode, hprinted, restart_invisible rfl rfl rfl rfl (List.forall_mem_nil _) hordered
    (fun stage hstage => ⟨hfinds stage hstage, ?_⟩) hrun⟩
  exact savable_of_isSteady (List.all_eq_true.1 hsteady stage hstage)

end Workplace

end MetricScript.CommandLine
