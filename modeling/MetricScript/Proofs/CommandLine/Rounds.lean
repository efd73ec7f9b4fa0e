import MetricScript.Proofs.CommandLine.StateFile
import MetricScript.Proofs.Files.Saving

/-!
# Rounds of a run, and what they leave alone

A repeated run goes in rounds: the script is run on the store that the last round left, the store
that it leaves is saved, and the output is printed.  The run itself touches neither the files nor
what was printed, whatever the clock says meanwhile; saving touches the files only, and of them
only the state file.  A request to run a script reads the settings and then is the run, followed
by a complaint if it failed.
-/

namespace MetricScript.CommandLine

/-- How the clock of a workplace goes.  Reading it and waiting may move it, and nothing else. -/
structure Clockwork where
  now : StateM Workplace Int64
  pause : Duration → StateM Workplace Unit
  now_moves : ∀ workplace, ∃ time,
    (now.run workplace).2 = { workplace with scene.clock := time }
  pause_moves : ∀ duration workplace, ∃ time,
    ((pause duration).run workplace).2 = { workplace with scene.clock := time }

def Clockwork.host (clockwork : Clockwork) : Host (StateM Workplace) :=
  { Workplace.host with now := clockwork.now, pause := clockwork.pause }

/-- A clock on which each reading takes a second and each pause a minute. -/
def Clockwork.ticking : Clockwork where
  now := modifyGet fun workplace =>
    (workplace.scene.clock, { workplace with scene.clock := workplace.scene.clock + 1 })
  pause := fun _ => modify fun workplace =>
    { workplace with scene.clock := workplace.scene.clock + 60 }
  now_moves := fun workplace => ⟨workplace.scene.clock + 1, rfl⟩
  pause_moves := fun _ workplace => ⟨workplace.scene.clock + 60, rfl⟩

namespace Workplace

variable {α : Type} (clockwork : Clockwork)

/-! ## What a run leaves alone -/

/-- The files, the input and what was printed are as before. -/
structure Undisturbed (before after : Workplace) : Prop where
  files : after.scene.files = before.scene.files
  input : after.input = before.input
  printed : after.printed = before.printed

theorem Undisturbed.refl (workplace : Workplace) : Undisturbed workplace workplace :=
  ⟨rfl, rfl, rfl⟩

theorem Undisturbed.trans {before middle after : Workplace} (hfirst : Undisturbed before middle)
    (hsecond : Undisturbed middle after) : Undisturbed before after :=
  ⟨hsecond.files.trans hfirst.files, hsecond.input.trans hfirst.input,
    hsecond.printed.trans hfirst.printed⟩

theorem undisturbed_now (workplace : Workplace) :
    Undisturbed workplace (clockwork.now.run workplace).2 := by
  obtain ⟨time, htime⟩ := clockwork.now_moves workplace
  rw [htime]
  exact ⟨rfl, rfl, rfl⟩

theorem undisturbed_pause (duration : Duration) (workplace : Workplace) :
    Undisturbed workplace ((clockwork.pause duration).run workplace).2 := by
  obtain ⟨time, htime⟩ := clockwork.pause_moves duration workplace
  rw [htime]
  exact ⟨rfl, rfl, rfl⟩

theorem undisturbed_send (request : HttpRequest) (workplace : Workplace) :
    Undisturbed workplace ((host.send request).run workplace).2 := by
  have hfiles (scene : Scene) : ((Scene.send request).run scene).2.files = scene.files := by
    simp only [Scene.send, StateT.run_bind, StateT.run_get, pure_bind]
    cases scene.network <;> rfl
  exact ⟨hfiles workplace.scene, rfl, rfl⟩

theorem undisturbed_readFile (path : String) (workplace : Workplace) :
    Undisturbed workplace ((host.surroundings.readFile path).run workplace).2 := by
  simp only [Host.surroundings, StateT.run_bind, run_readFile]
  cases workplace.scene.files.read path <;> exact .refl workplace

/-- Whatever an operation asks of the surroundings of a store, these are not disturbed. -/
theorem undisturbed_perform (operation : Operation) (store : Store) (workplace : Workplace) :
    Undisturbed workplace
      (((Store.provider clockwork.host.surroundings).perform operation).run store workplace).2 := by
  cases operation with
  | seriesAggregate | seriesCompute => exact undisturbed_now clockwork workplace
  | http request => exact undisturbed_send request workplace
  | fileText path => exact undisturbed_readFile path workplace
  | counterValue | setCounter | incrementCounter | seriesLast | seriesPush | seriesPop | seriesTrim
  | seriesItems | readStorage | writeStorage => exact .refl workplace

/-- A script that is run disturbs nothing. -/
theorem undisturbed_run (script : Script) (passes : Nat) (arguments : Table Value) (store : Store)
    (workplace : Workplace) :
    Undisturbed workplace (script.run (Store.provider clockwork.host.surroundings) passes arguments
      store workplace).2 := by
  have hrun := congrFun (congrFun (script.run_eq_answer
    (Store.provider clockwork.host.surroundings) passes arguments) store) workplace
  rw [hrun]
  let untouched : Store → Workplace → Prop := fun _ => Undisturbed workplace
  have hstart : untouched store workplace := .refl workplace
  refine (script.heeds_run passes (Script.keyed_start arguments)).keeps_answer ?_ ?_ hstart
  · exact fun store around hkept => hkept.trans (undisturbed_now clockwork around)
  · intro operation _ store around hkept
    exact ⟨fun answer _ => Script.answered_any operation answer,
      hkept.trans (undisturbed_perform clockwork operation store around)⟩

/-- Without a log file, messages are logged among the complaints. -/
theorem run_write {log : Log} (hlog : log.file = none) (id : String) (messages : List String)
    (workplace : Workplace) :
    ∃ complaints, ((log.write clockwork.host id messages).run workplace).2 =
      { workplace with complaints } := by
  rw [Log.write, hlog]
  split
  · induction messages generalizing workplace with
    | nil => exact ⟨workplace.complaints, rfl⟩
    | cons message messages ih =>
      exact ih { workplace with complaints := workplace.complaints ++ LogLine.ofMessage message }
  · exact ⟨workplace.complaints, rfl⟩

/-- Without a log file, one run of a script leaves the workplace undisturbed. -/
theorem undisturbed_runOnce {log : Log} (hlog : log.file = none) (options : RunOptions)
    (script : Script) (store : Store) (workplace : Workplace) :
    Undisturbed workplace
      ((runOnce clockwork.host log options script store).run workplace).2 := by
  have hrun := undisturbed_run clockwork script (allowance options.timeout)
    (Table.ofList options.arguments.reverse) store workplace
  refine hrun.trans ?_
  obtain ⟨complaints, hwrite⟩ := run_write clockwork hlog _ _ _
  exact hwrite ▸ ⟨rfl, rfl, rfl⟩

/-- A run on a sound store leaves a sound store, and the answers of the network as they are. -/
theorem sound_round {log : Log} (hlog : log.file = none) {options : RunOptions}
    (script : Script) {store : Store} {workplace : Workplace} (hstore : store.Sound)
    (hordered : workplace.Ordered)
    (harguments : ∀ argument ∈ options.arguments, argument.2.Keyed .ascending) :
    let told := (runOnce clockwork.host log options script store).run workplace
    told.1.2.Sound ∧ told.2.Ordered := by
  have horderly : Store.Orderly clockwork.host.surroundings Ordered := by
    refine ⟨fun around haround => ?_, orderly_host.readFile, orderly_host.send⟩
    change Ordered (clockwork.now.run around).2
    obtain ⟨time, htime⟩ := clockwork.now_moves around
    rw [htime]
    exact haround
  have hgiven : Table.Keyed .ascending (Table.ofList options.arguments.reverse) :=
    Table.forall_ofList fun argument hmem => harguments argument (List.mem_reverse.1 hmem)
  obtain ⟨hsound, hkept⟩ := Store.sound_run horderly script (allowance options.timeout) hgiven
    hstore hordered
  refine ⟨hsound, ?_⟩
  obtain ⟨complaints, hwrite⟩ := run_write clockwork hlog _ _ _
  exact hwrite ▸ hkept

/-! ## What saving changes -/

theorem run_onDisk (action : StateM Disk α) (workplace : Workplace) :
    (onDisk action).run workplace = ((action.run workplace.scene.files).1,
      { workplace with scene.files := (action.run workplace.scene.files).2 }) := rfl

/-- Saving a store does something to the files and to nothing else. -/
theorem carryOut_saveState (workplace : Workplace) (path : String) (store : Store) :
    workplace.carryOut (saveState host path store) =
      let saved := (Disk.save path store.savedText).run workplace.scene.files
      (saved.1.mapError .file, { workplace with scene.files := saved.2 }) := by
  rw [Disk.save_run]
  unfold saveState
  dsimp only
  by_cases hfolder : (Path.parent? path).getD "" = ""
  · have hparent : Disk.makeParent path = pure (.ok ()) := by
      rw [Disk.makeParent, if_neg (not_not_intro hfolder)]
    rw [hparent, hfolder]
    exact carryOut_withFile workplace _
  · have hparent : Disk.makeParent path = Disk.makeFolders ((Path.parent? path).getD "") := by
      rw [Disk.makeParent, if_pos hfolder]
    have hmade : (host.makeFolders ((Path.parent? path).getD "")).run workplace = _ :=
      run_onDisk (Disk.makeFolders _) workplace
    rw [hparent, if_pos hfolder, carryOut_bind, carryOut_withFile, hmade]
    obtain ⟨made, middle⟩ := (Disk.makeFolders _).run workplace.scene.files
    cases made with
    | ok done => exact carryOut_withFile _ _
    | error error => rfl

/-! ## Rounds -/

/-- One round: the script is run on a store, the store that it leaves is saved, and the output
is printed. -/
def round (log : Log) (options : RunOptions) (path : String) (script : Script) (store : Store) :
    Step (StateM Workplace) Store := do
  let (ending, after) ← asking (runOnce clockwork.host log options script store)
  saveState clockwork.host path after
  match ending with
  | .failed error => throw (.runtime error)
  | .exhausted => throw (.timedOut (options.timeout.getD 0))
  | .finished output =>
      asking (clockwork.host.print (outputText options.pretty output))
      pure after

/-- The last round is followed by nothing. -/
theorem runRounds_last {log : Log} {options : RunOptions} {path : String}
    (hpath : options.stateFile = some path) (script : Script) (store : Store) :
    runRounds clockwork.host log options script 1 store =
      round clockwork log options path script store >>= fun _ => pure () := by
  unfold runRounds round
  simp only [hpath, bind_assoc]
  refine bind_congr fun told => bind_congr fun _ => ?_
  obtain ⟨ending, after⟩ := told
  cases ending <;> rfl

/-- Between two rounds there is a pause. -/
theorem runRounds_succ {log : Log} {options : RunOptions} {path : String} {duration : Duration}
    (hpath : options.stateFile = some path) (hevery : options.every = some duration)
    (script : Script) (rounds : Nat) (store : Store) :
    runRounds clockwork.host log options script (rounds + 2) store =
      round clockwork log options path script store >>= fun after =>
        asking (clockwork.pause duration) >>= fun _ =>
          runRounds clockwork.host log options script (rounds + 1) after := by
  rw [runRounds]
  unfold round
  simp only [hpath, hevery, bind_assoc]
  refine bind_congr fun told => bind_congr fun _ => ?_
  obtain ⟨ending, after⟩ := told
  cases ending <;> rfl

/-- What comes of a round whose store could be saved. -/
def shown (options : RunOptions) (saved : Workplace) :
    Ending × Store → Except Failure Store × Workplace
  | (.failed error, _) => (.error (.runtime error), saved)
  | (.exhausted, _) => (.error (.timedOut (options.timeout.getD 0)), saved)
  | (.finished output, after) =>
      (.ok after, { saved with printed := saved.printed ++ outputText options.pretty output })

variable {clockwork} {log : Log} {options : RunOptions} {path : String} {script : Script}
  {store after : Store} {workplace ran saved finish : Workplace}

/-- After a run whose store was saved, a round shows what the run ended in. -/
theorem carryOut_round {told : Ending × Store}
    (hrun : (runOnce clockwork.host log options script store).run workplace = (told, ran))
    (hsave : ran.carryOut (saveState host path told.2) = (.ok (), saved)) :
    workplace.carryOut (round clockwork log options path script store) =
      shown options saved told := by
  have hasked : workplace.carryOut (asking (runOnce clockwork.host log options script store)) =
      (.ok told, ran) := by rw [carryOut_asking, hrun]
  have hsaved : ran.carryOut (saveState clockwork.host path told.2) = (.ok (), saved) := hsave
  obtain ⟨ending, after⟩ := told
  rw [round, carryOut_bind, hasked]
  dsimp only
  rw [carryOut_bind, hsaved]
  cases ending <;> rfl

/-- A round that succeeds has run the script to its end and saved the store. -/
theorem exists_of_round
    (hround : workplace.carryOut (round clockwork log options path script store) =
      (.ok after, finish)) :
    ∃ output ran saved,
      (runOnce clockwork.host log options script store).run workplace =
        ((.finished output, after), ran) ∧
      ran.carryOut (saveState host path after) = (.ok (), saved) ∧
      finish = { saved with printed := saved.printed ++ outputText options.pretty output } := by
  rw [round, carryOut_bind, carryOut_asking] at hround
  generalize htold : (runOnce clockwork.host log options script store).run workplace = told
    at hround
  obtain ⟨⟨ending, left⟩, ran⟩ := told
  rcases carryOut_bind_cases hround with ⟨_, _, hfailure⟩ | ⟨_, saved, hsave, hshown⟩
  · exact nomatch hfailure
  cases ending with
  | failed error => exact nomatch (Prod.mk.inj hshown).1
  | exhausted => exact nomatch (Prod.mk.inj hshown).1
  | finished output =>
    obtain ⟨hafter, rfl⟩ := Prod.mk.inj hshown
    obtain rfl := Except.ok.inj hafter
    exact ⟨output, ran, saved, rfl, hsave, rfl⟩

/-! ## Requests to run a script -/

def source (workplace : Workplace) : Option String → Except FileError String
  | none => .ok workplace.input
  | some path => if isInput path then .ok workplace.input else workplace.scene.files.read path

def parsed : Except FileError String → Except Failure Script
  | .error error => .error (.file error)
  | .ok text =>
      match parse text with
      | .script commands => .ok commands
      | .errors errors => .error (.syntaxErrors errors)
      | .endless => .error .endlessScript

/-- Reading a script changes nothing and gives the parse of its source. -/
theorem carryOut_readScript_eq (workplace : Workplace) (script : Option String) :
    workplace.carryOut (readScript host script) =
      (parsed (workplace.source script), workplace) := by
  have hsource : workplace.carryOut (readSource host script) =
      ((workplace.source script).mapError .file, workplace) := by
    unfold readSource source
    cases script with
    | none => rfl
    | some path =>
      dsimp only
      split
      · rfl
      · exact carryOut_withFile workplace _
  unfold readScript
  rw [carryOut_bind, hsource]
  cases workplace.source script with
  | error error => rfl
  | ok text =>
    dsimp only [Except.mapError, parsed]
    cases parse text <;> rfl

/-- The script is read and parsed before the state file is looked at, and the runs come last. -/
theorem carryOut_runScript (hpath : options.stateFile = some path) :
    workplace.carryOut (runScript clockwork.host log options) =
      match parsed (workplace.source options.script) with
      | .error failure => (.error failure, workplace)
      | .ok script =>
          match loaded path (workplace.scene.files.read path) with
          | .error failure => (.error failure, workplace)
          | .ok store =>
              workplace.carryOut
                (runRounds clockwork.host log options script options.rounds store) := by
  have hscript : workplace.carryOut (readScript clockwork.host options.script) = _ :=
    carryOut_readScript_eq workplace options.script
  have hload : workplace.carryOut (loadState clockwork.host path) = _ :=
    carryOut_loadState workplace path
  unfold runScript
  simp only [hpath]
  rw [carryOut_bind, hscript]
  cases parsed (workplace.source options.script) with
  | error failure => rfl
  | ok script =>
    dsimp only
    rw [carryOut_bind, hload]
    cases loaded path (workplace.scene.files.read path) <;> rfl

def settings (workplace : Workplace) (environment : String → Option String) : Settings :=
  match Settings.folder? environment with
  | none => {}
  | some folder =>
      match workplace.scene.files.read (Settings.fileIn folder) with
      | .ok text => Settings.read text
      | .error _ => {}

end Workplace

/-- The options with what the settings say where they are silent. -/
def RunOptions.completed (options : RunOptions) (settings : Settings) : RunOptions :=
  { options with
    stateFile := options.stateFile.or settings.stateFile
    timeout := options.timeout.or settings.timeout }

namespace Workplace

/-- A request that failed ends with a complaint. -/
def concluded : Except Failure Unit × Workplace → Nat × Workplace
  | (.ok (), finish) => (0, finish)
  | (.error failure, finish) =>
      (failure.exitCode, { finish with
        complaints := finish.complaints ++ ("Error: " ++ failure.message ++ "\n") })

variable {clockwork : Clockwork} {environment : String → Option String} {request : Request}
  {options : RunOptions} {workplace : Workplace}

/-- Loading the settings changes nothing at the workplace. -/
theorem run_loadSettings :
    (loadSettings clockwork.host (Settings.folder? environment)).run workplace =
      (workplace.settings environment, workplace) := by
  unfold settings loadSettings
  cases Settings.folder? environment with
  | none => rfl
  | some folder =>
    dsimp only
    rw [StateT.run_bind]
    change (match workplace.scene.files.read (Settings.fileIn folder) with
      | .ok text => pure (Settings.read text)
      | .error _ => pure {} : StateM Workplace Settings).run workplace = _
    cases workplace.scene.files.read (Settings.fileIn folder) <;> rfl

/-- A request to run a script, if there is a filter for the log. -/
theorem run_performRequest (htask : request.task = .run options)
    (hlog : request.logging.file = none) {filter : LogFilter}
    (hfilter : LogFilter.choose request.logging.level (environment "RUST_LOG")
      (workplace.settings environment).logLevel = .ok filter) :
    (performRequest clockwork.host environment request).run workplace =
      concluded (workplace.carryOut (runScript clockwork.host ⟨none, filter⟩
        (options.completed (workplace.settings environment)))) := by
  unfold performRequest
  dsimp only
  rw [StateT.run_bind, run_loadSettings]
  change StateT.run _ workplace = _
  rw [hfilter]
  dsimp only
  rw [hlog, htask, show openLog clockwork.host none = pure (some none) from rfl, pure_bind]
  let running := runScript clockwork.host ⟨none, filter⟩
    (options.completed (workplace.settings environment))
  change (running.run >>= _ : StateM Workplace Nat).run workplace =
    concluded (running.run.run workplace)
  rw [StateT.run_bind]
  obtain ⟨result, finish⟩ := running.run.run workplace
  cases result <;> rfl

/-- A request to run a script once, if the script is read and the state is loaded, is a round. -/
theorem run_performRequest_once (htask : request.task = .run options)
    (hlog : request.logging.file = none) {filter : LogFilter}
    (hfilter : LogFilter.choose request.logging.level (environment "RUST_LOG")
      (workplace.settings environment).logLevel = .ok filter) {path : String}
    (hpath : options.stateFile.or (workplace.settings environment).stateFile = some path)
    (honce : options.every = none) {script : Script}
    (hscript : parsed (workplace.source options.script) = .ok script) {store : Store}
    (hload : loaded path (workplace.scene.files.read path) = .ok store) :
    (performRequest clockwork.host environment request).run workplace =
      concluded (workplace.carryOut (round clockwork ⟨none, filter⟩
        (options.completed (workplace.settings environment)) path script store >>= fun _ =>
          pure ())) := by
  have hcompleted : (options.completed (workplace.settings environment)).stateFile = some path :=
    hpath
  have hread : parsed (workplace.source (options.completed
      (workplace.settings environment)).script) = .ok script := hscript
  have hrounds : (options.completed (workplace.settings environment)).rounds = 1 := by
    rw [RunOptions.rounds, show (options.completed _).every = none from honce]
  rw [run_performRequest htask hlog hfilter, carryOut_runScript hcompleted, hread, hload, hrounds]
  dsimp only
  rw [runRounds_last clockwork hcompleted]

/-- A request that succeeds had a filter for the log. -/
theorem exists_filter_of_success {finish : Workplace}
    (hrun : (performRequest clockwork.host environment request).run workplace = (0, finish)) :
    ∃ filter, LogFilter.choose request.logging.level (environment "RUST_LOG")
      (workplace.settings environment).logLevel = .ok filter := by
  cases hfilter : LogFilter.choose request.logging.level (environment "RUST_LOG")
      (workplace.settings environment).logLevel with
  | ok filter => exact ⟨filter, rfl⟩
  | error flaw =>
    unfold performRequest at hrun
    dsimp only at hrun
    rw [StateT.run_bind, run_loadSettings] at hrun
    change StateT.run _ workplace = _ at hrun
    rw [hfilter] at hrun
    cases hrun

end Workplace

end MetricScript.CommandLine
