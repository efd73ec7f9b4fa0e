import Mathlib
import MetricScript.CommandLine.Perform
import MetricScript.Proofs.Files.Disk
import MetricScript.Proofs.Provider.Upkeep

/-!
# What a run leaves in its state file

A run with a state file starts from the store in the file and leaves its own store there.  The
store that it leaves is sound, and nothing touches the file after it was written, so the next run
starts from that very store if it is savable, and otherwise finds a file that it refuses.
-/

namespace MetricScript.CommandLine

/-! ## Steps on a workplace -/

namespace Workplace

variable {α β : Type}

def carryOut (workplace : Workplace) (step : Step (StateM Workplace) α) :
    Except Failure α × Workplace :=
  step.run.run workplace

/-- A step that only asks goes through, with whatever the question changes. -/
theorem carryOut_asking (workplace : Workplace) (question : StateM Workplace α) :
    workplace.carryOut (asking question) =
      (.ok (question.run workplace).1, (question.run workplace).2) := rfl

/-- The second of two steps runs where the first one ended, unless that one failed. -/
theorem carryOut_bind (workplace : Workplace) (first : Step (StateM Workplace) α)
    (next : α → Step (StateM Workplace) β) :
    workplace.carryOut (first >>= next) =
      match workplace.carryOut first with
      | (.ok value, after) => after.carryOut (next value)
      | (.error failure, after) => (.error failure, after) := by
  unfold carryOut
  change ((first.run >>= ExceptT.bindCont next).run workplace) = _
  rw [StateT.run_bind]
  obtain ⟨result, after⟩ := first.run.run workplace
  cases result with
  | ok value => rfl
  | error failure => rfl

/-- A question to the files is a step that fails where the question does. -/
theorem carryOut_withFile (workplace : Workplace)
    (question : StateM Workplace (Except FileError α)) :
    workplace.carryOut (withFile question) =
      ((question.run workplace).1.mapError .file, (question.run workplace).2) := by
  unfold withFile
  rw [carryOut_bind, carryOut_asking]
  obtain ⟨answer, after⟩ := question.run workplace
  cases answer with
  | ok value => rfl
  | error error => rfl

theorem withFile_ne_runtime {workplace after : Workplace}
    {question : StateM Workplace (Except FileError α)} (error : RuntimeError) :
    workplace.carryOut (withFile question) ≠ (.error (.runtime error), after) := by
  rw [carryOut_withFile]
  cases (question.run workplace).1 <;> simp [Except.mapError]

/-- A step in two parts fails in its first part or goes through it. -/
theorem carryOut_bind_cases {workplace finish : Workplace} {first : Step (StateM Workplace) α}
    {next : α → Step (StateM Workplace) β} {result : Except Failure β}
    (hbind : workplace.carryOut (first >>= next) = (result, finish)) :
    (∃ failure, workplace.carryOut first = (.error failure, finish) ∧
      result = .error failure) ∨
    ∃ value middle, workplace.carryOut first = (.ok value, middle) ∧
      middle.carryOut (next value) = (result, finish) := by
  rw [carryOut_bind] at hbind
  split at hbind
  · next value middle hfirst => exact .inr ⟨value, middle, hfirst, hbind⟩
  · next failure after hfirst =>
    obtain ⟨rfl, rfl⟩ := Prod.mk.inj hbind
    exact .inl ⟨failure, hfirst, rfl⟩

/-! ## Loading and saving -/

/-- What the reading of a state file comes to. -/
def loaded (path : String) : Except FileError String → Except Failure Store
  | .error .notFound => .ok {}
  | .error error => .error (.file error)
  | .ok text =>
      match Store.readSaved? text with
      | some store => .ok store
      | none => .error (.invalidState path)

theorem run_readFile (workplace : Workplace) (path : String) :
    (host.readFile path).run workplace = (workplace.scene.files.read path, workplace) := rfl

/-- Loading reads the one file and leaves the workplace as it is. -/
theorem carryOut_loadState (workplace : Workplace) (path : String) :
    workplace.carryOut (loadState host path) =
      (loaded path (workplace.scene.files.read path), workplace) := by
  unfold loadState
  rw [carryOut_bind, carryOut_asking, run_readFile]
  dsimp only
  cases workplace.scene.files.read path with
  | error error => cases error <;> rfl
  | ok text =>
    dsimp only [loaded]
    cases Store.readSaved? text with
    | none => rfl
    | some store => rfl

/-- A store that was loaded is sound. -/
theorem sound_of_loaded {path : String} {content : Except FileError String} {store : Store}
    (hload : loaded path content = .ok store) : store.Sound := by
  unfold loaded at hload
  split at hload
  · obtain rfl := Except.ok.inj hload
    exact Store.sound_empty
  · cases hload
  · split at hload
    · next hread =>
      obtain rfl := Except.ok.inj hload
      exact Store.sound_of_readSaved? hread
    · cases hload

theorem loaded_ne_runtime (path : String) (content : Except FileError String)
    (error : RuntimeError) : loaded path content ≠ .error (.runtime error) := by
  unfold loaded
  split
  · simp
  · simp
  · split <;> simp

/-- The saved text of a sound store is loaded as that store if it is savable, and else it is
refused. -/
theorem loaded_savedText {store : Store} (hsound : store.Sound) (hexact : store.toJson.Exact)
    (path : String) :
    (store.Savable → loaded path (.ok store.savedText) = .ok store) ∧
      (¬store.Savable → loaded path (.ok store.savedText) = .error (.invalidState path)) := by
  unfold loaded
  refine ⟨fun hsavable => ?_, fun hsavable => ?_⟩
  · simp only [Store.readSaved?_savedText hsound hexact hsavable]
  · simp only [Store.readSaved?_savedText_of_not_savable hexact hsavable]

/-- The saved text of a store is in the file to which it was saved. -/
theorem read_of_saveState {workplace saved : Workplace} {path : String} {store : Store}
    (hsave : workplace.carryOut (saveState host path store) = (.ok (), saved)) :
    saved.scene.files.read path = .ok store.savedText := by
  have hwrite : ∃ middle : Workplace,
      middle.carryOut (withFile (host.writeFile path store.savedText)) = (.ok (), saved) := by
    unfold saveState at hsave
    dsimp only at hsave
    split at hsave
    · rcases carryOut_bind_cases hsave with ⟨failure, _, hfailure⟩ | ⟨_, middle, _, hwrite⟩
      · cases hfailure
      · exact ⟨middle, hwrite⟩
    · exact ⟨workplace, hsave⟩
  obtain ⟨middle, hwrite⟩ := hwrite
  rw [carryOut_withFile] at hwrite
  obtain ⟨hresult, rfl⟩ := Prod.mk.inj hwrite
  have hdisk : ((Disk.write path store.savedText).run middle.scene.files).1 = .ok () := by
    change ((Disk.write path store.savedText).run middle.scene.files).1.mapError Failure.file =
      .ok () at hresult
    cases hanswer : ((Disk.write path store.savedText).run middle.scene.files).1 with
    | ok done => rfl
    | error error =>
      rw [hanswer] at hresult
      cases hresult
  exact Disk.read_of_write (Prod.ext hdisk rfl)

/-- Saving may fail, but never with an error of the script. -/
theorem saveState_ne_runtime {workplace after : Workplace} {path : String} {store : Store}
    (error : RuntimeError) :
    workplace.carryOut (saveState host path store) ≠ (.error (.runtime error), after) := by
  intro hsave
  unfold saveState at hsave
  dsimp only at hsave
  split at hsave
  · rcases carryOut_bind_cases hsave with ⟨failure, hfolder, hfailure⟩ | ⟨_, _, _, hwrite⟩
    · obtain rfl := Except.error.inj hfailure
      exact withFile_ne_runtime error hfolder
    · exact withFile_ne_runtime error hwrite
  · exact withFile_ne_runtime error hsave

/-! ## Running -/

/-- The maps in the answers of the network have rising keys. -/
def Ordered (workplace : Workplace) : Prop :=
  ∀ canned, workplace.scene.network = some canned → ∀ answer ∈ canned.answers,
    answer.2.2.body.Keyed .ascending ∧ KeyRule.ascending.allows (answer.2.2.headers.map Prod.fst)

/-- Canned answers keyed in order give replies that are keyed in order. -/
theorem answered_of_canned {canned : CannedAnswers} (hcanned : ∀ answer ∈ canned.answers,
      answer.2.2.body.Keyed .ascending ∧
        KeyRule.ascending.allows (answer.2.2.headers.map Prod.fst))
    {request : HttpRequest} {response : HttpResponse}
    (hresponse : canned.answer request = .ok response) :
    Operation.Answered .ascending (.http request) response := by
  unfold CannedAnswers.answer at hresponse
  dsimp only at hresponse
  split at hresponse
  · next method url known hknown =>
    obtain rfl := Except.ok.inj hresponse
    exact hcanned _ (List.mem_reverse.1 (List.mem_of_find?_eq_some hknown))
  · cases hresponse

/-- The host of the tests answers in order, whatever it is asked. -/
theorem orderly_host : Store.Orderly host.surroundings Ordered where
  now := fun _ hordered => hordered
  readFile := by
    intro path workplace hordered
    have hstays : (host.surroundings.readFile path workplace).2 = workplace := by
      change ((host.surroundings.readFile path).run workplace).2 = workplace
      simp only [Host.surroundings, StateT.run_bind, run_readFile]
      cases workplace.scene.files.read path <;> rfl
    rwa [hstays]
  send := by
    intro request workplace hordered
    change Ordered { workplace with scene := (Scene.send request workplace.scene).2 } ∧
      ∀ response, (Scene.send request workplace.scene).1 = .ok response → _
    cases hnetwork : workplace.scene.network with
    | none =>
      have hsend : Scene.send request workplace.scene =
          (.error (.http "no HTTP transport configured"), workplace.scene) := by
        change (Scene.send request).run workplace.scene = _
        simp only [Scene.send, StateT.run_bind, StateT.run_get, pure_bind, hnetwork]
        rfl
      rw [hsend]
      exact ⟨hordered, fun _ hresponse => by cases hresponse⟩
    | some canned =>
      have hsend : Scene.send request workplace.scene = ((canned.send request).1,
          { workplace.scene with network := some (canned.send request).2 }) := by
        change (Scene.send request).run workplace.scene = _
        simp only [Scene.send, StateT.run_bind, StateT.run_get, pure_bind, hnetwork]
        rfl
      rw [hsend]
      refine ⟨?_, fun response => answered_of_canned (hordered canned hnetwork)⟩
      intro other hother
      obtain rfl := Option.some.inj hother
      exact hordered canned hnetwork

/-- A run on a sound store leaves a sound store. -/
theorem sound_runOnce {log : Log} {options : RunOptions} {script : Script} {before after : Store}
    {workplace ran : Workplace} {ending : Ending}
    (hrun : (runOnce host log options script before).run workplace = ((ending, after), ran))
    (hbefore : before.Sound) (hordered : workplace.Ordered)
    (harguments : ∀ argument ∈ options.arguments, argument.2.Keyed .ascending) : after.Sound := by
  have hgiven : Table.Keyed .ascending (Table.ofList options.arguments.reverse) :=
    Table.forall_ofList fun argument hmem => harguments argument (List.mem_reverse.1 hmem)
  have hsound := (Store.sound_run orderly_host script (allowance options.timeout) hgiven hbefore
    hordered).1
  have hafter : ((runOnce host log options script before).run workplace).1.2 =
      (script.run (Store.provider host.surroundings) (allowance options.timeout)
        (Table.ofList options.arguments.reverse) before workplace).1.2 := rfl
  rw [hrun] at hafter
  rwa [← hafter] at hsound

/-! ## The state file of a run -/

/-- Reading a script changes nothing, and its failures are not errors of a run. -/
theorem carryOut_readScript (workplace : Workplace) (path : Option String) :
    ∃ result, workplace.carryOut (readScript host path) = (result, workplace) ∧
      ∀ error, result ≠ .error (.runtime error) := by
  have hsource : ∃ text : Except FileError String,
      workplace.carryOut (readSource host path) = (text.mapError .file, workplace) := by
    unfold readSource
    cases path with
    | none => exact ⟨.ok workplace.input, rfl⟩
    | some path =>
      dsimp only
      split
      · exact ⟨.ok workplace.input, rfl⟩
      · exact ⟨_, carryOut_withFile workplace _⟩
  obtain ⟨text, htext⟩ := hsource
  unfold readScript
  rw [carryOut_bind, htext]
  cases text with
  | error error => exact ⟨_, rfl, fun _ => by simp⟩
  | ok text =>
    dsimp only [Except.mapError]
    cases parse text with
    | script commands => exact ⟨_, rfl, fun _ => by simp⟩
    | errors errors => exact ⟨_, rfl, fun _ => by simp⟩
    | endless => exact ⟨_, rfl, fun _ => by simp⟩

/-- What follows the saving of the store, when a script is run once. -/
def conclude (log : Log) (options : RunOptions) (script : Script) :
    Ending × Store → Step (StateM Workplace) Unit
  | (.failed error, _) => throw (.runtime error)
  | (.exhausted, _) => throw (.timedOut (options.timeout.getD 0))
  | (.finished output, after) => do
      asking (host.print (outputText options.pretty output))
      runRounds host log options script 0 after

theorem runRounds_one {log : Log} {options : RunOptions} {path : String}
    (hpath : options.stateFile = some path) (script : Script) (store : Store) :
    runRounds host log options script 1 store =
      asking (runOnce host log options script store) >>= fun told =>
        saveState host path told.2 >>= fun _ => conclude log options script told := by
  unfold runRounds
  simp only [hpath]
  congr 1
  funext told
  obtain ⟨ending, after⟩ := told
  cases ending <;> rfl

/-- After the store was saved, the files stay as they are. -/
theorem files_conclude (workplace : Workplace) (log : Log) (options : RunOptions)
    (script : Script) (told : Ending × Store) :
    (workplace.carryOut (conclude log options script told)).2.scene.files =
      workplace.scene.files := by
  obtain ⟨ending, after⟩ := told
  cases ending <;> rfl

/-- **The state file after a run.**  A script that is run once, to its end or to a runtime error,
starts from the store that is loaded from the state file and leaves a store there.  If the finite
numbers of that store read back, the store is loaded again as it is, provided that its samples
are finite and its stored maps nest no deeper than a reader goes.  Otherwise the file that the
run left is refused. -/
theorem state_file_after_run {log : Log} {options : RunOptions} {path : String}
    {start finish : Workplace} {result : Except Failure Unit}
    (hpath : options.stateFile = some path) (honce : options.every = none)
    (harguments : ∀ argument ∈ options.arguments, argument.2.Keyed .ascending)
    (hordered : start.Ordered)
    (hrun : start.carryOut (runScript host log options) = (result, finish))
    (hresult : result = .ok () ∨ ∃ error, result = .error (.runtime error)) :
    ∃ script before ending after ran,
      start.carryOut (readScript host options.script) = (.ok script, start) ∧
      start.carryOut (loadState host path) = (.ok before, start) ∧
      (runOnce host log options script before).run start = ((ending, after), ran) ∧
      (after.toJson.Exact →
        (after.Savable → finish.carryOut (loadState host path) = (.ok after, finish)) ∧
        (¬after.Savable →
          finish.carryOut (loadState host path) = (.error (.invalidState path), finish))) := by
  have hfailed : ∀ failure, result = .error failure → ∃ error, failure = .runtime error := by
    rintro failure rfl
    rcases hresult with hok | ⟨error, herror⟩
    · cases hok
    · exact ⟨error, Except.error.inj herror⟩
  have hrounds : options.rounds = 1 := by
    unfold RunOptions.rounds
    rw [honce]
  unfold runScript at hrun
  simp only [hpath, hrounds] at hrun
  -- Neither reading the script nor loading the state failed, for that is no runtime error.
  obtain ⟨read, hread, hnoRuntime⟩ := carryOut_readScript start options.script
  rcases carryOut_bind_cases hrun with
    ⟨failure, hscript, hfailure⟩ | ⟨script, middle, hscript, hrun⟩
  · obtain ⟨error, rfl⟩ := hfailed failure hfailure
    rw [hread] at hscript
    exact absurd (Prod.mk.inj hscript).1 (hnoRuntime error)
  obtain rfl : start = middle := (Prod.mk.inj (hread.symm.trans hscript)).2
  rcases carryOut_bind_cases hrun with ⟨failure, hload, hfailure⟩ | ⟨before, middle, hload, hrun⟩
  · obtain ⟨error, rfl⟩ := hfailed failure hfailure
    rw [carryOut_loadState] at hload
    exact absurd (Prod.mk.inj hload).1 (loaded_ne_runtime path _ error)
  rw [carryOut_loadState] at hload
  obtain ⟨hloaded, rfl⟩ := Prod.mk.inj hload
  rw [runRounds_one hpath, carryOut_bind, carryOut_asking] at hrun
  generalize htold : (runOnce host log options script before).run start = told at hrun
  obtain ⟨⟨ending, after⟩, ran⟩ := told
  -- The store was saved, for failing to save it is no runtime error either.
  rcases carryOut_bind_cases hrun with ⟨failure, hsave, hfailure⟩ | ⟨_, saved, hsave, hrun⟩
  · obtain ⟨error, rfl⟩ := hfailed failure hfailure
    exact absurd hsave (saveState_ne_runtime error)
  have hfiles : finish.scene.files = saved.scene.files := by
    have hconclude := files_conclude saved log options script (ending, after)
    rwa [hrun] at hconclude
  have hread := read_of_saveState hsave
  have hsound := sound_runOnce htold (sound_of_loaded hloaded) hordered harguments
  refine ⟨script, before, ending, after, ran, hscript, ?_, htold, fun hexact => ?_⟩
  · rw [carryOut_loadState, hloaded]
  · rw [carryOut_loadState, hfiles, hread]
    obtain ⟨hsavable, hrefused⟩ := loaded_savedText hsound hexact path
    exact ⟨fun h => by rw [hsavable h], fun h => by rw [hrefused h]⟩

/-- A script file in an otherwise empty workplace. -/
def ofScript (text : String) : Workplace :=
  { scene := { clock := 40, files := Disk.ofFiles [("run.asl", text)] } }

/-- Runs that script once, with a state file. -/
def recording : RunOptions := { script := some "run.asl", stateFile := some "state.json" }

/-- A log that lets no messages pass. -/
def silent : Log := ⟨none, []⟩

/-- The store that the script leaves, if it is read and the state is loaded. -/
def recorded? (workplace : Workplace) : Option Store :=
  match (workplace.carryOut (readScript host recording.script)).1,
      (workplace.carryOut (loadState host "state.json")).1 with
  | .ok script, .ok before =>
      some ((runOnce host silent recording script before).run workplace).1.2
  | _, _ => none

def succeeds {α : Type} : Except Failure α → Bool
  | .ok _ => true
  | .error _ => false

theorem eq_ok_of_succeeds {result : Except Failure Unit} (hresult : succeeds result = true) :
    result = .ok () := by
  cases result with
  | ok done => rfl
  | error failure => cases hresult

def isRefused {α : Type} : Except Failure α → Bool
  | .error (.invalidState _) => true
  | _ => false

theorem exists_of_isRefused {result : Except Failure Store} (hresult : isRefused result = true) :
    ∃ path, result = .error (.invalidState path) := by
  unfold isRefused at hresult
  split at hresult
  · next path => exact ⟨path, rfl⟩
  · cases hresult

/-- A workplace in which visits are counted and a load is recorded. -/
def visits : Workplace :=
  ofScript "counter(\"visits\").increment(3)\nseries(\"load\").push(value: 1.5, timestamp: 40)\n"

/-- What the store holds after a visit. -/
def visited : Store := { counters := [("visits", 3)], series := [("load", [⟨40, 1.5⟩])] }

theorem readsBack_load : Json.ReadsBack 1.5 := by
  refine ⟨⟨false, ['1'], ['5'], none⟩, by decide +kernel, ?_⟩
  have hinteger : (⟨false, ['1'], ['5'], none⟩ : Json.Numeral).integer? = none := by decide
  have hnumber : (⟨false, ['1'], ['5'], none⟩ : Json.Numeral).number? = some 1.5 := by
    decide +kernel
  rw [Json.Numeral.toJson?, hinteger, hnumber]
  rfl

theorem exact_visited : visited.toJson.Exact :=
  ⟨⟨trivial, trivial⟩, ⟨⟨⟨trivial, fun _ => readsBack_load, trivial⟩, trivial⟩, trivial⟩, trivial,
    trivial⟩

theorem savable_visited : visited.Savable := by
  have hfinite : (1.5 : Float).isFinite = true := by decide +kernel
  refine ⟨?_, List.forall_mem_nil _⟩
  simpa [visited] using hfinite

/-- A run that counts its visits leaves a state file that gives its store back. -/
theorem state_file_after_run_visits :
    visited.toJson.Exact ∧ visited.Savable ∧
      let ran := visits.carryOut (runScript host silent recording)
      ran.1 = .ok () ∧
        ran.2.carryOut (loadState host "state.json") = (.ok visited, ran.2) := by
  have hresult : (visits.carryOut (runScript host silent recording)).1 = .ok () := by
    apply eq_ok_of_succeeds
    decide +kernel
  have hordered : visits.Ordered := fun _ hnetwork => by cases hnetwork
  obtain ⟨script, before, ending, after, ran, hscript, hload, hrun, hreload⟩ :=
    @state_file_after_run silent recording "state.json" visits _ _ rfl rfl
      (List.forall_mem_nil _) hordered (Prod.eta _).symm (.inl hresult)
  have hvisited : (recorded? visits).any (fun store =>
      decide (store.counters = visited.counters ∧ store.series = visited.series) &&
        store.storage.isEmpty) = true := by decide +kernel
  have hrecorded : recorded? visits = some after := by
    unfold recorded?
    rw [hscript, hload]
    dsimp only
    rw [hrun]
  rw [hrecorded] at hvisited
  simp only [Option.any_some, Bool.and_eq_true, decide_eq_true_eq, List.isEmpty_iff] at hvisited
  obtain ⟨⟨hcounters, hseries⟩, hstorage⟩ := hvisited
  obtain rfl : after = visited := by
    obtain ⟨counters, series, storage⟩ := after
    obtain rfl : counters = visited.counters := hcounters
    obtain rfl : series = visited.series := hseries
    obtain rfl : storage = [] := hstorage
    rfl
  exact ⟨exact_visited, savable_visited, hresult, (hreload exact_visited).1 savable_visited⟩

/-- A workplace in which a sample is recorded that is no number. -/
def undefinedSample : Workplace :=
  ofScript "series(\"load\").push(value: \"nan\", timestamp: 40)\n"

/-- Such a sample is saved like any other, but the file with it is refused. -/
theorem undefined_sample_spoils_state_file :
    (undefinedSample.carryOut (runScript host silent recording)).1 = .ok () ∧
      ∃ path, ((undefinedSample.carryOut (runScript host silent recording)).2.carryOut
        (loadState host "state.json")).1 = .error (.invalidState path) := by
  have hresult : succeeds (undefinedSample.carryOut (runScript host silent recording)).1 =
      true := by decide +kernel
  have hrefused : isRefused ((undefinedSample.carryOut (runScript host silent recording)).2.carryOut
      (loadState host "state.json")).1 = true := by decide +kernel
  exact ⟨eq_ok_of_succeeds hresult, exists_of_isRefused hrefused⟩

end Workplace

end MetricScript.CommandLine
