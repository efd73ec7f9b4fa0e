import MetricScript.Proofs.CommandLine.Rounds

/-!
# A request agrees with the run of its script

A request to run a script once comes to what the script does with the store in the state file.
As long as the script has not been run, because it cannot be read, does not parse or the state
file is refused, nothing is printed and no file is touched.  After the run its store stands in
the state file, also if the run failed; no other file changes, and the output is printed if there
is one.  The exit code tells these cases apart.
-/

namespace MetricScript.CommandLine

namespace Workplace

/-- The store that a state file stands for, which is the empty one if the file is missing or
blank.  There is none if the file cannot be read or its text is no saved store. -/
def state? (workplace : Workplace) (path : String) : Option Store :=
  match workplace.scene.files.read path with
  | .error .notFound => some {}
  | .error _ => none
  | .ok text =>
      if (Text.trim text).isEmpty then some {}
      else (Json.Source.read? text).bind Store.ofSource?

/-- Either there is a store in the state file, or the file is refused. -/
theorem loaded_cases (workplace : Workplace) (path : String) :
    (∃ store, workplace.state? path = some store ∧
      loaded path (workplace.scene.files.read path) = .ok store) ∨
    (∃ failure, workplace.state? path = none ∧
      loaded path (workplace.scene.files.read path) = .error failure ∧ failure.exitCode = 4) := by
  unfold state? loaded
  cases workplace.scene.files.read path with
  | error error =>
    cases error with
    | notFound => exact .inl ⟨{}, rfl, rfl⟩
    | _ => exact .inr ⟨.file _, rfl, rfl, rfl⟩
  | ok text =>
    cases hsaved : Store.readSaved? text with
    | none => exact .inr ⟨.invalidState path, hsaved, by simp only [hsaved], rfl⟩
    | some store => exact .inl ⟨store, hsaved, by simp only [hsaved]⟩

def CanSave (workplace : Workplace) (path : String) : Prop :=
  ∃ store saved, workplace.carryOut (saveState host path store) = (.ok (), saved)

/-- A store that is saved stands in the state file, and nothing else changes. -/
theorem exists_saved {workplace : Workplace} {path : String} (hsave : workplace.CanSave path)
    {around : Workplace} (hfiles : around.scene.files = workplace.scene.files) (store : Store) :
    ∃ files, around.carryOut (saveState host path store) =
        (.ok (), { around with scene.files := files }) ∧
      files.read path = .ok store.savedText ∧
      Disk.SavedTo path workplace.scene.files files := by
  obtain ⟨other, saved, hother⟩ := hsave
  rw [carryOut_saveState] at hother
  have hresult : ((Disk.save path other.savedText).run workplace.scene.files).1 = .ok () := by
    have hmapped := (Prod.mk.inj hother).1
    cases hsaved : ((Disk.save path other.savedText).run workplace.scene.files).1 with
    | ok done => rfl
    | error error =>
      rw [hsaved] at hmapped
      exact nomatch hmapped
  have hours : ((Disk.save path store.savedText).run workplace.scene.files).1 = .ok () :=
    (Disk.save_result path _ _ _).trans hresult
  refine ⟨((Disk.save path store.savedText).run workplace.scene.files).2, ?_, ?_, ?_⟩
  · rw [carryOut_saveState, hfiles]
    dsimp only
    rw [hours]
    rfl
  · exact Disk.read_of_save (Prod.ext hours rfl)
  · exact Disk.savedTo_save path _ _

variable {clockwork : Clockwork} {environment : String → Option String} {request : Request}
  {options : RunOptions} {filter : LogFilter} {path : String} {start finish : Workplace}
  {code : Nat}

/-- What comes of a round in a workplace whose state file can be written. -/
theorem round_on_core {log : Log} (hlog : log.file = none) (hsave : start.CanSave path)
    (script : Script) (before : Store) :
    let core := (script.run (Store.provider clockwork.host.surroundings)
      (allowance options.timeout) (Table.ofList options.arguments.reverse)).run before start
    ∃ saved, start.carryOut (round clockwork log options path script before) =
        shown options saved (core.1.1.1, core.1.2) ∧
      saved.printed = start.printed ∧
      saved.scene.files.read path = .ok core.1.2.savedText ∧
      Disk.SavedTo path start.scene.files saved.scene.files := by
  intro core
  have hundisturbed := undisturbed_runOnce clockwork hlog options script before start
  generalize htold : (runOnce clockwork.host log options script before).run start = told
    at hundisturbed
  obtain ⟨told, ran⟩ := told
  have hcore : told = (core.1.1.1, core.1.2) := congrArg Prod.fst htold.symm
  obtain ⟨files, hsaved, hread, hfiles⟩ := exists_saved hsave hundisturbed.files told.2
  rw [← hcore, ← show told.2 = core.1.2 from congrArg Prod.snd hcore]
  exact ⟨{ ran with scene.files := files }, carryOut_round htold hsaved, hundisturbed.printed,
    hread, hfiles⟩

/-- A failure alone disturbs nothing. -/
theorem of_concluded_error {failure : Failure}
    (hconcluded : concluded (.error failure, start) = (code, finish)) :
    code = failure.exitCode ∧ Undisturbed start finish := by
  obtain ⟨rfl, rfl⟩ := Prod.mk.inj hconcluded
  exact ⟨rfl, rfl, rfl, rfl⟩

/-- **A request to run a script once.**  If the script cannot be read, does not parse or the state
file is refused, nothing is printed and no file is touched, and the exit code is 4, 2 or 4; the
state file does not matter if the script does not parse.  Otherwise the script is run on the store
in the state file.  Whether it finishes or fails, the store that it leaves stands in the state
file then and no other file has changed.  The output, if there is one, is printed as one document
with a newline behind it, and the exit code is 0; else nothing is printed and it is 3. -/
theorem request_agrees_with_run (htask : request.task = .run options)
    (hlog : request.logging.file = none)
    (hfilter : LogFilter.choose request.logging.level (environment "RUST_LOG")
      (start.settings environment).logLevel = .ok filter)
    (hpath : options.stateFile.or (start.settings environment).stateFile = some path)
    (htimeout : options.timeout.or (start.settings environment).timeout = none)
    (honce : options.every = none) (hsave : start.CanSave path)
    (hperform : (performRequest clockwork.host environment request).run start = (code, finish)) :
    (∀ error, start.source options.script = .error error →
      code = 4 ∧ Undisturbed start finish) ∧
    ∀ text, start.source options.script = .ok text →
      (∀ errors, parse text = .errors errors → code = 2 ∧ Undisturbed start finish) ∧
      ∀ script, parse text = .script script →
        (start.state? path = none → code = 4 ∧ Undisturbed start finish) ∧
        ∀ before, start.state? path = some before →
          let core := (script.run (Store.provider clockwork.host.surroundings) (allowance none)
            (Table.ofList options.arguments.reverse)).run before start
          let ending := core.1.1.1
          let after := core.1.2
          (∀ output, ending = .finished output →
            let document := (Value.map output).printed
            code = 0 ∧ finish.printed = start.printed ++
              ((if options.pretty then document.pretty else document.compact) ++ "\n")) ∧
          (∀ error, ending = .failed error → code = 3 ∧ finish.printed = start.printed) ∧
          (ending ≠ .exhausted →
            finish.scene.files.read path = .ok after.toJson.pretty ∧
            ∀ place, ¬finish.scene.files.LeadsTo path place →
              finish.scene.files.fileAt place = start.scene.files.fileAt place) := by
  have hrequest := hperform
  rw [run_performRequest htask hlog hfilter, carryOut_runScript hpath,
    show (options.completed (start.settings environment)).script = options.script from rfl]
    at hperform
  refine ⟨fun error herror => ?_, fun text htext =>
    ⟨fun errors hparse => ?_, fun script hparse => ?_⟩⟩
  · rw [herror] at hperform
    exact of_concluded_error hperform
  · have hparsed : parsed (.ok text) = .error (.syntaxErrors errors) := by
      simp only [parsed, hparse]
    rw [htext, hparsed] at hperform
    exact of_concluded_error hperform
  have hparsed : parsed (.ok text) = .ok script := by simp only [parsed, hparse]
  rw [htext, hparsed] at hperform
  obtain ⟨store, hstate, hloaded⟩ | ⟨failure, hstate, hloaded, hcode⟩ := loaded_cases start path
  · refine ⟨fun hrefused => (nomatch hstate.symm.trans hrefused), fun before hbefore => ?_⟩
    obtain rfl : store = before := Option.some.inj (hstate.symm.trans hbefore)
    intro core ending after
    obtain ⟨saved, hround, hprinted, hread, hfiles⟩ := @round_on_core clockwork
      (options.completed (start.settings environment)) path start ⟨none, filter⟩ rfl hsave script
        store
    rw [show (options.completed (start.settings environment)).timeout = none from htimeout]
      at hround hread
    change _ = shown _ saved (ending, after) at hround
    change saved.scene.files.read path = .ok after.savedText at hread
    clear_value ending after
    rw [run_performRequest_once htask hlog hfilter hpath honce (htext ▸ hparsed) hloaded,
      carryOut_bind, hround] at hrequest
    cases ending with
    | finished output =>
      obtain ⟨rfl, rfl⟩ := Prod.mk.inj hrequest
      refine ⟨fun other hother => ⟨rfl, ?_⟩, fun error herror => (nomatch herror), fun _ =>
        ⟨hread, hfiles.others⟩⟩
      obtain rfl := Ending.finished.inj hother
      exact congrArg (· ++ outputText options.pretty output) hprinted
    | failed error =>
      obtain ⟨rfl, rfl⟩ := Prod.mk.inj hrequest
      exact ⟨fun output houtput => (nomatch houtput), fun _ _ => ⟨rfl, hprinted⟩, fun _ =>
        ⟨hread, hfiles.others⟩⟩
    | exhausted =>
      exact ⟨fun output houtput => (nomatch houtput), fun error herror => (nomatch herror),
        fun hended => absurd rfl hended⟩
  · refine ⟨fun _ => ?_, fun before hbefore => (nomatch hstate.symm.trans hbefore)⟩
    rw [hloaded] at hperform
    obtain ⟨rfl, hundisturbed⟩ := of_concluded_error hperform
    exact ⟨hcode, hundisturbed⟩

/-- A script that counts visits and tells how many there were. -/
def counting : String :=
  "counter(\"visits\").increment(3)\nvisits = counter(\"visits\")\nbusy = counter(\"visits\") > 5\n"

/-- A script that counts visits and then asks for a variable that has no value. -/
def stumbling : String := "counter(\"visits\").increment(3)\nresult = $missing\n"

/-- A workplace with a script, in which four visits were counted before. -/
def visitedBefore (source : String) : Workplace :=
  { scene :=
      { clock := 40
        files := Disk.ofFiles [("run.asl", source),
          ("state.json", "\x7b\"counters\": \x7b\"visits\": 4\x7d\x7d")] } }

def runIt : Request := { logging := {}, task := .run recording }

/-- The exit code, the text printed and the text of the state file that are due for a script. -/
def due? (source : String) : Option (Nat × String × String) :=
  match parse source, (visitedBefore source).state? "state.json" with
  | .script script, some before =>
      let core := (script.run (Store.provider Clockwork.ticking.host.surroundings)
        (allowance none) (Table.ofList recording.arguments.reverse)).run before
          (visitedBefore source)
      match core.1.1.1 with
      | .finished output =>
          some (0, (Value.map output).printed.compact ++ "\n", core.1.2.toJson.pretty)
      | .failed _ => some (3, "", core.1.2.toJson.pretty)
      | .exhausted => none
  | _, _ => none

def sevenVisits : String :=
  "\x7b\n  \"counters\": \x7b\n    \"visits\": 7\n  \x7d,\n  \"series\": \x7b\x7d,\n  \"storage\": \x7b\x7d\n\x7d"

/-- A counting script prints its table and saves the raised counter; one that stumbles prints
nothing and saves it as well. -/
theorem request_agrees_with_run_visits :
    let performed (source : String) :=
      (performRequest Clockwork.ticking.host (fun _ => none) runIt).run (visitedBefore source)
    ((performed counting).1 = 0 ∧
      (performed counting).2.printed = "\x7b\"busy\":true,\"visits\":7.0\x7d\n" ∧
      (performed counting).2.scene.files.read "state.json" = .ok sevenVisits) ∧
    (performed stumbling).1 = 3 ∧
      (performed stumbling).2.printed = "" ∧
      (performed stumbling).2.scene.files.read "state.json" = .ok sevenVisits := by
  intro performed
  have hfilter : (LogFilter.choose none none none).isOk = true := by decide +kernel
  obtain ⟨filter, hfilter⟩ : ∃ filter, LogFilter.choose none none none = .ok filter := by
    cases hchosen : LogFilter.choose none none none with
    | ok filter => exact ⟨filter, rfl⟩
    | error flaw =>
      rw [hchosen] at hfilter
      cases hfilter
  -- what is due for a script is what performing the request comes to
  have hcase {source : String} {code : Nat} {text saved : String}
      (hsource : (visitedBefore source).source recording.script = .ok source)
      (hsave : ((visitedBefore source).carryOut (saveState host "state.json" {})).1 = .ok ())
      (hdue : due? source = some (code, text, saved)) :
      (performed source).1 = code ∧ (performed source).2.printed = text ∧
        (performed source).2.scene.files.read "state.json" = .ok saved := by
    obtain ⟨-, hrun⟩ := @request_agrees_with_run Clockwork.ticking (fun _ => none) runIt recording
      filter "state.json" (visitedBefore source) (performed source).2 (performed source).1 rfl rfl
      hfilter rfl rfl rfl ⟨{}, _, Prod.ext hsave rfl⟩ rfl
    unfold due? at hdue
    split at hdue
    · next script before hparse hstate =>
      obtain ⟨hfinished, hfailed, hfile⟩ := ((hrun source hsource).2 script hparse).2 before hstate
      dsimp only at hdue
      split at hdue
      · next output hending =>
        obtain ⟨rfl, rfl, rfl⟩ := Option.some.inj hdue
        obtain ⟨hcode, hprinted⟩ := hfinished output hending
        exact ⟨hcode, hprinted, (hfile (by rw [hending]; rintro ⟨⟩)).1⟩
      · next error hending =>
        obtain ⟨rfl, rfl, rfl⟩ := Option.some.inj hdue
        obtain ⟨hcode, hprinted⟩ := hfailed error hending
        exact ⟨hcode, hprinted, (hfile (by rw [hending]; rintro ⟨⟩)).1⟩
      · cases hdue
    · cases hdue
  refine ⟨hcase ?_ (eq_ok_of_succeeds ?_) ?_, hcase ?_ (eq_ok_of_succeeds ?_) ?_⟩
  all_goals decide +kernel

end Workplace

end MetricScript.CommandLine
