import SchedulerLearning.CommandLine.Command
import SchedulerLearning.Engine.Schedule
import SchedulerLearning.Model.Mutex
import SchedulerLearning.Model.RandomWalk
import SchedulerLearning.ModelFile.Parser

/-!
# What the program prints

A command line leads to an exit code, lines on the standard output, and a message if the
command failed. Reading a model file and looking at the clock are left to the caller.
-/

namespace SchedulerLearning.CommandLine

open SchedulerLearning.Random (Generator)

inductive Failure
  | unreadable (path reason : String)
  | modelFile (error : ModelFile.ParseError)
  | config (error : ConfigError)
  | model (error : ModelError Float)
  | learn (error : LearnError)

def Failure.message : Failure → String
  | .unreadable path reason => s!"failed to read file: {path}: {reason}"
  | .modelFile error => "model file error: " ++ error.message
  | .config error => "invalid option: " ++ error.message
  | .model error => "model error: " ++ error.message
  | .learn error => "run failed: " ++ error.message

structure Report where
  exit : Nat
  stdout : List String
  message : Option String
  deriving Repr

def summaryLines (options : RunOptions) (s : Session.Summary) : List String :=
  if options.machine then
    [if options.profile then s.outcome.csv ++ ", " ++ s.profile.csv else s.outcome.csv]
  else
    let early :=
      if s.learning.stoppedEarly then
        [s!" - Learning stopped early after {s.learning.blocks} blocks"]
      else []
    s.outcome.lines ++ early ++
      [s!" - Policy has {s.profile.policyStates} states",
        " - Total run time: " ++ RunProfile.inSeconds s.profile.total] ++
      (if options.verbose then s.profile.lines else []) ++
      (if options.profile then [s.profile.csv] else [])

/-- The model of a command and the states that are to be reached. Files are read by `load`. -/
def Command.build {m : Type → Type} [Monad m] (load : String → m (Except String String)) :
    Command → m (Except (Stop Failure) (DecisionProcess Float × StatePredicate))
  | .mutex processes critical modelSeed =>
    return match Mutex.ofSource Generator.source processes (.ofSeed modelSeed.toUInt64) with
    | .error fault => .error (.faulted fault)
    | .ok model => .ok (model.process, fun s => .ok (critical ≤ Mutex.criticalCount s))
  | .walk vars max jumps target modelSeed =>
    return match RandomWalk.ofSource Generator.source vars max jumps (.ofSeed modelSeed.toUInt64) with
    | .error e => .error (e.map .model)
    | .ok model =>
      let target := target.getD max
      .ok (model.process, fun s => (s.get 0).map fun x => target ≤ x)
  | .explicit path => do
    match ← load path with
    | .error reason => return .error (.refused (.unreadable path reason))
    | .ok source =>
      match ModelFile.parse source with
      | .error e => return .error (e.map .modelFile)
      | .ok file =>
        let goals := file.goals.map State.ofIndex
        return .ok (file.model.process, fun s => .ok (goals.contains s))

def Request.execute {m : Type → Type} [Monad m] (load : String → m (Except String String))
    (now : m Nat) (machine : Machine) (r : Request) : m (Except (Stop Failure) Session.Summary) := do
  match r.run.toConfig with
  | .error e => return .error (.refused (.config e))
  | .ok config =>
    match ← r.command.build load with
    | .error e => return .error e
    | .ok (process, goal) =>
      let property : BoundedProperty := ⟨.reachability, r.bound, goal⟩
      match Session.prepare process property.property config machine with
      | .error e => return .error (e.map .learn)
      | .ok session =>
        let (_, result) ← session.runTimed now
        return result.mapError (Stop.map .learn)

def version : String := "smdp 0.1.0"

def usage : List String :=
  ["Statistical model checking of MDPs with learned schedulers",
    "",
    "Usage: smdp <COMMAND>",
    "",
    "Commands: mutex, walk, explicit, help"]

def report {m : Type → Type} [Monad m] (load : String → m (Except String String)) (now : m Nat)
    (machine : Machine) (words : List String) : m Report := do
  match readRequest words with
  | .error .usage => return ⟨2, [], none⟩
  | .error .help => return ⟨0, usage, none⟩
  | .error .version => return ⟨0, [version], none⟩
  | .ok request =>
    match ← request.execute load now machine with
    | .ok summary => return ⟨0, summaryLines request.run summary, none⟩
    | .error (.refused failure) => return ⟨1, [], some failure.message⟩
    | .error (.faulted fault) => return ⟨101, [], some fault.message⟩

end SchedulerLearning.CommandLine
