import SchedulerLearning.CommandLine.Options
import SchedulerLearning.Decimal.Reader
import SchedulerLearning.Learning.Config

/-!
# Commands

The commands of the program: which model to check, up to which bound, and how to run.
-/

namespace SchedulerLearning.CommandLine

/-- What every command may set. Names of strategies are kept as they were written. -/
structure RunOptions where
  config : Config := {}
  rule : String := "count"
  attribution : String := "uniform"
  pathSatisfied : Option Nat := none
  lastSatisfied : Option Nat := none
  pathFailed : Option Nat := none
  lastFailed : Option Nat := none
  decay : Option Nat := none
  /-- Prints the result as one line of values. -/
  machine : Bool := false
  /-- Prints the durations of the phases. -/
  profile : Bool := false
  verbose : Bool := false

/-- The settings of all commands; each reads the ones it knows. -/
structure Settings where
  run : RunOptions := {}
  processes : Nat := 3
  critical : Nat := 2
  vars : Nat := 3
  max : Int := 10
  jumps : Nat := 5
  target : Option Int := none
  bound : Nat := 100
  modelSeed : Nat := 0
  path : Option String := none

inductive Command
  /-- How likely processes can be brought into the critical section together. -/
  | mutex (processes critical modelSeed : Nat)
  /-- How likely the first variable reaches a value. -/
  | walk (vars : Nat) (max : Int) (jumps : Nat) (target : Option Int) (modelSeed : Nat)
  /-- How likely a goal state of a model file is reached. -/
  | explicit (path : String)

structure Request where
  command : Command
  bound : Nat
  run : RunOptions

private def switch (long : String) (set : RunOptions → RunOptions) : Flag Settings :=
  ⟨long, none, .switch fun s => { s with run := set s.run }⟩

private def reading {τ : Type} (read? : List Char → Option τ) (set : τ → Settings → Settings) :
    Effect Settings :=
  .value fun text s => (read? text).map fun value => set value s

/-- An option with a value that goes into the run options. -/
private def run {τ : Type} (long : String) (read? : List Char → Option τ)
    (set : τ → RunOptions → RunOptions) : Flag Settings :=
  ⟨long, none, reading read? fun value s => { s with run := set value s.run }⟩

/-- An option with a value that goes into the configuration. -/
private def configured {τ : Type} (long : String) (read? : List Char → Option τ)
    (set : τ → Config → Config) : Flag Settings :=
  run long read? fun value r => { r with config := set value r.config }

open Decimal (size? integer? number?)

private def text? (text : List Char) : Option String := some (String.ofList text)

def runFlags : List (Flag Settings) :=
  [{ configured "threads" size? (fun v c => { c with workers := v }) with short := some 't' },
    configured "traces" size? fun v c => { c with tracesPerBlock := v },
    configured "blocks" size? fun v c => { c with blocks := v },
    configured "jobs-per-request" size? fun v c => { c with jobsPerRequest := v },
    configured "check-block" size? fun v c => { c with checkBatch := v },
    run "update" text? fun v r => { r with rule := v },
    run "reward" text? fun v r => { r with attribution := v },
    configured "history" number? fun v c => { c with history := v },
    configured "epsilon" number? fun v c => { c with epsilon := v },
    run "pathsat" size? fun v r => { r with pathSatisfied := some v },
    run "lastsat" size? fun v r => { r with lastSatisfied := some v },
    run "pathnsat" size? fun v r => { r with pathFailed := some v },
    run "lastnsat" size? fun v r => { r with lastFailed := some v },
    run "decay" size? fun v r => { r with decay := some v },
    switch "bayes-learning" fun r => { r with config := { r.config with bayesLearning := true } },
    configured "learn-t" number? fun v c => { c with learnThreshold := v },
    configured "iota" number? fun v c => { c with iota := v },
    switch "no-determinisation" fun r => { r with config := { r.config with determinise := false } },
    switch "interval-estimation" fun r => { r with config := { r.config with method := .estimation } },
    configured "alpha" number? fun v c => { c with alpha := v },
    configured "beta" number? fun v c => { c with beta := v },
    configured "theta" number? fun v c => { c with theta := v },
    { configured "threshold" number? (fun v c => { c with threshold := v }) with short := some 'T' },
    configured "min-traces" size? fun v c => { c with minTraces := v },
    configured "max-traces" size? fun v c => { c with maxTraces := v },
    configured "delta" number? fun v c => { c with delta := v },
    configured "coefficient" number? fun v c => { c with coefficient := v },
    configured "seed" size? fun v c => { c with seed := some v.toUInt64 },
    switch "machine" fun r => { r with machine := true },
    switch "profile" fun r => { r with profile := true },
    { switch "verbose" (fun r => { r with verbose := true }) with short := some 'v' },
    ⟨"help", some 'h', .ends .help⟩]

def boundFlag : Flag Settings := ⟨"bound", some 'b', reading size? fun v s => { s with bound := v }⟩

def modelSeedFlag : Flag Settings :=
  ⟨"model-seed", none, reading size? fun v s => { s with modelSeed := v }⟩

def mutexGrammar : Grammar Settings where
  flags :=
    [⟨"processes", some 'n', reading size? fun v s => { s with processes := v }⟩,
      ⟨"critical", none, reading size? fun v s => { s with critical := v }⟩,
      boundFlag, modelSeedFlag] ++ runFlags
  operand _ _ := none

def walkGrammar : Grammar Settings where
  flags :=
    [⟨"vars", none, reading size? fun v s => { s with vars := v }⟩,
      ⟨"max", none, reading integer? fun v s => { s with max := v }⟩,
      ⟨"jumps", none, reading size? fun v s => { s with jumps := v }⟩,
      ⟨"target", none, reading integer? fun v s => { s with target := some v }⟩,
      boundFlag, modelSeedFlag] ++ runFlags
  operand _ _ := none

/-- The one operand is the path of the model file. -/
def explicitGrammar : Grammar Settings where
  flags := boundFlag :: runFlags
  operand word s :=
    if word.isEmpty || s.path.isSome then none else some { s with path := String.ofList word }

/-- What may stand in place of a command. -/
def programGrammar : Grammar Unit where
  flags := [⟨"help", some 'h', .ends .help⟩, ⟨"version", some 'V', .ends .version⟩]
  operand _ _ := none

def commandNames : List String := ["mutex", "walk", "explicit"]

/-- A request behind the help command: a command to explain, or the program. -/
def readHelp : List (List Char) → Ending
  | [] => .help
  | [name] => if (String.ofList name) ∈ "help" :: commandNames then .help else .usage
  | _ => .usage

def readMutex (words : List (List Char)) : Except Ending Request := do
  let s ← mutexGrammar.read { bound := 50 } words
  return ⟨.mutex s.processes s.critical s.modelSeed, s.bound, s.run⟩

def readWalk (words : List (List Char)) : Except Ending Request := do
  let s ← walkGrammar.read {} words
  return ⟨.walk s.vars s.max s.jumps s.target s.modelSeed, s.bound, s.run⟩

def readExplicit (words : List (List Char)) : Except Ending Request := do
  let s ← explicitGrammar.read {} words
  match s.path with
  | some path => return ⟨.explicit path, s.bound, s.run⟩
  | none => throw .usage

def readRequest (words : List String) : Except Ending Request :=
  match words with
  | [] => .error .usage
  | "mutex" :: rest => readMutex (rest.map String.toList)
  | "walk" :: rest => readWalk (rest.map String.toList)
  | "explicit" :: rest => readExplicit (rest.map String.toList)
  | "help" :: rest => .error (readHelp (rest.map String.toList))
  | word :: _ =>
    match programGrammar.read () [word.toList] with
    | .error ending => .error ending
    | .ok () => .error .usage

/-- The attribution of the run options, with the rewards set by hand in place of the usual
ones of the strategy that has them. -/
def RunOptions.withRewards (r : RunOptions) : Attribution → Attribution
  | .uniform => .uniform
  | .lastAction usual =>
    .lastAction {
      pathSatisfied := r.pathSatisfied.getD usual.pathSatisfied
      lastSatisfied := r.lastSatisfied.getD usual.lastSatisfied
      pathFailed := r.pathFailed.getD usual.pathFailed
      lastFailed := r.lastFailed.getD usual.lastFailed }
  | .decay usual => .decay (r.decay.getD usual)

/-- The configuration of a run. The reward strategy is looked at first, then the update rule,
then the ranges. -/
def RunOptions.toConfig (r : RunOptions) : Except ConfigError Config := do
  let attribution := r.withRewards (← Attribution.ofName r.attribution)
  let rule ← UpdateRule.ofName r.rule
  let config := { r.config with rule, attribution }
  config.validate
  return config

end SchedulerLearning.CommandLine
