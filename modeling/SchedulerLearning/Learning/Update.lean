import SchedulerLearning.Learning.Rewards
import SchedulerLearning.Learning.Scheduler

/-!
# Updates of a scheduler

At the end of a block every state with rewards gets new probabilities, by one of five rules.
A state whose rewards say nothing keeps the ones it has. States do not depend on each other,
so a fault at one of them leaves the update of the others alone.
-/

namespace SchedulerLearning

inductive UpdateRule
  /-- Normalised success rates, blended with the old probabilities. -/
  | count
  /-- Normalised differences of satisfying and failing reward, shifted to be positive. -/
  | completeCount
  /-- Normalised success rates, blended with the old probabilities. -/
  | success
  /-- All but `epsilon` on the best success rate, the rest spread evenly. -/
  | epsilon
  /-- A greedy target blended with the old probabilities, where the history weighs the
  target. -/
  | epsilonCount
  deriving Repr, DecidableEq

structure UpdateWeights (α : Type) where
  /-- The weight of the old probabilities. -/
  history : α
  epsilon : α
  deriving Repr

def UpdateWeights.usual : UpdateWeights Float := ⟨0.5, 0.1⟩

namespace UpdateRule

def name : UpdateRule → String
  | .count => "count"
  | .completeCount => "compcount"
  | .success => "success"
  | .epsilon => "epsilon"
  | .epsilonCount => "epcount"

def ofName? (text : String) : Option UpdateRule :=
  match text.toLower with
  | "count" => some .count
  | "compcount" => some .completeCount
  | "success" => some .success
  | "epsilon" => some .epsilon
  | "epcount" => some .epsilonCount
  | _ => none

variable {α : Type} [Scalar α]

/-- The success rate of every choice; an untried one keeps its old probability. -/
@[specialize] def estimates (old : List α) (rewards : Tallies) : List α :=
  List.zipWith (fun p t => t.rate?.getD p) old rewards

/-- `weight` parts of the old probabilities, the rest of the target. -/
@[specialize] def blend (weight : α) (old target : List α) : List α :=
  List.zipWith (fun o t => weight * o + (1 - weight) * t) old target

@[specialize] def normalised? (estimates : List α) : Option (List α) :=
  let norm := Scalar.sum estimates
  if norm == 0 then none else some (estimates.map (· / norm))

/-- Scores, shifted so that the least is one if any was negative. -/
def shifted (scores : List Int) : Except Fault (List Int) := do
  let least := scores.min?.getD 0
  let shift ← if least < 0 then Word.subSigned 1 least else pure 0
  scores.mapM (Word.addSigned · shift)

/-- The target of the score rule, `none` if all scores are zero. -/
@[specialize] def scoreTarget? (rewards : Tallies) : Except Fault (Option (List α)) := do
  let scores ← shifted (← rewards.mapM Tally.score)
  let total ← Word.sumSigned scores
  return if total = 0 then none else some (scores.map fun s => (s.toNat : α) / (total.toNat : α))

/-- The greedy target: `epsilon` parts of the normalised estimates, the rest on the best. -/
@[specialize] def greedyTarget (epsilon : α) (estimates normalised : List α) : List α :=
  let best := Scalar.argmax estimates
  normalised.mapIdx fun i e => epsilon * e + (1 - epsilon) * (if i = best then 1 else 0)

@[specialize] def next? (rule : UpdateRule) (w : UpdateWeights α) (old : List α) (rewards : Tallies) :
    Except Fault (Option (List α)) := do
  if old.length ≠ rewards.length then
    throw (.assertion "policy and rewards disagree on the number of choices")
  if (← rewards.trials) = 0 then return none
  match rule with
  | .count | .success => return (normalised? (estimates old rewards)).map (blend w.history old)
  | .completeCount => return (← scoreTarget? rewards).map (blend w.history old)
  | .epsilon =>
    let n := old.length
    if n < 2 then return none
    let best := Scalar.argmax (estimates old rewards)
    let other := w.epsilon / ((n - 1 : Nat) : α)
    return some ((List.range n).map fun i => if i = best then 1 - w.epsilon else other)
  | .epsilonCount =>
    let estimates := estimates old rewards
    return (normalised? estimates).map fun normalised =>
      blend (1 - w.history) old (greedyTarget w.epsilon estimates normalised)

end UpdateRule

structure Updated (α : Type) where
  scheduler : Scheduler α
  changed : Nat
  fault : Option Fault

namespace Scheduler

variable {α : Type} [Scalar α]

/-- Updates one state. An unknown state counts as uniform, and becomes known. -/
@[specialize] def updateState (p : Scheduler α) (rule : UpdateRule) (w : UpdateWeights α) (s : State)
    (rewards : Tallies) : Scheduler α × Except Fault Bool :=
  let known := p.states.getD s (.uniform rewards.length)
  let p : Scheduler α := ⟨p.states.insertIfNew s known⟩
  let replaced : Except Fault (Option (Mixture α)) := do
    match ← rule.next? w known.probabilities rewards with
    | none => return none
    | some probabilities => return some (← known.replace probabilities)
  match replaced with
  | .ok none => (p, .ok false)
  | .ok (some mixture) => (⟨p.states.insert s mixture⟩, .ok true)
  | .error fault => (p, .error fault)

@[specialize] def updateEach (rule : UpdateRule) (w : UpdateWeights α) (p : Scheduler α)
    (entries : List (State × Tallies)) : Updated α :=
  entries.foldl (fun done (s, rewards) =>
    match done.scheduler.updateState rule w s rewards with
    | (p, .ok changed) =>
      ⟨p, if changed then done.changed + 1 else done.changed, done.fault⟩
    | (p, .error fault) => ⟨p, done.changed, done.fault <|> some fault⟩) ⟨p, 0, none⟩

@[specialize] def update (rule : UpdateRule) (w : UpdateWeights α) (p : Scheduler α) (rewards : Rewards) : Updated α :=
  updateEach rule w p rewards.states.toList

end Scheduler

end SchedulerLearning
