import SchedulerLearning.Decimal.Reader
import SchedulerLearning.Model.Explicit
import SchedulerLearning.ModelFile.Token

/-!
# Model files

A text format for models by enumeration. A line declares the number of states, the initial
state, goal states, or one more choice of a state:

```text
states 3
initial 0
0 -> 0.9:1 0.1:2   # a choice in state 0
goal 1
```

The number of states comes first. An error carries the place of the words that caused it.
-/

namespace SchedulerLearning

namespace ModelFile

inductive Expected
  | stateCount
  | stateIndex
  | probability
  deriving Repr, DecidableEq

def Expected.text : Expected → String
  | .stateCount => "a number of states"
  | .stateIndex => "a state index"
  | .probability => "a probability"

inductive Cause
  | missingCount
  | countTwice
  | notRead (expected : Expected) (text : List Char)
  | noStates
  | missingInitial
  | missingGoals
  | missingArrow
  | countNotFirst
  | stateOutOfRange (index states : Nat)
  | notABranch (text : List Char)
  | probabilityOutOfRange (p : Float)
  | noBranches
  | wrongSum (sum : Float)
  | noCountDeclared
  | noGoalDeclared
  | rejected (error : ModelError Float)
  deriving Repr

def Cause.message : Cause → String
  | .missingCount => "expected the number of states"
  | .countTwice => "`states` declared twice"
  | .notRead expected text => s!"expected {expected.text}, found '{String.ofList text}'"
  | .noStates => "a model needs at least one state"
  | .missingInitial => "expected the initial state"
  | .missingGoals => "expected at least one goal state"
  | .missingArrow => "expected `->` after the source state"
  | .countNotFirst => "`states` must be declared first"
  | .stateOutOfRange index states => s!"state {index} out of range for {states} states"
  | .notABranch text => s!"expected `probability:state`, found '{String.ofList text}'"
  | .probabilityOutOfRange p => s!"probability {Decimal.plain p} outside [0, 1]"
  | .noBranches => "a choice needs at least one branch"
  | .wrongSum sum => s!"branch probabilities sum to {Decimal.plain sum}, expected 1"
  | .noCountDeclared => "missing `states` declaration"
  | .noGoalDeclared => "missing `goal` declaration"
  | .rejected error => error.message

structure ParseError where
  cause : Cause
  span : Span
  deriving Repr

def ParseError.message (e : ParseError) : String := e.cause.message

structure Parser where
  states : Option Nat
  initial : Nat
  initialSpan : Span
  /-- The choices in the order of the lines, each with its state. -/
  choices : Array (Nat × List (Float × Nat))
  goals : Array Nat
  deriving Repr

namespace Parser

def start : Parser := ⟨none, 0, ⟨0, 0⟩, #[], #[]⟩

def state (p : Parser) (text : List Char) (span : Span) : Except ParseError Nat :=
  match p.states with
  | none => .error ⟨.countNotFirst, span⟩
  | some states =>
    match Decimal.size? text with
    | none => .error ⟨.notRead .stateIndex text, span⟩
    | some index =>
      if states ≤ index then .error ⟨.stateOutOfRange index states, span⟩ else .ok index

/-- Reads `probability:state`. -/
def branch (p : Parser) (word : Token) : Except ParseError (Float × Nat) := do
  let before := word.text.takeWhile (· ≠ ':')
  match word.text.dropWhile (· ≠ ':') with
  | [] => throw ⟨.notABranch word.text, word.span⟩
  | _ :: behind =>
    match Decimal.number? before with
    | none => throw ⟨.notRead .probability before, word.span⟩
    | some probability =>
      unless 0 ≤ probability && probability ≤ 1 do
        throw ⟨.probabilityOutOfRange probability, word.span⟩
      return (probability, ← p.state behind word.span)

/-- Reads `states N`, the words behind the first given. -/
def countLine (p : Parser) (line : Span) : List Token → Except ParseError Parser
  | [] => .error ⟨.missingCount, line⟩
  | word :: _ => do
    if p.states.isSome then throw ⟨.countTwice, line⟩
    match Decimal.size? word.text with
    | none => throw ⟨.notRead .stateCount word.text, word.span⟩
    | some states =>
      if states = 0 then throw ⟨.noStates, word.span⟩
      return { p with states := some states }

def initialLine (p : Parser) (line : Span) : List Token → Except ParseError Parser
  | [] => .error ⟨.missingInitial, line⟩
  | word :: _ => do
    let initial ← p.state word.text word.span
    return { p with initial, initialSpan := word.span }

def goalLine (p : Parser) (line : Span) (words : List Token) : Except ParseError Parser := do
  let goals ← words.mapM fun word => p.state word.text word.span
  if goals.isEmpty then throw ⟨.missingGoals, line⟩
  return { p with goals := p.goals ++ goals.toArray }

/-- Reads `I -> p:J ...`. -/
def choiceLine (p : Parser) (line : Span) (source : Token) (words : List Token) :
    Except ParseError Parser := do
  let index ← p.state source.text source.span
  match words with
  | arrow :: words =>
    unless arrow.text = "->".toList do throw ⟨.missingArrow, line⟩
    let branches ← words.mapM p.branch
    if branches.isEmpty then throw ⟨.noBranches, line⟩
    let sum := Distribution.total branches
    if Distribution.tolerance < Scalar.abs (sum - 1) then throw ⟨.wrongSum sum, line⟩
    return { p with choices := p.choices.push (index, branches) }
  | [] => throw ⟨.missingArrow, line⟩

/-- Reads a line without its comment that begins at byte `offset`. -/
def line (p : Parser) (text : List Char) (offset : Nat) : Except ParseError Parser :=
  match tokens offset text with
  | [] => .ok p
  | head :: words =>
    let span := head.spanOf words
    if head.text = "states".toList then p.countLine span words
    else if head.text = "initial".toList then p.initialLine span words
    else if head.text = "goal".toList then p.goalLine span words
    else p.choiceLine span head words

def readLines (p : Parser) (offset : Nat) : List (List Char) → Except ParseError Parser
  | [] => .ok p
  | raw :: rest => do
    let p ← p.line (withoutComment raw) offset
    p.readLines (offset + byteLength raw) rest

end Parser

end ModelFile

/-- A model and the states that are to be reached, in increasing order. -/
structure ModelFile where
  model : ExplicitModel Float
  goals : List Nat

namespace ModelFile

def Parser.draft (p : Parser) (states : Nat) : Except Fault (ExplicitModel.Draft Float) := do
  let draft ← ExplicitModel.Draft.ofStates states
  return p.choices.foldl (fun d (source, branches) => d.offer source branches)
    (draft.startingAt p.initial)

def parseChars (source : List Char) : Except (Stop ParseError) ModelFile := do
  let p ← (Parser.start.readLines 0 (lines source)).mapError .refused
  match p.states with
  | none => throw (.refused ⟨.noCountDeclared, ⟨0, byteLength source⟩⟩)
  | some states =>
    if p.goals.isEmpty then
      throw (.refused ⟨.noGoalDeclared, ⟨byteLength source, byteLength source⟩⟩)
    let draft ← p.draft states
    let model ← draft.build.mapError fun e => .refused ⟨.rejected e, p.initialSpan⟩
    return ⟨model, (p.goals.toList.mergeSort (· ≤ ·)).eraseReps⟩

def parse (source : String) : Except (Stop ParseError) ModelFile := parseChars source.toList

end ModelFile

end SchedulerLearning
