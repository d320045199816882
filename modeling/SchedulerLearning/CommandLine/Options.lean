/-!
# Options of a command

Reads the words of a command line into a settings value, one after the other: the first word
that ends the reading or has no place decides. Long options are written `--name value` or
`--name=value`, short ones `-n value`, `-nvalue` or `-n=value`, and short switches may share a
dash. A word that starts with a dash is no value of the option before it. An option may be
given once. All other words are operands, and behind a lone `--` every word is one.
-/

namespace SchedulerLearning.CommandLine

/-- Why reading ended before a command was understood. -/
inductive Ending
  | usage
  | help
  | version
  deriving Repr, DecidableEq

/-- What an option does to the settings `σ`. -/
inductive Effect (σ : Type)
  | ends (ending : Ending)
  | switch (set : σ → σ)
  /-- Takes a value; `none` if it does not read it. -/
  | value (set : List Char → σ → Option σ)

structure Flag (σ : Type) where
  long : String
  short : Option Char
  effect : Effect σ

structure Grammar (σ : Type) where
  flags : List (Flag σ)
  /-- Takes an operand; `none` if there is no place for it. -/
  operand : List Char → σ → Option σ

structure Reading (σ : Type) where
  settings : σ
  given : List String

variable {σ : Type}

namespace Flag

/-- Counts an option as given; a second time is an error. -/
def mark (f : Flag σ) (r : Reading σ) : Except Ending (Reading σ) :=
  if r.given.contains f.long then .error .usage else .ok { r with given := f.long :: r.given }

def applySwitch (f : Flag σ) (set : σ → σ) (r : Reading σ) : Except Ending (Reading σ) := do
  let r ← f.mark r
  return { r with settings := set r.settings }

def applyValue (f : Flag σ) (set : List Char → σ → Option σ) (value : List Char) (r : Reading σ) :
    Except Ending (Reading σ) := do
  let r ← f.mark r
  match set value r.settings with
  | some settings => return { r with settings }
  | none => throw .usage

end Flag

/-- Whether a word can be the value of the option before it. -/
def standsAlone (word : List Char) : Bool := word.head? ≠ some '-' || word = ['-']

/-- A long option without its dashes. The value may follow in the word, or is the next word,
in which case the words behind it are handed back. -/
def readLong (flags : List (Flag σ)) (text : List Char) (next : List (List Char)) (r : Reading σ) :
    Except Ending (Reading σ × Option (List (List Char))) :=
  let name := String.ofList (text.takeWhile (· ≠ '='))
  let attached := match text.dropWhile (· ≠ '=') with
    | [] => none
    | _ :: value => some value
  match flags.find? (·.long = name) with
  | none => .error .usage
  | some f =>
    match f.effect, attached, next with
    | .ends ending, none, _ => .error ending
    | .switch set, none, _ => return (← f.applySwitch set r, none)
    | .value set, some value, _ => return (← f.applyValue set value r, none)
    | .value set, none, value :: rest =>
      if standsAlone value then return (← f.applyValue set value r, some rest)
      else .error .usage
    | _, _, _ => .error .usage

/-- Short options sharing a dash, the last of which may take a value. -/
def readShort (flags : List (Flag σ)) (next : List (List Char)) :
    List Char → Reading σ → Except Ending (Reading σ × Option (List (List Char)))
  | [], r => .ok (r, none)
  | c :: text, r =>
    match flags.find? (·.short = some c) with
    | none => .error .usage
    | some f =>
      match f.effect, text, next with
      | .ends ending, _, _ => .error ending
      | .switch set, _, _ => do readShort flags next text (← f.applySwitch set r)
      | .value set, [], value :: rest =>
        if standsAlone value then return (← f.applyValue set value r, some rest)
        else .error .usage
      | .value _, [], [] => .error .usage
      | .value set, '=' :: value, _ => return (← f.applyValue set value r, none)
      | .value set, value, _ => return (← f.applyValue set value r, none)

namespace Grammar

def readOperand (g : Grammar σ) (r : Reading σ) (word : List Char) : Except Ending (Reading σ) :=
  match g.operand word r.settings with
  | some settings => .ok { r with settings }
  | none => .error .usage

def readWords (g : Grammar σ) : (fuel : Nat) → List (List Char) → Reading σ →
    Except Ending (Reading σ)
  | 0, _, r => .ok r
  | _, [], r => .ok r
  | fuel + 1, word :: rest, r =>
    match word with
    | ['-', '-'] => rest.foldlM g.readOperand r
    | '-' :: '-' :: text => do
      let (r, behind) ← readLong g.flags text rest r
      g.readWords fuel (behind.getD rest) r
    | '-' :: c :: text => do
      let (r, behind) ← readShort g.flags rest (c :: text) r
      g.readWords fuel (behind.getD rest) r
    | _ => do g.readWords fuel rest (← g.readOperand r word)

def read (g : Grammar σ) (usual : σ) (words : List (List Char)) : Except Ending σ :=
  (g.readWords words.length words ⟨usual, []⟩).map Reading.settings

end Grammar

end SchedulerLearning.CommandLine
