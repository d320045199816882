import SchedulerLearning.CommandLine.Report

/-!
# The program

Reads model files and the clock, asks the machine for its entropy and its processors, prints a
report, and exits with its code.
-/

namespace SchedulerLearning

/-- The system's number of an error, which may come negated. -/
def errorNumber : IO.Error → UInt32
  | .noFileOrDirectory _ code _ | .permissionDenied _ code _ | .inappropriateType _ code _
  | .invalidArgument _ code _ | .noSuchThing _ code _ | .hardwareFault code _ => min code (-code)
  | _ => 0

def unreadable (e : IO.Error) : String :=
  match errorNumber e with
  | 2 => "No such file or directory (os error 2)"
  | 5 => "Input/output error (os error 5)"
  | 6 => "No such device or address (os error 6)"
  | 13 => "Permission denied (os error 13)"
  | 20 => "Not a directory (os error 20)"
  | 21 => "Is a directory (os error 21)"
  | 36 => "File name too long (os error 36)"
  | 40 => "Too many levels of symbolic links (os error 40)"
  | _ => toString e

def load (path : String) : IO (Except String String) := do
  try
    let bytes ← IO.FS.readBinFile path
    return (String.fromUTF8? bytes).elim (.error "stream did not contain valid UTF-8") .ok
  catch e => return .error (unreadable e)

/-- How many processors the system lists, one if it lists none. -/
def parallelism : IO { n : Nat // 0 < n } := do
  let listed ←
    try IO.FS.lines "/proc/cpuinfo"
    catch _ => pure #[]
  let processors := listed.toList.countP (·.startsWith "processor")
  return ⟨max 1 processors, by omega⟩

def machine : IO Machine := do
  let bytes ← IO.getRandomBytes 8
  let entropy := bytes.foldl (fun value byte => value * 256 + byte.toUInt64) 0
  let ⟨parallelism, positive⟩ ← parallelism
  -- A map's entry, with a state and a vector in it, takes about a line of the cache.
  return ⟨entropy, parallelism, positive, Room.most 64⟩

end SchedulerLearning

open SchedulerLearning in
def main (words : List String) : IO UInt32 := do
  let report ← CommandLine.report load IO.monoNanosNow (← machine) words
  for line in report.stdout do IO.println line
  if let some message := report.message then IO.eprintln message
  return report.exit.toUInt32
