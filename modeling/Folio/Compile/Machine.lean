import Folio.Desk
import Folio.Value.Basic

/-!
# External programs

The machine that a book is compiled on: which programs it has and how each run of one ends. A run
may change any file before it ends; what it says of errors is written over the start of the file
kept for it. A program is given by an executable of its own or found by its name, and an empty name
names none.
-/

namespace Folio

/-- How a run ends. -/
inductive Ending
  | done
  /-- With a status that is not zero; a negative one is a signal. -/
  | failed (status : Int)
  /-- The program cannot be started, for a reason that the system gives. -/
  | unstartable (reason : String)
  /-- This program is interrupted while it waits. -/
  | interrupted (kind : String)

/-- What comes of a run. -/
structure RunOutcome where
  effect : Disk → Disk
  errors : String
  ending : Ending

/-- Why a tool fails. -/
inductive ToolFault
  | compilerNotFound
  | compilerNotInstalled
  /-- A program ends with a status that is not zero. -/
  | exited (command : List String) (status : Int)
  /-- A tool or the system says what is wrong. -/
  | reported (reason : String)
  | disk (fault : DiskFault)
  /-- The work is ended by something that is no error of the tool. -/
  | interrupted (kind : String)

/-- What comes of a call of the bundled compiler: the disk after it, and why it fails if it does. -/
structure BundledOutcome where
  disk : Disk
  failure : Option ToolFault

/-- A machine. -/
structure Machine where
  /-- The executable with a name. -/
  executable : String → Option String
  /-- What comes of a run, after a number of earlier ones. -/
  outcome : Nat → Run → RunOutcome
  /-- The bundled compiler, if it is installed. -/
  bundled : Option (BundledCall → Disk → BundledOutcome)

/-- The names of the signals from one on. -/
def signalNames : List String :=
  ["SIGHUP", "SIGINT", "SIGQUIT", "SIGILL", "SIGTRAP", "SIGABRT", "SIGBUS", "SIGFPE", "SIGKILL",
    "SIGUSR1", "SIGSEGV", "SIGUSR2", "SIGPIPE", "SIGALRM", "SIGTERM", "SIGSTKFLT", "SIGCHLD",
    "SIGCONT", "SIGSTOP", "SIGTSTP", "SIGTTIN", "SIGTTOU", "SIGURG", "SIGXCPU", "SIGXFSZ",
    "SIGVTALRM", "SIGPROF", "SIGWINCH", "SIGIO", "SIGPWR", "SIGSYS"]

/-- The name of a signal: one of the first, or an end of the range kept for programs. -/
def signalName? (number : Nat) : Option String :=
  if number = 34 then some "SIGRTMIN"
  else if number = 64 then some "SIGRTMAX"
  else signalNames[number - 1]?

/-- How a program that left a status has ended. -/
def endingText (status : Int) : String :=
  if 0 ≤ status then "returned non-zero exit status " ++ toString status ++ "."
  else
    let number := status.natAbs
    match signalName? number with
    | some name => "died with <Signals." ++ name ++ ": " ++ toString number ++ ">."
    | none => "died with unknown signal " ++ toString number ++ "."

/-- The wording of a fault. -/
def ToolFault.message : ToolFault → String
  | compilerNotFound => "typst command not found"
  | compilerNotInstalled => "No module named 'typst'"
  | exited command status =>
    "Command '" ++ (Value.list (command.map .text)).shown ++ "' " ++ endingText status
  | reported reason => reason
  | disk fault => fault.message
  | interrupted kind => kind

namespace Machine

/-- The executable of a program: the given one, or else the one with its name. -/
def program? (m : Machine) (given : Option String) (name : String) : Option String :=
  given.filter (· ≠ "") <|> (m.executable name).filter (· ≠ "")

/-- The disk after a run. -/
def after (outcome : RunOutcome) (run : Run) (disk : Disk) : Disk :=
  let disk := outcome.effect disk
  match run.output with
  | .files _ errors =>
    if outcome.errors = "" then disk
    else match disk.overwrite errors outcome.errors with
      | .ok disk => disk
      | .error _ => disk
  | _ => disk

/-- Runs a program. -/
def run (m : Machine) (run : Run) : Job ToolFault Unit := fun desk =>
  let outcome := m.outcome desk.runs.length run
  let desk := { desk with disk := after outcome run desk.disk, runs := desk.runs ++ [run] }
  match outcome.ending with
  | .done => .ok () desk
  | .failed status => .error (.exited run.command status) desk
  | .unstartable reason => .error (.reported reason) desk
  | .interrupted kind => .error (.interrupted kind) desk

/-- Calls the bundled compiler. -/
def call (bundled : BundledCall → Disk → BundledOutcome) (call : BundledCall) :
    Job ToolFault Unit :=
  fun desk =>
    let outcome := bundled call desk.disk
    let desk := { desk with disk := outcome.disk, calls := desk.calls ++ [call] }
    match outcome.failure with
    | none => .ok () desk
    | some fault => .error fault desk

end Machine

end Folio
