/-!
# Exit statuses

How a process ended, and how a message words it.  The system reports it as one number, the wait
status, which `ofWait` takes apart.
-/

namespace ContractBuild

/-- What became of a process. -/
inductive ExitStatus
  /-- It exited with a code. -/
  | exited (code : Nat)
  /-- A signal ended it, with or without a memory image left behind. -/
  | signaled (signal : Nat) (coreDumped : Bool)
  /-- A signal stopped it. -/
  | stopped (signal : Nat)
  /-- It goes on after it had been stopped. -/
  | continued
  /-- The system reports a number of no meaning. -/
  | unknown (raw : Nat)
  deriving DecidableEq, Repr

/-- The names of the signals, from the first on. -/
def signalNames : List String :=
  ["SIGHUP", "SIGINT", "SIGQUIT", "SIGILL", "SIGTRAP", "SIGABRT", "SIGBUS", "SIGFPE", "SIGKILL",
    "SIGUSR1", "SIGSEGV", "SIGUSR2", "SIGPIPE", "SIGALRM", "SIGTERM", "SIGSTKFLT", "SIGCHLD",
    "SIGCONT", "SIGSTOP", "SIGTSTP", "SIGTTIN", "SIGTTOU", "SIGURG", "SIGXCPU", "SIGXFSZ",
    "SIGVTALRM", "SIGPROF", "SIGWINCH", "SIGIO", "SIGPWR", "SIGSYS"]

/-- The name of a signal in brackets, as it follows its number. -/
def signalSuffix (signal : Nat) : String :=
  match signal with
  | 0 => ""
  | n + 1 =>
    match signalNames[n]? with
    | some name => s!" ({name})"
    | none => ""

/-- How many numbers a word of 32 bits can hold. -/
def halfWordCount : Nat := 4294967296

/-- The digits of a number in base sixteen, marked as such. -/
def hexadecimal (n : Nat) : String := "0x" ++ String.ofList (Nat.toDigits 16 n)

namespace ExitStatus

/-- What a wait status of 32 bits says: seven bits for a signal, one for a memory image, eight for
a code. -/
def ofWait (raw : Nat) : ExitStatus :=
  let raw := raw % halfWordCount
  let signal := raw % 128
  if signal = 0 then .exited (raw / 256 % 256)
  else if signal ≠ 127 then .signaled signal (raw / 128 % 2 = 1)
  else if raw % 256 = 127 then .stopped (raw / 256 % 256)
  else if raw = 65535 then .continued
  else .unknown raw

/-- The status of a process that exits with any number: only its last eight bits are reported. -/
def ofCode (code : Nat) : ExitStatus := ofWait (code * 256)

/-- Whether the process reports success. -/
def isSuccess (s : ExitStatus) : Bool := s = .exited 0

/-- The text of a status. -/
def message : ExitStatus → String
  | .exited code => s!"exit status: {code}"
  | .signaled signal coreDumped =>
    s!"signal: {signal}{signalSuffix signal}" ++ if coreDumped then " (core dumped)" else ""
  | .stopped signal => s!"stopped (not terminated) by signal: {signal}{signalSuffix signal}"
  | .continued => "continued (WIFCONTINUED)"
  | .unknown raw => s!"unrecognised wait status: {Int.bmod raw halfWordCount} {hexadecimal raw}"

end ExitStatus

end ContractBuild
