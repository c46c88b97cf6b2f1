import ContractBuild.ExitStatus
import ContractBuild.Posix.Machine.Call

/-!
# Signals

The numbers, names and descriptions of signals, and what a wait status says in numbers.
-/

namespace ContractBuild.Signal

/-- The names of the signals without what they all start with, from the first one on. -/
def names : List Chars := signalNames.map fun s ↦ s.toList.drop 3

/-- What the signals mean, from the first one on. -/
def descriptions : List String :=
  ["Hangup", "Interrupt", "Quit", "Illegal instruction", "Trace/breakpoint trap", "Aborted",
    "Bus error", "Floating point exception", "Killed", "User defined signal 1",
    "Segmentation fault", "User defined signal 2", "Broken pipe", "Alarm clock", "Terminated",
    "Stack fault", "Child exited", "Continued", "Stopped (signal)", "Stopped",
    "Stopped (tty input)", "Stopped (tty output)", "Urgent I/O condition",
    "CPU time limit exceeded", "File size limit exceeded", "Virtual timer expired",
    "Profiling timer expired", "Window changed", "I/O possible", "Power failure",
    "Bad system call"]

/-- The least number of a signal without a meaning of its own. -/
def leastFree : Nat := 34

/-- The greatest number of a signal. -/
def greatest : Nat := 64

/-- The name of a signal without a meaning of its own, which counts from the nearer end. -/
def freeName (number : Nat) : Chars :=
  let first := number - leastFree
  let last := greatest - number
  if first = 0 then "RTMIN".toList
  else if last = 0 then "RTMAX".toList
  else if first ≤ (greatest - leastFree) / 2 then "RTMIN+".toList ++ Chars.ofNat first
  else "RTMAX-".toList ++ Chars.ofNat last

/-- Whether a signal has no meaning of its own. -/
def isFree (number : Nat) : Bool := leastFree ≤ number && number ≤ greatest

/-- The name of a signal. -/
def name? (number : Nat) : Option Chars :=
  if number = 0 then none
  else if isFree number then some (freeName number)
  else names[number - 1]?

/-- What a signal means. -/
def description (number : Nat) : Chars :=
  match if number = 0 then none else descriptions[number - 1]? with
  | some d => d.toList
  | none =>
    if isFree number then "Real-time signal ".toList ++ Chars.ofNat (number - leastFree)
    else "Unknown signal ".toList ++ Chars.ofNat number

/-- The signals, from the first one on. -/
def all : List Nat := (List.range greatest).map (· + 1)

/-- The number of the signal of a name in capital letters. -/
def ofName? (name : Chars) : Option Nat := all.find? fun n ↦ name? n = some name

/-- The number of the signal that a word names or counts. -/
def ofWord? (isNameFolded : Bool) (w : Chars) : Option Nat :=
  match Chars.toNat? w with
  | some n => if n ≤ greatest then some n else none
  | none => ofName? (if isNameFolded then w.map Char.toUpper else w)

/-- The signal of a name that a shell does not know. -/
def stackFault : Nat := 16

/-- What a shell calls a signal: its number where it knows no name. -/
def shellName (number : Nat) : Chars :=
  if number = stackFault then Chars.ofNat number else (name? number).getD (Chars.ofNat number)

/-- The number of the signal that a word names or counts for a shell. -/
def ofShellWord? (w : Chars) : Option Nat :=
  match Chars.toNat? w with
  | some n => if n ≤ greatest then some n else none
  | none => all.find? fun n ↦ shellName n = w.map Char.toUpper

/-- The signal that interrupts from the keyboard. -/
def interrupt : Nat := 2

/-- The signal that quits from the keyboard. -/
def quit : Nat := 3

/-- The signal that asks a process to end. -/
def terminate : Nat := 15

/-- The code that stands for a wait status. -/
def codeOf (status : Nat) : Nat :=
  if status % 128 = 0 then status / 256 % 256 else 128 + status % 128

/-- The signal that ended a process with this wait status. -/
def ending? (status : Nat) : Option Nat := if status % 128 = 0 then none else some (status % 128)

end ContractBuild.Signal
