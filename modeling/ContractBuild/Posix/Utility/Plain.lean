import ContractBuild.Posix.Text.Binary
import ContractBuild.Posix.Text.Chars
import ContractBuild.Posix.Text.Numeral
import ContractBuild.Posix.Utility.Basic

/-!
# Simple utilities

Utilities that say what they are told, tell what a system is, or do nothing but end.
-/

namespace ContractBuild.Utility

/-! ## Statuses -/

/-- Does nothing, with success. -/
def succeed : Program := fun _ _ ↦ return 0

/-- Does nothing, without success. -/
def giveUp : Program := fun _ _ ↦ return 1

/-! ## Saying -/

/-- The value of at most so many hexadecimal digits, added to one already read, and the text
behind. -/
def hexadecimal (n : Nat) : Nat → Chars → Nat × Chars
  | 0, cs => (n, cs)
  | _, [] => (n, [])
  | k + 1, c :: cs =>
    if Numeral.digit c < 16 then hexadecimal (n * 16 + Numeral.digit c) k cs else (n, c :: cs)

/-- A text with its escapes replaced, and whether one of them ends all output.  Every step takes a
character. -/
def unescape : Nat → Chars → Chars × Bool
  | 0, cs => (cs, false)
  | n + 1, cs =>
    let behind := fun (front : Chars) (rest : Chars) ↦
      let (cs, isStopped) := unescape n rest
      (front ++ cs, isStopped)
    match cs with
    | [] => ([], false)
    | '\\' :: 'c' :: _ => ([], true)
    | '\\' :: 'e' :: rest => behind ['\x1b'] rest
    | '\\' :: 'x' :: d :: rest =>
      if Numeral.digit d < 16 then
        let (k, rest) := hexadecimal 0 2 (d :: rest)
        behind [Escape.byte k] rest
      else behind ['\\', 'x'] (d :: rest)
    | '\\' :: '0' :: rest =>
      let (k, rest) := Escape.octal 0 3 rest
      behind [Escape.byte k] rest
    | '\\' :: c :: rest =>
      match Escape.letters.lookup c with
      | some d => behind [d] rest
      | none =>
        if ('1' ≤ c && c ≤ '7') then
          let (k, rest) := Escape.octal 0 3 (c :: rest)
          behind [Escape.byte k] rest
        else behind ['\\', c] rest
    | c :: rest => behind [c] rest

/-- The options in front of what is said, and what follows them. -/
def echoOptions : List Chars → Bool × Bool → (Bool × Bool) × List Chars
  | ('-' :: c :: cs) :: args, (isOpen, isEscaped) =>
    if (c :: cs).all fun d ↦ "neE".toList.contains d then
      echoOptions args ((c :: cs).foldl (fun (o, e) d ↦
        if d = 'n' then (true, e) else (o, decide (d = 'e'))) (isOpen, isEscaped))
    else ((isOpen, isEscaped), ('-' :: c :: cs) :: args)
  | args, options => (options, args)

/-- Writes its arguments. -/
def echo : Program := fun args _ ↦ do
  let ((isOpen, isEscaped), words) := echoOptions args.tail (false, false)
  let cs := Chars.join [' '] words
  let (cs, isStopped) := if isEscaped then unescape cs.length cs else (cs, false)
  emit (args.headD []) (if isOpen || isStopped then cs else Chars.line cs)
  return 0

/-! ## What a system is -/

/-- Writes a line that is always the same. -/
def constant (cs : String) : Program := fun args _ ↦ do
  emit (args.headD []) (Chars.line cs.toList)
  return 0

/-- The parts of the name of a system, each with the option for it. -/
def systemNames : List (Char × String) :=
  [('s', "Linux"), ('n', "localhost"), ('r', "6.1.0"), ('v', "#1 SMP"), ('m', "x86_64"),
    ('o', "GNU/Linux")]

/-- Writes what a system is called. -/
def uname : Program := fun args _ ↦ do
  let name := args.headD []
  let c ← readCall name 1 (plainFlags [('a', "all"), ('s', "kernel-name"), ('n', "nodename"),
    ('r', "kernel-release"), ('v', "kernel-version"), ('m', "machine"), ('p', "processor"),
    ('i', "hardware-platform"), ('o', "operating-system")]) true args.tail
  if let extra :: _ := c.operands then extraOperand name 1 extra
  let wanted := systemNames.filter fun e ↦
    c.has 'a' || c.has e.1 || (c.flags = [] && e.1 = 's')
  let wanted := if (c.has 'p' || c.has 'i') && !c.has 'a' then wanted ++ [('p', "unknown")]
    else wanted
  emit name (Chars.line (Chars.join [' '] (wanted.map (·.2.toList))))
  return 0

/-- Says that there is no terminal. -/
def tty : Program := fun args _ ↦ do
  let name := args.headD []
  let c ← readCall name 2 (plainFlags [('s', "silent"), ('q', "quiet")]) true args.tail
  if c.flags = [] then emit name (Chars.line "not a tty".toList)
  return 1

/-! ## Waiting -/

/-- The milliseconds of a time with a unit. -/
def duration? (w : Chars) : Option Nat := do
  let (b, rest) ← Binary.read w
  let scale ← match rest with
    | [] | ['s'] => some 1
    | ['m'] => some 60
    | ['h'] => some 3600
    | ['d'] => some 86400
    | _ => none
  if b.isNegative then none
  match b.magnitude with
  | .finite units power =>
    let (a, d) := Binary.twoTo power
    return (units * a * 1000 * scale + d - 1) / d
  | .infinite => return 1000000000000
  | .undefined => none

/-- Waits. -/
def sleep : Program := fun args _ ↦ do
  let name := args.headD []
  let c ← readCall name 1 [] true args.tail
  if c.operands = [] then missingOperand name 1
  let wrong := c.operands.filter fun w ↦ (duration? w).isNone
  if wrong ≠ [] then
    Routine.forEach (fun w ↦ warn name ("invalid time interval ".toList ++ cited w)) wrong
    pointToHelp name
    Routine.exit 1
  Routine.sleep ((c.operands.filterMap duration?).foldl (· + ·) 0)
  return 0

/-- A time with a unit. -/
example : duration? "1.5m".toList = some 90000 := by decide +kernel

end ContractBuild.Utility
