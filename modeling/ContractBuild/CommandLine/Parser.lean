import ContractBuild.CommandLine.Arguments
import ContractBuild.CommandLine.Help

/-!
# Reading a command line

A command line is read word by word.  A value that stands in a word of its own, and the inputs
between two options, wait until the next known option or the end settles them; an unknown option
ends the reading at once, whatever waits.
-/

namespace ContractBuild.CommandLine

/-- Why a command line is no build. -/
inductive UsageError
  /-- It asks for the help. -/
  | help
  /-- It asks for the version. -/
  | version
  /-- It has an option that does not exist. -/
  | unknown (shown : String)
  /-- A value is missing or empty. -/
  | missingValue (shown : String)
  /-- A switch has a value. -/
  | unneededValue (value : String) (s : Switch)
  /-- An option occurs twice. -/
  | repeated (n : Named)
  /-- A value is not well-formed text. -/
  | malformedText
  /-- Something that every build needs is missing: the interface description, the inputs. -/
  | missingRequired (abi inputs : Bool)
  deriving DecidableEq, Repr

namespace UsageError

/-- The text of an error, as a program that was called by a name prints it; help and version are
given in full.  Quoted words are shown without what a terminal would take for a command. -/
def message (called : String) : UsageError → String
  | .help => helpText called
  | .version => versionText
  | .unknown shown => s!"error: unexpected argument '{Terminal.plain shown}' found"
  | .missingValue shown => s!"error: a value is required for '{shown}' but none was supplied"
  | .unneededValue value s =>
    s!"error: unexpected value '{Terminal.plain value}' for '{(Named.switch s).shown}' found; " ++
      "no more were expected"
  | .repeated n => s!"error: the argument '{n.shown}' cannot be used multiple times"
  | .malformedText => "error: invalid UTF-8 was detected in one or more arguments"
  | .missingRequired abi inputs =>
    "error: the following required arguments were not provided:" ++
      (if abi then s!"\n  {(Named.setting .abi).shown}" else "") ++
      (if inputs then s!"\n  {inputsShown}" else "")

/-- Whether this is an answer to a question and no error. -/
def isAnswer : UsageError → Bool
  | .help | .version => true
  | _ => false

/-- The exit code of a program that ends with this. -/
def exitCode (e : UsageError) : Nat := if e.isAnswer then 0 else 2

end UsageError

/-- What waits to be settled. -/
inductive Pending
  /-- A setting, with its value if that has been read. -/
  | setting (s : Setting) (value : Option Bytes)
  /-- Inputs. -/
  | inputs (values : List Bytes)
  deriving DecidableEq, Repr

/-- What has been read of a command line. -/
structure Progress where
  /-- The switches. -/
  switches : List Switch
  /-- The settings with their values. -/
  settings : List (Setting × Bytes)
  /-- The inputs. -/
  inputs : List Bytes
  /-- What waits. -/
  pending : Option Pending
  deriving DecidableEq, Repr

namespace Progress

/-- Nothing has been read. -/
def start : Progress := ⟨[], [], [], none⟩

/-- Whether a setting has its value. -/
def hasSetting (p : Progress) (s : Setting) : Bool := (p.settings.lookup s).isSome

/-- Gives a setting its value, if it has none yet and the value is fit for it. -/
def set (p : Progress) (s : Setting) (value : Bytes) : Except UsageError Progress :=
  if p.hasSetting s then .error (.repeated (.setting s))
  else if s.takesFlags then
    if (Bytes.toString? value).isNone then .error .malformedText
    else .ok { p with settings := p.settings ++ [(s, value)] }
  else if value = [] then .error (.missingValue (Named.setting s).shown)
  else .ok { p with settings := p.settings ++ [(s, value)] }

/-- Settles what waits. -/
def settle (p : Progress) : Except UsageError Progress :=
  let q := { p with pending := none }
  match p.pending with
  | none => .ok q
  | some (.setting s none) => .error (.missingValue (Named.setting s).shown)
  | some (.setting s (some value)) => q.set s value
  | some (.inputs values) =>
    if [] ∈ values then .error (.missingValue inputsShown)
    else .ok { q with inputs := q.inputs ++ values }

/-- Takes a switch. -/
def turnOn (p : Progress) (s : Switch) : Except UsageError Progress := do
  let p ← p.settle
  match s with
  | .help => .error .help
  | .version => .error .version
  | s =>
    if s ∈ p.switches then .error (.repeated (.switch s))
    else .ok { p with switches := p.switches ++ [s] }

/-- Takes a setting, with its value if that is part of the same word. -/
def take (p : Progress) (s : Setting) (value : Option Bytes) : Except UsageError Progress := do
  let p ← p.settle
  match value with
  | some value => p.set s value
  | none => .ok { p with pending := some (.setting s none) }

/-- Takes an input. -/
def addInput (p : Progress) (value : Bytes) : Except UsageError Progress :=
  match p.pending with
  | some (.inputs values) => .ok { p with pending := some (.inputs (values ++ [value])) }
  | _ => do
    let p ← p.settle
    return { p with pending := some (.inputs [value]) }

/-- Takes inputs. -/
def addInputs (p : Progress) : List Bytes → Except UsageError Progress
  | [] => .ok p
  | value :: values => do (← p.addInput value).addInputs values

end Progress

/-! ## Words -/

/-- The dash that starts an option. -/
def dash : UInt8 := 0x2D

/-- The mark between an option and its value. -/
def equals : UInt8 := 0x3D

/-- What stands before and after the first mark. -/
def splitValue : Bytes → Bytes × Option Bytes
  | [] => ([], none)
  | b :: bs =>
    if b = equals then ([], some bs)
    else
      let (name, value) := splitValue bs
      (b :: name, value)

/-- The first character of some bytes, as a message shows it; malformed bytes are shown whole. -/
def firstShown (bs : Bytes) : String :=
  match Utf8.read bs with
  | some c :: _ => String.singleton c
  | _ => bs.display

/-- Reads a long option, without its dashes. -/
def readLong (p : Progress) (word : Bytes) : Except UsageError Progress :=
  let (name, value) := splitValue word
  match Named.ofLong? name with
  | none => .error (.unknown ("--" ++ name.display))
  | some (.switch s) =>
    match value with
    | some value => .error (.unneededValue value.display s)
    | none => p.turnOn s
  | some (.setting s) => p.take s value

/-- The value behind the letter of a setting: the rest of the word, with or without a mark. -/
def attachedValue? : Bytes → Option Bytes
  | [] => none
  | b :: bs => if b = equals then some bs else some (b :: bs)

/-- Reads the letters of a word, without their dash. -/
def readLetters (p : Progress) : Bytes → Except UsageError Progress
  | [] => .ok p
  | b :: bs =>
    match Named.ofLetter? b with
    | none => .error (.unknown ("-" ++ firstShown (b :: bs)))
    | some (.switch s) => do readLetters (← p.turnOn s) bs
    | some (.setting s) => p.take s (attachedValue? bs)

/-- Reads a word that is no option: the value that is waited for, or an input. -/
def readPlain (p : Progress) (word : Bytes) : Except UsageError Progress :=
  match p.pending with
  | some (.setting s none) => .ok { p with pending := some (.setting s (some word)) }
  | _ => p.addInput word

/-- Whether any word at all is taken as the value that is waited for. -/
def awaitsFlags (p : Progress) : Bool :=
  match p.pending with
  | some (.setting s none) => s.takesFlags
  | _ => false

/-- Reads one word. -/
def readWord (p : Progress) (word : Bytes) : Except UsageError Progress :=
  if awaitsFlags p then readPlain p word
  else match word with
    | a :: b :: rest =>
      if a = dash ∧ b = dash then readLong p rest
      else if a = dash then readLetters p (b :: rest)
      else readPlain p word
    | _ => readPlain p word

/-- Reads the words of a command line.  Behind the word `--` every word is an input. -/
def readWords (p : Progress) : List Bytes → Except UsageError Progress
  | [] => p.settle
  | word :: words => do
    if word = [dash, dash] ∧ ¬ awaitsFlags p then
      (← p.addInputs words).settle
    else
      readWords (← readWord p word) words

/-! ## Arguments -/

namespace Progress

/-- The path that a setting has. -/
def path? (p : Progress) (s : Setting) : Option Path := (p.settings.lookup s).map Path.mk

/-- The flags that a setting has. -/
def flags? (p : Progress) (s : Setting) : Option String :=
  (p.settings.lookup s).map Bytes.display

/-- What has been read, if nothing required is missing. -/
def toArguments (p : Progress) : Except UsageError Arguments :=
  match p.path? .abi, p.inputs with
  | some abi, input :: inputs => .ok {
      abi
      inputs := (input :: inputs).map Path.mk
      verbose := .verbose ∈ p.switches
      saveTemps := .saveTemps ∈ p.switches
      output := p.path? .output
      cflags := p.flags? .cflags
      cxxflags := p.flags? .cxxflags
      linkerFlags := p.flags? .linkerFlags
      optFlags := p.flags? .optFlags
      asmOnly := .asmOnly ∈ p.switches
      inlineLoadsStores := .inlineLoadsStores ∈ p.switches
      tools := {
        llvmBin := p.path? .llvmBin
        linker := p.path? .linker
        stdlib := p.path? .stdlib
        includeDir := p.path? .includeDir } }
  | abi, inputs => .error (.missingRequired abi.isNone inputs.isEmpty)

end Progress

/-- What a command line says, without the name of the program. -/
def parse (words : List Bytes) : Except UsageError Arguments := do
  (← readWords .start words).toArguments

end ContractBuild.CommandLine
