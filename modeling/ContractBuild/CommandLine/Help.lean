import ContractBuild.CommandLine.Option
import ContractBuild.Path.FileName
import ContractBuild.Text.Terminal

/-!
# Help and version

The texts that the program prints when it is asked what it is.
-/

namespace ContractBuild.CommandLine

/-- The name of the program, which its version shows. -/
def programName : String := "tvm-build"

/-- The name under which a program at a path was called, which its help shows. -/
def calledName (program : Path) : String :=
  Terminal.plain ((program.fileName?.bind Bytes.toString?).getD programName)

/-- The version of the program. -/
def programVersion : String := "0.1.0"

/-- What the program is for. -/
def programSummary : String := "Tool for building a C++ contract for the TON virtual machine"

/-- How messages write the input files. -/
def inputsShown : String := "<file>..."

/-- The text with blanks behind it up to a width. -/
def padded (width : Nat) (s : String) : String :=
  s ++ String.ofList (List.replicate (width - s.length) ' ')

/-- The letter and the long name of an option, as the help writes them. -/
def Named.usage (n : Named) : String :=
  match n.letter? with
  | some c => "-" ++ String.singleton c ++ ", " ++ n.shown
  | none => "    " ++ n.shown

/-- The width of the longest usage. -/
def usageWidth : Nat := (Named.all.map (·.usage.length)).foldl max 0

/-- The line of the help for an option. -/
def Named.helpLine (n : Named) : String := s!"  {padded usageWidth n.usage}  {n.summary}\n"

/-- The whole help of a program that was called by a name. -/
def helpText (called : String) : String :=
  s!"{programSummary}\n\nUsage: {called} [OPTIONS] {(Named.setting .abi).shown} " ++
    s!"{inputsShown}\n\nArguments:\n" ++
    s!"  {inputsShown}  .c, .cc, .cpp, .cxx, .ll, .bc, .s, .S files\n\nOptions:\n" ++
    String.join (Named.all.map Named.helpLine)

/-- The version, as the program prints it. -/
def versionText : String := s!"{programName} {programVersion}\n"

end ContractBuild.CommandLine
