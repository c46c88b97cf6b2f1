import ContractBuild.ExitStatus
import ContractBuild.FileSystem.Error
import ContractBuild.Input.Kind

/-!
# Build errors

Why a build ended without a result.  The first error ends a build, so there is always one cause;
`message` is its wording, and a tool that failed hands over what it had printed.
-/

namespace ContractBuild

/-- What a build was doing to files when an operation failed. -/
inductive Activity
  /-- Making the directory for intermediate files. -/
  | creatingTemporaryDirectory
  /-- Making the directory of the final link. -/
  | creatingLinkDirectory
  /-- Reserving an intermediate file. -/
  | creatingArtifact
  /-- Creating a file. -/
  | creating (p : Path)
  /-- Opening a file to append to it. -/
  | opening (p : Path)
  /-- Asking for the current directory. -/
  | readingCurrentDirectory
  /-- Reading a file or a directory. -/
  | reading (p : Path)
  /-- Adding to the end of a file. -/
  | appending (p : Path)
  /-- Copying to a destination. -/
  | copyingTo (p : Path)
  /-- Writing a file. -/
  | writing (p : Path)
  /-- Something else, in words. -/
  | described (text : String)
  deriving DecidableEq, Repr

namespace Activity

/-- The text of an activity. -/
def message : Activity → String
  | .creatingTemporaryDirectory => "creating temporary directory"
  | .creatingLinkDirectory => "creating link directory"
  | .creatingArtifact => "creating artifact"
  | .creating p => s!"creating {p.display}"
  | .opening p => s!"opening {p.display}"
  | .readingCurrentDirectory => "reading current directory"
  | .reading p => s!"reading {p.display}"
  | .appending p => s!"appending to {p.display}"
  | .copyingTo p => s!"copying to {p.display}"
  | .writing p => s!"writing {p.display}"
  | .described text => text

end Activity

/-- Why a build failed. -/
inductive BuildError
  /-- A part of the toolchain is neither given by its option nor by its variable, and there is no
  default. -/
  | unresolvedTool (option variableName : String)
  /-- The extension of an input is not accepted. -/
  | unsupportedInput (p : Path)
  /-- An input or the interface description does not exist. -/
  | missingInput (p : Path)
  /-- A tool could not be started. -/
  | toolNotStarted (tool : String) (cause : IoError)
  /-- A tool reported failure after it had printed `output`. -/
  | toolFailed (tool : String) (status : ExitStatus) (output : String)
  /-- The report on a contract has no code line. -/
  | noCodeLine (contract : Path)
  /-- An operation on files failed. -/
  | io (activity : Activity) (cause : IoError)
  deriving DecidableEq, Repr

/-- The extensions that messages list as accepted, in their order. -/
def InputKind.extensionTexts : List String :=
  [".c", ".cc", ".cpp", ".cxx", ".ll", ".bc", ".s", ".S"]

namespace BuildError

/-- The text of an error. -/
def message : BuildError → String
  | .unresolvedTool option variableName =>
    s!"Use {option} option or set {variableName} environment variable"
  | .unsupportedInput p =>
    s!"Unsupported input file extension: {p.display}\nSupported extensions: " ++
      ", ".intercalate InputKind.extensionTexts
  | .missingInput p => s!"No such file: {p.display}"
  | .toolNotStarted tool cause => s!"Failed to execute {tool}: {cause.message}"
  | .toolFailed tool status _ => s!"{tool} failed ({status.message})"
  | .noCodeLine contract => s!"No code line found in decoded output of {contract.display}"
  | .io activity cause => s!"{activity.message}: {cause.message}"

/-- What a failed tool had printed, unless that is nothing. -/
def toolOutput? : BuildError → Option String
  | .toolFailed _ _ output => if output = "" then none else some output
  | _ => none

end BuildError

end ContractBuild
