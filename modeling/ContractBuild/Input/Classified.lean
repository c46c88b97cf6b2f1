import ContractBuild.BuildError

/-!
# Classified inputs

The inputs of a build, sorted by kind.  Each keeps its position on the command line, which later
stages use to put things back in order.
-/

namespace ContractBuild

/-- An input file. -/
structure InputFile where
  /-- Its path as given. -/
  path : Path
  /-- What it holds. -/
  kind : InputKind
  /-- Its position among the inputs, from zero. -/
  position : Nat
  deriving DecidableEq, Repr

/-- Input files by kind, each list in command-line order. -/
structure ClassifiedInputs where
  /-- C++ sources. -/
  cxx : List InputFile
  /-- C sources. -/
  c : List InputFile
  /-- LLVM IR as text. -/
  irText : List InputFile
  /-- LLVM IR as bitcode. -/
  irBinary : List InputFile
  /-- TVM assembly. -/
  assembly : List InputFile
  deriving DecidableEq, Repr

namespace ClassifiedInputs

/-- No inputs. -/
def empty : ClassifiedInputs := ⟨[], [], [], [], []⟩

/-- The inputs of one kind. -/
def ofKind (i : ClassifiedInputs) : InputKind → List InputFile
  | .cxx => i.cxx
  | .c => i.c
  | .irText => i.irText
  | .irBinary => i.irBinary
  | .assembly => i.assembly

/-- All inputs, kind after kind. -/
def all (i : ClassifiedInputs) : List InputFile :=
  i.cxx ++ i.c ++ i.irText ++ i.irBinary ++ i.assembly

/-- The number of inputs. -/
def size (i : ClassifiedInputs) : Nat := i.all.length

/-- Whether there are no inputs. -/
def isEmpty (i : ClassifiedInputs) : Bool := i.size = 0

/-- The inputs with `f` in front of those of its kind. -/
def cons (f : InputFile) (i : ClassifiedInputs) : ClassifiedInputs :=
  match f.kind with
  | .cxx => { i with cxx := f :: i.cxx }
  | .c => { i with c := f :: i.c }
  | .irText => { i with irText := f :: i.irText }
  | .irBinary => { i with irBinary := f :: i.irBinary }
  | .assembly => { i with assembly := f :: i.assembly }

/-- Putting an input in front changes the list of its kind only. -/
theorem ofKind_cons (f : InputFile) (i : ClassifiedInputs) (k : InputKind) :
    (i.cons f).ofKind k = if f.kind = k then f :: i.ofKind k else i.ofKind k := by
  unfold cons
  cases hf : f.kind <;> cases k <;> simp [ofKind]

end ClassifiedInputs

/-- Sorts paths by kind, the first of them at the given position.  The first path that is not
accepted is the error. -/
def classifyFrom : Nat → List Path → Except BuildError ClassifiedInputs
  | _, [] => .ok .empty
  | position, p :: ps => do
    match InputKind.ofPath? p with
    | none => .error (.unsupportedInput p)
    | some kind => return (← classifyFrom (position + 1) ps).cons ⟨p, kind, position⟩

/-- Sorts the inputs of a command line by kind. -/
def classify (ps : List Path) : Except BuildError ClassifiedInputs := classifyFrom 0 ps

end ContractBuild
