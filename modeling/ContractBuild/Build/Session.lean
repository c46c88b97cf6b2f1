import ContractBuild.Artifact.Store
import ContractBuild.Tool.Commands

/-!
# Build sessions

A session is the state of a build: the host, the store of intermediate files, the state of the
toolchain and the events so far.  The toolchain is a parameter: whatever runs the tools may answer
anything and change the files in any way, and keeps a state of its own.

A step of a build either gives a value or ends the build with an error; the session after it
stands in both cases.
-/

namespace ContractBuild

/-- What the answer to one tool run consists of. -/
structure Reply (σ : Type) where
  /-- What the tool printed, or why the run failed. -/
  outcome : Except BuildError String
  /-- The state of the toolchain after the run. -/
  state : σ
  /-- The files after the run. -/
  tree : Tree

/-- Whatever runs the tools of a build. -/
structure Toolchain (σ : Type) where
  /-- Runs a tool on a host. -/
  run : Invocation → σ → Host → Reply σ
  /-- Takes note of a line that stands for what the build does itself. -/
  echo : String → σ → σ

/-- What a build did that can be seen from outside. -/
inductive Event
  /-- It ran a tool. -/
  | run (i : Invocation)
  /-- It did something itself that this command line stands for. -/
  | echo (line : String)
  deriving DecidableEq, Repr

/-- The state of a build. -/
structure Session (σ : Type) where
  /-- The files, and where the build sees them from. -/
  host : Host
  /-- The intermediate files. -/
  store : ArtifactStore
  /-- The state of the toolchain. -/
  tools : σ
  /-- What happened so far. -/
  events : List Event

/-- A step of a build. -/
abbrev Build (σ : Type) := ExceptT BuildError (StateM (Session σ))

namespace Session

variable {σ : Type}

/-- Starts a session on a host. -/
def start (o : BuildOptions) (tools : σ) (h : Host) : Except BuildError (Session σ) := do
  let (store, host) ← ArtifactStore.forBuild o.saveTemps o.workingDir h
  return { host, store, tools, events := [] }

/-- Removes what is temporary. -/
def cleanup (s : Session σ) : Session σ :=
  let (store, host) := s.store.cleanup s.host
  { s with store, host }

end Session

namespace Build

variable {σ : Type}

/-- What a step gives in a session, and the session after it. -/
def runIn {α : Type} (b : Build σ α) (s : Session σ) : Except BuildError α × Session σ :=
  (ExceptT.run b).run s

/-- The step that goes from any session to this result. -/
def ofResult {α : Type} (f : Session σ → Except BuildError α × Session σ) : Build σ α :=
  ExceptT.mk f

/-- Does something to the session whether a step fails or not. -/
def andFinally {α : Type} (b : Build σ α) (f : Session σ → Session σ) : Build σ α :=
  ofResult fun s ↦
    let (r, s) := b.runIn s
    (r, f s)

/-- The host. -/
def host : Build σ Host := return (← get).host

/-- Puts the host in place that an operation on files leads to, or fails with its error. -/
def change (activity : Activity) (r : Except IoError Host) : Build σ Unit := do
  match r with
  | .ok h => modify fun s ↦ { s with host := h }
  | .error cause => throw (.io activity cause)

/-- Puts the host in place that an operation on files leaves, and fails with its error if there is
one. -/
def settle (activity : Activity) (r : Except IoError Unit × Host) : Build σ Unit :=
  ofResult fun s ↦ (r.1.mapError (.io activity), { s with host := r.2 })

/-- The value of an operation on files, or its error. -/
def value {α : Type} (activity : Activity) (r : Except IoError α) : Build σ α :=
  match r with
  | .ok a => return a
  | .error cause => throw (.io activity cause)

/-- Runs a tool. -/
def tool (tc : Toolchain σ) (i : Invocation) : Build σ String :=
  ofResult fun s ↦
    let reply := tc.run i s.tools s.host
    (reply.outcome,
      { s with
        host := s.host.withTree reply.tree
        tools := reply.state
        events := s.events ++ [.run i] })

/-- Takes note of what the build does itself. -/
def echo (tc : Toolchain σ) (line : String) : Build σ Unit :=
  modify fun s ↦ { s with tools := tc.echo line s.tools, events := s.events ++ [.echo line] }

/-- Reserves an intermediate file. -/
def reserve (kind : ArtifactKind) : Build σ Path :=
  ofResult fun s ↦
    let (r, store, host) := s.store.reserve s.host kind
    (r, { s with store, host })

/-! ## Equations -/

@[simp] theorem runIn_pure {α : Type} (a : α) (s : Session σ) :
    runIn (pure a : Build σ α) s = (.ok a, s) := rfl

@[simp] theorem runIn_throw {α : Type} (e : BuildError) (s : Session σ) :
    runIn (throw e : Build σ α) s = (.error e, s) := rfl

@[simp] theorem runIn_ofResult {α : Type} (f : Session σ → Except BuildError α × Session σ)
    (s : Session σ) : (ofResult f).runIn s = f s := rfl

/-- A step after another runs in the session that the first leaves, unless that fails. -/
theorem runIn_bind {α β : Type} (b : Build σ α) (f : α → Build σ β) (s : Session σ) :
    (b >>= f).runIn s = match b.runIn s with
      | (.ok a, s) => (f a).runIn s
      | (.error e, s) => (.error e, s) := by
  change (ExceptT.bind b f) s = _
  simp only [runIn, ExceptT.bind, ExceptT.mk, ExceptT.run, StateT.run, bind, StateT.bind]
  cases h : b s with
  | mk r s' => cases r <;> rfl

end Build

end ContractBuild
