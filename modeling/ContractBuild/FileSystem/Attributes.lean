/-!
# What is noted about an entry

Besides what it holds, an entry has permissions, an owner and times.  Everything belongs either to
the user who runs the processes or to the system, so of the three groups of permissions the first
one counts for what is the user's, and the last one for what is not.
-/

namespace ContractBuild

/-- A moment, in nanoseconds after the start of the year 1970. -/
abbrev Moment := Int

namespace Moment

/-- How many nanoseconds a second has. -/
def perSecond : Nat := 1000000000

/-- The moment so many milliseconds after the start of the year 1970. -/
def ofMilliseconds (n : Nat) : Moment := n * 1000000

/-- The moment so many seconds after the start of the year 1970. -/
def ofSeconds (n : Int) : Moment := n * perSecond

/-- The whole seconds before a moment. -/
def seconds (m : Moment) : Int := m.fdiv perSecond

/-- The nanoseconds behind the last whole second. -/
def fraction (m : Moment) : Nat := (m.fmod perSecond).toNat

end Moment

/-- What is done with an entry. -/
inductive Access
  /-- It is read. -/
  | read
  /-- It is written. -/
  | write
  /-- It is run, or led through. -/
  | run
  deriving DecidableEq, Repr

/-- The bit of a permission within its group. -/
def Access.bit : Access → Nat
  | .read => 2
  | .write => 1
  | .run => 0

/-- What is noted about an entry. -/
structure Attributes where
  /-- Its permissions, three bits each for its owner, its group and all others, and three more. -/
  mode : Nat
  /-- Whether it belongs to the system. -/
  isForeign : Bool
  /-- When it was changed. -/
  modified : Moment
  /-- When it was read. -/
  accessed : Moment
  deriving DecidableEq, Repr

namespace Attributes

/-- The attributes of what the user makes at a moment. -/
def fresh (mode : Nat) (time : Moment) : Attributes := ⟨mode, false, time, time⟩

/-- Whether the user may do something. -/
def allows (a : Attributes) (what : Access) : Bool :=
  a.mode.testBit (if a.isForeign then what.bit else what.bit + 6)

/-- Who owns a file may read it if its first group says so. -/
example : (fresh 0o400 0).allows .read = true ∧ (fresh 0o077 0).allows .read = false := by decide

end Attributes

end ContractBuild
