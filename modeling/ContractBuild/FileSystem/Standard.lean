import ContractBuild.FileSystem.Tree
import ContractBuild.FileSystem.Users

/-!
# The standard system

The directories, links and devices that every system has before anybody works on it, together with
programs at their usual place.
-/

namespace ContractBuild

/-- The location that a text like `usr/bin` names. -/
def Location.ofText (s : String) : Location :=
  (Path.pieces (Bytes.ofString s)).filter (· ≠ [])

namespace Tree

/-- The directories of a standard system. -/
def standardDirectories : List String :=
  ["dev", "etc", "home", "mnt", "opt", "proc", "proc/self", "proc/self/fd", "root", "run", "srv",
    "sys", "usr", "usr/bin", "usr/lib", "usr/local", "usr/local/bin", "usr/local/sbin",
    "usr/sbin", "usr/share", "var"]

/-- The directories that everybody can use. -/
def commonDirectories : List String := ["dev/shm", "tmp", "var/tmp"]

/-- The permissions of the directories that everybody can use. -/
def commonMode : Nat := 0o1777

/-- The links of a standard system, each with its target. -/
def standardLinks : List (String × String) :=
  [("bin", "usr/bin"), ("dev/fd", "/proc/self/fd"), ("dev/stderr", "/proc/self/fd/2"),
    ("dev/stdin", "/proc/self/fd/0"), ("dev/stdout", "/proc/self/fd/1"), ("lib", "usr/lib"),
    ("sbin", "usr/sbin")]

/-- The devices of a standard system. -/
def standardDevices : List (String × Device) :=
  [("dev/full", .full), ("dev/null", .null), ("dev/random", .random), ("dev/tty", .terminal),
    ("dev/urandom", .random), ("dev/zero", .zero)]

/-- Where programs are. -/
def programDirectory : Location := Location.ofText "usr/bin"

/-- A standard system with these programs, each under its name. -/
def standard (programs : List (String × Bytes)) : Tree :=
  let t := standardDirectories.foldl (fun t s ↦ t.addDirectory (.ofText s) programMode) empty
  let t := commonDirectories.foldl (fun t s ↦ t.addDirectory (.ofText s) commonMode) t
  let t := standardLinks.foldl (fun t e ↦ t.addLink (.ofText e.1) (.ofString e.2)) t
  let t := standardDevices.foldl (fun t e ↦ t.set (.ofText e.1) (.device e.2)) t
  let t := [0, 1, 2].foldl (fun t n ↦
    t.set (Location.ofText "proc/self/fd" ++ [Bytes.ofNat n]) (.descriptor n [])) t
  let t := User.files.foldl (fun t e ↦
    t.addFile (.ofText e.1) (e.2.flatMap fun s ↦ Bytes.ofString (s ++ "\n")) fileMode) t
  (programs.foldl (fun t e ↦
    t.addFile (programDirectory ++ [Bytes.ofString e.1]) e.2 programMode) t).foreign

end Tree

end ContractBuild
