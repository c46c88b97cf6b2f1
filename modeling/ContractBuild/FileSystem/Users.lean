import ContractBuild.Path.Basic

/-!
# Users and groups

The users and groups of a standard system, and the files that list them.
-/

namespace ContractBuild

/-- A user. -/
structure User where
  /-- The name. -/
  name : String
  /-- The number. -/
  number : Nat
  /-- The number of the user's group. -/
  group : Nat
  /-- Who the user is. -/
  title : String
  /-- The home directory. -/
  home : String
  /-- The program that starts when the user logs in. -/
  shell : String
  deriving DecidableEq, Repr

namespace User

/-- The program that lets nobody log in. -/
def noShell : String := "/usr/sbin/nologin"

/-- The users of a standard system. -/
def standard : List User :=
  [⟨"root", 0, 0, "root", "/root", "/bin/bash"⟩,
    ⟨"daemon", 1, 1, "daemon", "/usr/sbin", noShell⟩,
    ⟨"bin", 2, 2, "bin", "/bin", noShell⟩,
    ⟨"sys", 3, 3, "sys", "/dev", noShell⟩,
    ⟨"sync", 4, 65534, "sync", "/bin", "/bin/sync"⟩,
    ⟨"games", 5, 60, "games", "/usr/games", noShell⟩,
    ⟨"man", 6, 12, "man", "/var/cache/man", noShell⟩,
    ⟨"lp", 7, 7, "lp", "/var/spool/lpd", noShell⟩,
    ⟨"mail", 8, 8, "mail", "/var/mail", noShell⟩,
    ⟨"news", 9, 9, "news", "/var/spool/news", noShell⟩,
    ⟨"uucp", 10, 10, "uucp", "/var/spool/uucp", noShell⟩,
    ⟨"proxy", 13, 13, "proxy", "/bin", noShell⟩,
    ⟨"www-data", 33, 33, "www-data", "/var/www", noShell⟩,
    ⟨"backup", 34, 34, "backup", "/var/backups", noShell⟩,
    ⟨"list", 38, 38, "Mailing List Manager", "/var/list", noShell⟩,
    ⟨"irc", 39, 39, "ircd", "/run/ircd", noShell⟩,
    ⟨"_apt", 42, 65534, "", "/nonexistent", noShell⟩,
    ⟨"nobody", 65534, 65534, "nobody", "/nonexistent", noShell⟩]

/-- The user of a name. -/
def named? (name : String) : Option User := standard.find? (·.name = name)

/-- The user of a number. -/
def numbered? (n : Nat) : Option User := standard.find? (·.number = n)

/-- The line that lists a user. -/
def line (u : User) : String :=
  ":".intercalate [u.name, "x", ToString.toString u.number, ToString.toString u.group, u.title,
    u.home, u.shell]

/-- The groups of a standard system, each with its number. -/
def groups : List (String × Nat) :=
  [("root", 0), ("daemon", 1), ("bin", 2), ("sys", 3), ("adm", 4), ("tty", 5), ("disk", 6),
    ("lp", 7), ("mail", 8), ("news", 9), ("uucp", 10), ("man", 12), ("proxy", 13), ("kmem", 15),
    ("dialout", 20), ("fax", 21), ("voice", 22), ("cdrom", 24), ("floppy", 25), ("tape", 26),
    ("sudo", 27), ("audio", 29), ("dip", 30), ("www-data", 33), ("backup", 34), ("operator", 37),
    ("list", 38), ("irc", 39), ("src", 40), ("shadow", 42), ("utmp", 43), ("video", 44),
    ("sasl", 45), ("plugdev", 46), ("staff", 50), ("games", 60), ("users", 100),
    ("nogroup", 65534)]

/-- The number of a group. -/
def group? (name : String) : Option Nat := groups.lookup name

/-- The line that lists a group. -/
def groupLine (g : String × Nat) : String :=
  ":".intercalate [g.1, "x", ToString.toString g.2, ""]

/-- The files that list users and groups, each with its place and its lines. -/
def files : List (String × List String) :=
  [("etc/group", groups.map groupLine), ("etc/passwd", standard.map line)]

/-- Names and numbers tell users apart. -/
example : (standard.map (·.name)).Nodup ∧ (standard.map (·.number)).Nodup := by decide

end User

end ContractBuild
