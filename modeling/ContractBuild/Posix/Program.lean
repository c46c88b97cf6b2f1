import ContractBuild.Posix.Shell.Program
import ContractBuild.Posix.Utility.Arrange
import ContractBuild.Posix.Utility.Batch
import ContractBuild.Posix.Utility.BlockCopy
import ContractBuild.Posix.Utility.ByteComparison
import ContractBuild.Posix.Utility.Copy
import ContractBuild.Posix.Utility.Count
import ContractBuild.Posix.Utility.Deciding
import ContractBuild.Posix.Utility.Difference.Run
import ContractBuild.Posix.Utility.Digest
import ContractBuild.Posix.Utility.Dump
import ContractBuild.Posix.Utility.Entry
import ContractBuild.Posix.Utility.Expression
import ContractBuild.Posix.Utility.Field
import ContractBuild.Posix.Utility.FileName
import ContractBuild.Posix.Utility.Find.Search
import ContractBuild.Posix.Utility.Grep.Run
import ContractBuild.Posix.Utility.Identity
import ContractBuild.Posix.Utility.Launch
import ContractBuild.Posix.Utility.Link
import ContractBuild.Posix.Utility.Listing
import ContractBuild.Posix.Utility.Paragraph
import ContractBuild.Posix.Utility.Partition
import ContractBuild.Posix.Utility.Plain
import ContractBuild.Posix.Utility.Precedence
import ContractBuild.Posix.Utility.Printing
import ContractBuild.Posix.Utility.Recoding
import ContractBuild.Posix.Utility.RecordProgram.Run
import ContractBuild.Posix.Utility.Relation
import ContractBuild.Posix.Utility.Repetition
import ContractBuild.Posix.Utility.Sequence
import ContractBuild.Posix.Utility.Sort
import ContractBuild.Posix.Utility.Status
import ContractBuild.Posix.Utility.Stream
import ContractBuild.Posix.Utility.StreamEditor.Run
import ContractBuild.Posix.Utility.Tabs
import ContractBuild.Posix.Utility.Times
import ContractBuild.Posix.Utility.Translate

/-!
# The programs of a machine

A tool of a build can be any script, so the machine has a shell and the usual programs that scripts
run: a script that stands for a compiler does what it would do in its place.
-/

namespace ContractBuild.Program

open ContractBuild.Utility

/-- The programs that run no others, each with its name. -/
def utilities : List (String × Program) :=
  [("[", bracket), ("arch", constant "x86_64"), ("b2sum", namedDigest "blake2b"),
    ("base32", recoding .base32), ("base64", recoding .base64), ("basename", basename),
    ("basenc", basenc), ("cat", cat), ("chmod", chmod), ("cksum", cksum), ("cmp", cmp),
    ("comm", comm), ("cp", cp), ("cut", cut), ("date", date), ("dd", dd), ("diff", diff),
    ("dir", listing ['C', 'b']), ("dirname", dirname), ("echo", echo), ("egrep", egrep),
    ("expand", expand), ("expr", expr), ("factor", factor), ("false", giveUp), ("fgrep", fgrep),
    ("fmt", fmt), ("fold", fold), ("grep", grep), ("groups", groups), ("head", head),
    ("hostname", constant "localhost"), ("id", identify), ("install", install), ("join", join),
    ("link", link), ("ln", ln), ("logname", constant "root"), ("ls", listing []),
    ("md5sum", namedDigest "md5"), ("mkdir", mkdir), ("mktemp", mktemp), ("mv", mv), ("nl", nl),
    ("nproc", constant "1"), ("od", od), ("paste", paste), ("printenv", printenv),
    ("printf", printf), ("pwd", pwd), ("readlink", readlink), ("realpath", realpath), ("rev", rev),
    ("rm", rm), ("rmdir", rmdir), ("seq", seq), ("sha1sum", namedDigest "sha1"),
    ("sha224sum", namedDigest "sha224"), ("sha256sum", namedDigest "sha256"),
    ("sha384sum", namedDigest "sha384"), ("sha512sum", namedDigest "sha512"), ("shuf", shuf),
    ("sleep", sleep), ("sort", sort), ("stat", stat), ("sum", sum), ("sync", succeed), ("tac", tac),
    ("tail", tail), ("tee", tee), ("test", test), ("touch", touch), ("tr", tr), ("true", succeed),
    ("truncate", truncate), ("tsort", tsort), ("tty", tty), ("uname", uname),
    ("unexpand", unexpand), ("uniq", uniq), ("unlink", unlink), ("vdir", listing ['l', 'b']),
    ("wc", wc), ("which", which), ("whoami", constant "root"), ("yes", yes)]

/-- The programs that run others, each with its name. -/
def launchers (programs : Chars → Option Program) : List (String × Program) :=
  [("awk", awk programs), ("dash", Shell.program programs), ("env", env programs),
    ("find", find programs), ("mawk", awk programs), ("nice", nice programs),
    ("nohup", nohup programs), ("sed", sed programs), ("setsid", setsid programs),
    ("sh", Shell.program programs), ("split", split programs), ("stdbuf", stdbuf programs),
    ("timeout", timeout programs), ("xargs", xargs programs)]

/-- The programs of a machine, each with its name. -/
def all (programs : Chars → Option Program) : List (String × Program) :=
  launchers programs ++ utilities

/-- How often a program can go on as another one. -/
def depthLimit : Nat := 1000000000

/-- The program of a name, where programs can go on as others so many times. -/
def within : Nat → Chars → Option Program
  | 0, _ => none
  | n + 1, name => (all (within n)).lookup (Chars.toString name)

/-- The program of a name. -/
def named? : Chars → Option Program := within depthLimit

/-- The files that hold the programs, each with its name. -/
def files : List (String × Bytes) :=
  (all fun _ ↦ none).map fun e ↦ (e.1, Image.ofProgram e.1)

end ContractBuild.Program
