import ContractBuild.Posix.Text.Octets
import ContractBuild.Posix.Utility.Amount

/-!
# Bytes as text

Utilities that write their input with few characters, and read what was written so.
-/

namespace ContractBuild.Utility

/-- The options of all ways of writing. -/
def recodingFlags : List Flag :=
  plainFlags [('d', "decode"), ('i', "ignore-garbage")] ++ valueFlags [('w', "wrap")]

/-- A text in lines of a width; a width of zero makes no lines.  Every step takes a character. -/
def wrappedFrom (width : Nat) : Nat → Chars → Chars
  | 0, _ => []
  | _, [] => []
  | n + 1, cs => Chars.line (cs.take width) ++ wrappedFrom width n (cs.drop width)

/-- A text in lines of a width; a width of zero makes no lines. -/
def wrapped (width : Nat) (cs : Chars) : Chars :=
  if width = 0 then cs else wrappedFrom width cs.length cs

/-- Writes an input as text, or reads it as such. -/
def recode (name : Chars) (t : BinaryText) (c : Call) : Routine Nat := do
  let width ← (match c.value? 'w' with
    | some w => do
      match Amount.read [] w with
      | .ok n => pure n
      | .error (some _) => pure 0
      | .error none => fail name 1 ("invalid wrap size: ".toList ++ cited w)
    | none => pure 76)
  if let _ :: extra :: _ := c.operands then extraOperand name 1 extra
  let file := c.operands.headD ['-']
  match ← openInput file with
  | .error e => fail name 1 (because (shown file) e)
  | .ok n =>
    match ← Routine.readAll n with
    | .error e => fail name 1 (because "read error".toList e)
    | .ok bs =>
      let cs := Chars.ofBytes bs
      if c.has 'd' then
        let (bytes, isRight) := t.decode (if c.has 'i' then t.cleaned cs else cs)
        emitBytes name 1 bytes
        if !isRight then fail name 1 "invalid input".toList
      else emit name (wrapped width (t.encode bs))
      return 0

/-- Writes an input as text in one way. -/
def recoding (t : BinaryText) : Program := fun args _ ↦ do
  let name := args.headD []
  recode name t (← readCall name 1 recodingFlags true args.tail)

/-- Writes an input as text in a way that an option says. -/
def basenc : Program := fun args _ ↦ do
  let name := args.headD []
  let kinds : List (Char × String × BinaryText) :=
    [('\x01', "base64", .base64), ('\x02', "base64url", .base64url), ('\x03', "base32", .base32),
      ('\x04', "base32hex", .base32hex), ('\x05', "base16", .base16),
      ('\x06', "base2msbf", .base2)]
  let c ← readCall name 1 (recodingFlags ++ plainFlags (kinds.map fun k ↦ (k.1, k.2.1))) true
    args.tail
  match (c.lastOf? (kinds.map (·.1))).bind fun letter ↦ kinds.lookup letter with
  | some (_, t) => recode name t c
  | none => refuse name 1 "missing encoding type".toList

end ContractBuild.Utility
