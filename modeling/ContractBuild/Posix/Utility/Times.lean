import ContractBuild.Posix.Text.WrittenDate
import ContractBuild.Posix.Utility.Entry

/-!
# Times

The times of entries are set, and moments are written in many formats.  Which clock they are seen
on is said by the environment.
-/

namespace ContractBuild.Utility

/-- The zone of an environment. -/
def zoneIn (env : List Chars) : Zone :=
  match Image.valueIn? env "TZ".toList with
  | some cs => Zone.read cs
  | none => .universal

/-- The moment, as whole seconds and the nanoseconds behind them. -/
def thisMoment : Routine (Int × Nat) := do
  let m := Moment.ofMilliseconds (← Routine.now)
  return (m.seconds, m.fraction)

/-- A moment as it is seen in a zone. -/
def stampOf (zone : Zone) (m : Moment) : Stamp := ⟨m.seconds, m.fraction, zone⟩

/-- The moment of whole seconds and the nanoseconds behind them. -/
def momentOf (t : Int × Nat) : Moment := Moment.ofSeconds t.1 + t.2

/-! ## Setting times -/

/-- The moment that digits spell: the month, the day, the hour and the minute, with a year in front
and seconds behind a point if they are given. -/
def readStamp (zone : Zone) (now : Int) (cs : Chars) : Option Moment := do
  let (ds, rest) := cs.span Char.isDigit
  let second ← match rest with
    | [] => some 0
    | ['.', a, b] => Chars.toNat? [a, b]
    | _ => none
  let thisYear := (Civil.ofSeconds (now + zone.offset)).year
  let (year, ds) ← match ds.length with
    | 8 => some (thisYear, ds)
    | 10 => some (WrittenDate.yearOf (ds.take 2), ds.drop 2)
    | 12 => some ((WrittenDate.valueOf (ds.take 4) : Int), ds.drop 4)
    | _ => none
  let two := fun (k : Nat) ↦ WrittenDate.valueOf ((ds.drop (2 * k)).take 2)
  let month := two 0
  let day := two 1
  if month = 0 || 12 < month || day = 0 || Civil.daysIn year month < day || 23 < two 2 ||
    59 < two 3 || 60 < second then none
  let c : Civil := ⟨year, month, day, (two 2 * 60 + two 3) * 60 + second⟩
  return .ofSeconds (c.toSeconds - zone.offset)

/-- How times are set. -/
structure Touching where
  /-- The name of the program. -/
  name : Chars
  /-- Files that are missing are made. -/
  makes : Bool
  /-- Links are not followed. -/
  isDirect : Bool
  /-- The time of the last change that is set. -/
  modified : Option Moment
  /-- The time of the last use that is set. -/
  accessed : Option Moment
  /-- Whether the times are those of this moment. -/
  isNow : Bool

/-- Sets the times of what a path leads to. -/
def Touching.set (t : Touching) (path : Chars) : Routine (Except IoError Unit) :=
  Routine.change fun h ↦ do
    let (l, n) ← if t.isDirect then h.linkEntry (Chars.toPath path)
      else h.entry (Chars.toPath path)
    let isForeign := n.attributes?.any (·.isForeign)
    if isForeign && !(t.isNow && n.allows .write) then
      throw (if t.isNow then IoError.notPermitted else IoError.notAllowed)
    return h.setTimes l t.modified t.accessed

/-- Sets the times of a file, which is made if it is missing. -/
def Touching.file (t : Touching) (path : Chars) : Routine Nat := do
  if isStandard path then return 0
  let opened ← if t.makes then Routine.openPath (Chars.toPath path) forTouching Routine.usualMode
    else pure (.error .isADirectory)
  if let .ok n := opened then Routine.close n
  match ← t.set path with
  | .ok () => return 0
  | .error cause =>
    match opened with
    | .error .isADirectory | .ok _ =>
      if !t.makes && cause = .notFound then return 0
      warn t.name (because ("setting times of ".toList ++ quoted path) cause)
      return 1
    | .error e =>
      warn t.name (because ("cannot touch ".toList ++ quoted path) e)
      return 1

/-- The words for the time of the last use. -/
def useWords : List String := ["atime", "access", "use"]

/-- The words for the time of the last change. -/
def changeWords : List String := ["mtime", "modify"]

/-- Sets the times of files and makes those that are missing. -/
def touch : Program := fun args env ↦ do
  let name := args.headD []
  let zone := zoneIn env
  let c ← readCall name 1 (plainFlags [('a', ""), ('c', "no-create"), ('f', ""),
    ('h', "no-dereference"), ('m', "")] ++ valueFlags [('d', "date"), ('r', "reference"),
    ('t', ""), ('\x01', "time")]) true args.tail
  let kind ← match c.value? '\x01' with
    | some w => some <$> readWord name 1 "--time" [useWords, changeWords] w
    | none => pure none
  let setsUse := c.has 'a' || kind.any (useWords.contains ·)
  let setsChange := c.has 'm' || kind.any (changeWords.contains ·)
  let now ← thisMoment
  if c.has 't' && (c.has 'd' || c.has 'r') then
    refuse name 1 "cannot specify times from more than one source".toList
  let refuseDate := fun (w : Chars) ↦ (fail name 1 ("invalid date format ".toList ++ cited w) :
    Routine (Int × Nat))
  let given ← match c.value? 'r', c.value? 'd', c.value? 't' with
    | some file, date, _ => do
      match ← Routine.look fun h ↦ if c.has 'h' then h.linkEntry (Chars.toPath file)
        else h.entry (Chars.toPath file) with
      | .error e => fail name 1 (because ("failed to get attributes of ".toList ++ quoted file) e)
      | .ok (_, n) =>
        let shift := fun (m : Moment) ↦ match date with
          | none => (pure m : Routine Moment)
          | some w => match WrittenDate.read zone (m.seconds, m.fraction) w with
            | some t => pure (momentOf t)
            | none => momentOf <$> refuseDate w
        pure (some (← shift n.modified, ← shift n.accessed))
    | none, some w, _ => do
      let t ← match WrittenDate.read zone now w with
        | some t => pure t
        | none => refuseDate w
      pure (some (momentOf t, momentOf t))
    | none, none, some w => do
      match readStamp zone now.1 w with
      | some m => pure (some (m, m))
      | none => do
        let t ← refuseDate w
        pure (some (momentOf t, momentOf t))
    | none, none, none => pure none
  if c.operands = [] then refuse name 1 "missing file operand".toList
  let both := !setsUse && !setsChange
  let (modified, accessed) := given.getD (momentOf now, momentOf now)
  let t : Touching := ⟨name, !c.has 'c' && !c.has 'h', c.has 'h',
    if setsChange || both then some modified else none,
    if setsUse || both then some accessed else none, given.isNone && both⟩
  forStatus t.file c.operands

/-! ## Writing moments -/

/-- The formats for the parts of a moment up to a unit, where `T` or a blank stands before the time
of day. -/
def unitFormat? (separator : Char) (hasMark : Bool) (unit : String) : Option Chars :=
  let day := "%Y-%m-%d".toList
  let front := day ++ [separator]
  let zone := if unit = "hours" && hasMark then "%:z".toList else "%:z".toList
  let fraction := if hasMark then ",%N" else ".%N"
  match unit with
  | "date" => some day
  | "hours" => some (front ++ "%H".toList ++ zone)
  | "minutes" => some (front ++ "%H:%M".toList ++ zone)
  | "seconds" => some (front ++ "%H:%M:%S".toList ++ zone)
  | "ns" => some (front ++ "%H:%M:%S".toList ++ fraction.toList ++ zone)
  | _ => none

/-- The format of a moment where nothing else is said. -/
def usualDateFormat : Chars := "%a %b %e %H:%M:%S %Z %Y".toList

/-- Writes moments. -/
def date : Program := fun args env ↦ do
  let name := args.headD []
  let c ← readCall name 1 (plainFlags [('R', "rfc-email"), ('u', "universal"), ('\x02', "utc"),
    ('\x03', "debug"), ('\x04', "rfc-822"), ('\x05', "resolution")] ++
    valueFlags [('d', "date"), ('f', "file"), ('r', "reference"), ('s', "set"),
      ('\x01', "rfc-3339")] ++ [⟨'I', "iso-8601", .optional⟩]) true args.tail
  let units := ["hours", "minutes", "date", "seconds", "ns"].map fun u ↦ [u]
  let iso ← match c.value? 'I' with
    | some [] => pure (unitFormat? 'T' true "date")
    | some w => unitFormat? 'T' true <$> readWord name 1 "--iso-8601" units w
    | none => pure none
  let plain ← match c.value? '\x01' with
    | some w => unitFormat? ' ' false <$>
        readWord name 1 "--rfc-3339" (["date", "seconds", "ns"].map fun u ↦ [u]) w
    | none => pure none
  let mail := if c.has 'R' || c.has '\x04' then some "%a, %d %b %Y %H:%M:%S %z".toList else none
  let chosen := [iso, plain, mail].filterMap id
  if 1 < chosen.length then fail name 1 "multiple output formats specified".toList
  let sources := (c.flags.filter fun f ↦ "dfr".toList.contains f.1).map (·.1)
  if 1 < sources.eraseDups.length then
    refuse name 1 "the options to specify dates for printing are mutually exclusive".toList
  let isSetting := c.has 's'
  if isSetting && sources ≠ [] then
    refuse name 1 "the options to print and set the time may not be used together".toList
  let zone := if c.has 'u' || c.has '\x02' then .universal else zoneIn env
  let format ← match c.operands with
    | [] => pure none
    | ['+' :: f] =>
      if chosen ≠ [] then fail name 1 "multiple output formats specified".toList
      else pure (some f)
    | [w] =>
      if isSetting || sources ≠ [] then
        refuse name 1 ("the argument ".toList ++ cited w ++ (" lacks a leading '+';\n" ++
          "when using an option to specify date(s), any non-option\n" ++
          "argument must be a format string beginning with '+'").toList)
      else if (WrittenDate.valueOf (w.filter Char.isDigit)) = 0 ||
          w.any (fun d ↦ !(d.isDigit || d = '.')) then
        fail name 1 ("invalid date ".toList ++ cited w)
      else do
        warn name "cannot set date: Operation not permitted".toList
        pure (some usualDateFormat)
    | _ :: extra :: _ => extraOperand name 1 extra
  let format := format.getD (chosen.headD usualDateFormat)
  let now ← thisMoment
  let write := fun (t : Int × Nat) ↦
    emit name (Chars.line ((Stamp.mk t.1 t.2 zone).inFormat format))
  let writeRead := fun (w : Chars) ↦ (do
    match WrittenDate.read zone now w with
    | some t => do
      write t
      return 0
    | none => do
      warn name ("invalid date ".toList ++ cited w)
      return 1 : Routine Nat)
  match c.value? 's', c.value? 'd', c.value? 'f', c.value? 'r' with
  | some w, _, _, _ =>
    match WrittenDate.read zone now w with
    | some t => do
      warn name "cannot set date: Operation not permitted".toList
      write t
      return 1
    | none => fail name 1 ("invalid date ".toList ++ cited w)
  | none, some w, _, _ => writeRead w
  | none, none, some file, _ =>
    match ← readInput file with
    | .ok content => forStatus writeRead (Chars.lines content)
    | .error e => fail name 1 (because (shown file) e)
  | none, none, none, some file =>
    match ← Routine.look (·.entry (Chars.toPath file)) with
    | .ok (_, n) => do
      write (n.modified.seconds, n.modified.fraction)
      return 0
    | .error e => fail name 1 (because (shown file) e)
  | none, none, none, none => do
    write now
    return if (c.operands.headD ['+']).head? = some '+' then 0 else 1

/-- A moment in digits. -/
example : readStamp .universal 0 "202001020304.05".toList = some (.ofSeconds 1577934245) := by
  decide +kernel

end ContractBuild.Utility
