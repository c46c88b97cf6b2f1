import ContractBuild.Posix.Text.Chars

/-!
# The calendar

Moments as dates and times of day, and back, in the calendar of today for all time.  A format says
how a moment is written: directives behind percent signs stand for its parts.
-/

namespace ContractBuild

/-- A date with a time of day. -/
structure Civil where
  /-- The year. -/
  year : Int
  /-- The month, from 1 on. -/
  month : Nat
  /-- The day of the month, from 1 on. -/
  day : Nat
  /-- The second of the day. -/
  second : Nat
  deriving DecidableEq, Repr

namespace Civil

/-! ## Days -/

/-- How many seconds a day has. -/
def daySeconds : Nat := 86400

/-- The days from the start of the year 1970 to a day.  The day may be outside its month. -/
def dayNumber (year : Int) (month : Nat) (day : Int) : Int :=
  let y := if month ≤ 2 then year - 1 else year
  let era := y.fdiv 400
  let yearOfEra := y - era * 400
  let months : Int := if month ≤ 2 then month + 9 else (month : Int) - 3
  let dayOfYear := (153 * months + 2) / 5 + day - 1
  era * 146097 + (yearOfEra * 365 + yearOfEra / 4 - yearOfEra / 100 + dayOfYear) - 719468

/-- The year, the month and the day so many days after the start of the year 1970. -/
def ofDayNumber (n : Int) : Int × Nat × Nat :=
  let z := n + 719468
  let era := z.fdiv 146097
  let dayOfEra := (z - era * 146097).toNat
  let yearOfEra := (dayOfEra - dayOfEra / 1460 + dayOfEra / 36524 - dayOfEra / 146096) / 365
  let dayOfYear := dayOfEra - (365 * yearOfEra + yearOfEra / 4 - yearOfEra / 100)
  let m := (5 * dayOfYear + 2) / 153
  let month := if m < 10 then m + 3 else m - 9
  let year : Int := yearOfEra + era * 400
  (if month ≤ 2 then year + 1 else year, month, dayOfYear - (153 * m + 2) / 5 + 1)

/-- The day of the week, where Sunday is 0. -/
def weekdayOf (dayNumber : Int) : Nat := ((dayNumber + 4).fmod 7).toNat

/-- The date and the time of day so many seconds after the start of the year 1970. -/
def ofSeconds (n : Int) : Civil :=
  let (year, month, day) := ofDayNumber (n.fdiv daySeconds)
  ⟨year, month, day, (n.fmod daySeconds).toNat⟩

/-- The seconds from the start of the year 1970. -/
def toSeconds (c : Civil) : Int := dayNumber c.year c.month c.day * daySeconds + c.second

/-- Whether a year has a day more. -/
def isLong (year : Int) : Bool :=
  year.fmod 4 = 0 && (year.fmod 100 ≠ 0 || year.fmod 400 = 0)

/-- How many days a month has. -/
def daysIn (year : Int) (month : Nat) : Nat :=
  if month = 2 then if isLong year then 29 else 28
  else if [4, 6, 9, 11].contains month then 30 else 31

/-- The days of the week before this one. -/
def weekday (c : Civil) : Nat := weekdayOf (dayNumber c.year c.month c.day)

/-- The day of the year, from 1 on. -/
def yearDay (c : Civil) : Nat :=
  (dayNumber c.year c.month c.day - dayNumber c.year 1 1).toNat + 1

/-- The week of the year whose weeks start on a Monday and count for the year that most of their
days belong to, with that year. -/
def isoWeek (c : Civil) : Int × Nat :=
  let today := dayNumber c.year c.month c.day
  let thursday := today - ((c.weekday + 6) % 7 : Nat) + 3
  let (year, _, _) := ofDayNumber thursday
  (year, ((thursday - dayNumber year 1 1) / 7).toNat + 1)

/-- The names of the days of the week. -/
def dayNames : List String :=
  ["Sunday", "Monday", "Tuesday", "Wednesday", "Thursday", "Friday", "Saturday"]

/-- The names of the months. -/
def monthNames : List String :=
  ["January", "February", "March", "April", "May", "June", "July", "August", "September",
    "October", "November", "December"]

end Civil

/-- How far the clocks of a place are ahead. -/
structure Zone where
  /-- What it is called. -/
  name : Chars
  /-- The seconds by which clocks are ahead. -/
  offset : Int
  deriving DecidableEq, Repr

namespace Zone

/-- The zone that others are measured by. -/
def universal : Zone := ⟨"UTC".toList, 0⟩

/-- The seconds that hours, minutes and seconds with colons between them spell. -/
def spanOf (cs : Chars) : Nat :=
  match (Chars.splitOn (· = ':') cs).map fun w ↦ (Chars.toNat? w).getD 0 with
  | h :: m :: s :: _ => (h * 60 + m) * 60 + s
  | [h, m] => (h * 60 + m) * 60
  | [h] => h * 3600
  | [] => 0

/-- The zone that a name with the hours by which clocks are behind spells. -/
def read (cs : Chars) : Zone :=
  let (name, rest) := match cs with
    | '<' :: cs => (cs.takeWhile (· ≠ '>'), (cs.dropWhile (· ≠ '>')).drop 1)
    | cs => cs.span Char.isAlpha
  if name.length < 3 then universal
  else match rest with
    | '-' :: cs => ⟨name, spanOf (cs.takeWhile fun c ↦ c.isDigit || c = ':')⟩
    | '+' :: cs => ⟨name, -(spanOf (cs.takeWhile fun c ↦ c.isDigit || c = ':') : Int)⟩
    | cs => ⟨name, -(spanOf (cs.takeWhile fun c ↦ c.isDigit || c = ':') : Int)⟩

/-- The difference to universal time in digits, with so many colons. -/
def difference (z : Zone) (colons : Nat) : Chars :=
  let n := z.offset.natAbs
  let two := Chars.ofNatWide 2
  (if z.offset < 0 then '-' else '+') :: (match colons with
    | 0 => two (n / 3600) ++ two (n / 60 % 60)
    | 1 => two (n / 3600) ++ ':' :: two (n / 60 % 60)
    | 2 => two (n / 3600) ++ ':' :: two (n / 60 % 60) ++ ':' :: two (n % 60)
    | _ => two (n / 3600) ++
        (if n % 3600 = 0 then [] else ':' :: two (n / 60 % 60) ++
          if n % 60 = 0 then [] else ':' :: two (n % 60)))

end Zone

/-! ## Writing -/

/-- A moment as it is seen in a zone. -/
structure Stamp where
  /-- The whole seconds since the start of the year 1970. -/
  seconds : Int
  /-- The nanoseconds behind them. -/
  fraction : Nat
  /-- The zone. -/
  zone : Zone

namespace Stamp

/-- The date and the time of day in the zone. -/
def civil (s : Stamp) : Civil := .ofSeconds (s.seconds + s.zone.offset)

/-- How a directive is to be written. -/
structure Wish where
  /-- What numbers are filled with: a zero, a blank or nothing. -/
  padding : Option Char
  /-- Letters become capitals. -/
  isUpper : Bool
  /-- Letters change between capitals and small ones. -/
  isSwapped : Bool
  /-- How wide it is at least. -/
  width : Nat
  /-- How many colons stand in a difference. -/
  colons : Nat

/-- The parts of a directive in front of its letter, and what follows them. -/
def readWish (w : Wish) : Chars → Wish × Chars
  | '-' :: cs => readWish { w with padding := some '-' } cs
  | '_' :: cs => readWish { w with padding := some ' ' } cs
  | '0' :: cs => if w.width = 0 then readWish { w with padding := some '0' } cs
    else readWish { w with width := w.width * 10 } cs
  | '^' :: cs => readWish { w with isUpper := true } cs
  | '#' :: cs => readWish { w with isSwapped := true } cs
  | ':' :: cs => readWish { w with colons := w.colons + 1 } cs
  | c :: cs =>
    if c.isDigit then readWish { w with width := w.width * 10 + (c.toNat - '0'.toNat) } cs
    else (w, c :: cs)
  | [] => (w, [])

/-- A number filled to a width, with what is usual unless something else is wished. -/
def Wish.number (w : Wish) (usual : Char) (least : Nat) (n : Int) : Chars :=
  let ds := Chars.ofNat n.natAbs
  let sign := if n < 0 then ['-'] else []
  let fill := w.padding.getD usual
  if fill = '-' then sign ++ ds
  else
    let missing := max least w.width - sign.length - ds.length
    if fill = '0' then sign ++ List.replicate missing '0' ++ ds
    else List.replicate missing fill ++ sign ++ ds

/-- A word filled to a width. -/
def Wish.word (w : Wish) (cs : Chars) : Chars :=
  let cs := if w.isUpper then cs.map Char.toUpper else cs
  let fill := if w.padding = some '0' then '0' else ' '
  List.replicate (w.width - cs.length) fill ++ cs

/-- The directives that stand for other ones. -/
def shorthands : List (Char × String) :=
  [('c', "%a %b %e %H:%M:%S %Y"), ('D', "%m/%d/%y"), ('F', "%Y-%m-%d"), ('r', "%I:%M:%S %p"),
    ('R', "%H:%M"), ('T', "%H:%M:%S"), ('x', "%m/%d/%y"), ('X', "%H:%M:%S")]

/-- What a letter that stands for no other ones means; nothing if it has no meaning. -/
def part? (s : Stamp) (w : Wish) (letter : Char) : Option Chars :=
  let c := s.civil
  let hour := c.second / 3600
  let short := fun (n : Nat) ↦ (if n % 12 = 0 then 12 else n % 12 : Nat)
  let named := fun (names : List String) (k count : Nat) ↦
    let cs := ((names[k]?).getD "").toList.take count
    { w with isUpper := w.isUpper || w.isSwapped }.word cs
  let half := if hour < 12 then "AM".toList else "PM".toList
  match letter with
  | '%' => some ['%']
  | 'n' => some ['\n']
  | 't' => some ['\t']
  | 'a' => some (named Civil.dayNames c.weekday 3)
  | 'A' => some (named Civil.dayNames c.weekday 20)
  | 'b' | 'h' => some (named Civil.monthNames (c.month - 1) 3)
  | 'B' => some (named Civil.monthNames (c.month - 1) 20)
  | 'C' => some (w.number '0' 2 (c.year.fdiv 100))
  | 'd' => some (w.number '0' 2 c.day)
  | 'e' => some (w.number ' ' 2 c.day)
  | 'g' => some (w.number '0' 2 (c.isoWeek.1.fmod 100))
  | 'G' => some (w.number '0' 4 c.isoWeek.1)
  | 'H' => some (w.number '0' 2 hour)
  | 'I' => some (w.number '0' 2 (short hour))
  | 'j' => some (w.number '0' 3 c.yearDay)
  | 'k' => some (w.number ' ' 2 hour)
  | 'l' => some (w.number ' ' 2 (short hour))
  | 'm' => some (w.number '0' 2 c.month)
  | 'M' => some (w.number '0' 2 (c.second / 60 % 60))
  | 'N' =>
    let ds := Chars.ofNatWide 9 s.fraction
    let ds := if w.width = 0 then ds else (ds ++ List.replicate (w.width - 9) '0').take w.width
    some (if w.padding = some '-' then (ds.reverse.dropWhile (· = '0')).reverse else ds)
  | 'p' => some (w.word (if w.isSwapped then half.map Char.toLower else half))
  | 'P' => some (w.word (half.map Char.toLower))
  | 'q' => some (w.number '0' 1 ((c.month + 2) / 3 : Nat))
  | 's' => some (w.number '0' 1 s.seconds)
  | 'S' => some (w.number '0' 2 (c.second % 60))
  | 'u' => some (w.number '0' 1 (if c.weekday = 0 then 7 else c.weekday : Nat))
  | 'U' => some (w.number '0' 2 ((c.yearDay + 6 - c.weekday) / 7 : Nat))
  | 'V' => some (w.number '0' 2 c.isoWeek.2)
  | 'w' => some (w.number '0' 1 c.weekday)
  | 'W' => some (w.number '0' 2 ((c.yearDay + 6 - (c.weekday + 6) % 7) / 7 : Nat))
  | 'y' => some (w.number '0' 2 (c.year.fmod 100))
  | 'Y' => some (w.number '0' (if c.year < 0 then 5 else 4) c.year)
  | 'z' => some (s.zone.difference w.colons)
  | 'Z' => some (w.word (if w.isSwapped then s.zone.name.map Char.toLower else s.zone.name))
  | _ => none

/-- A moment in a format.  Every step takes a character or replaces a directive, which happens only
once for each. -/
def format (s : Stamp) : Nat → Chars → Chars
  | 0, _ => []
  | _, [] => []
  | n + 1, '%' :: cs =>
    let (w, rest) := readWish ⟨none, false, false, 0, 0⟩ cs
    let rest := match rest with
      | 'E' :: d :: more | 'O' :: d :: more => d :: more
      | rest => rest
    match rest with
    | [] => '%' :: cs
    | letter :: rest =>
      match shorthands.lookup letter with
      | some f => w.word (s.format n f.toList) ++ s.format n rest
      | none => match s.part? w letter with
        | some text => text ++ s.format n rest
        | none =>
          '%' :: cs.take (cs.length - rest.length) ++ s.format n rest
  | n + 1, c :: cs => c :: s.format n cs

/-- A moment in a format. -/
def inFormat (s : Stamp) (cs : Chars) : Chars := s.format (cs.length + 40) cs

/-- A moment with all its digits. -/
def full (s : Stamp) : Chars := s.inFormat "%Y-%m-%d %H:%M:%S.%N %z".toList

/-- The last day of a long February. -/
example : (Stamp.mk 951782400 0 .universal).inFormat "%F %a %j %V".toList =
    "2000-02-29 Tue 060 09".toList := by decide +kernel

end Stamp

/-- A moment before the start. -/
example : Civil.ofSeconds (-1) = ⟨1969, 12, 31, 86399⟩ ∧
    (Civil.mk 1969 12 31 86399).toSeconds = -1 := by decide +kernel

end ContractBuild
