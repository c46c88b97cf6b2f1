import ContractBuild.Posix.Text.Calendar

/-!
# Dates as people write them

A text says a moment by a date, a time of day, a zone, a day of the week and distances, in nearly
any order.  What it does not say is taken from a moment at hand.
-/

namespace ContractBuild.WrittenDate

/-! ## Words -/

/-- A word of a date. -/
inductive Token
  /-- A number, with its sign if it has one, its digits and those behind its point. -/
  | number (sign : Option Char) (digits places : Chars)
  /-- A word in small letters. -/
  | word (cs : Chars)
  /-- Any other sign. -/
  | sign (c : Char)
  deriving DecidableEq, Repr

/-- Whether a character separates words. -/
def isBlank (c : Char) : Bool := c = ' ' || ('\t' ≤ c && c ≤ '\r')

/-- A number behind its sign, and what follows it. -/
def readNumber (sign : Option Char) (cs : Chars) : Token × Chars :=
  let (ds, rest) := cs.span Char.isDigit
  match rest with
  | '.' :: d :: more =>
    if d.isDigit then
      let (places, rest) := (d :: more).span Char.isDigit
      (.number sign ds places, rest)
    else (.number sign ds [], rest)
  | rest => (.number sign ds [], rest)

/-- The words of a text; what stands in parentheses says nothing.  Every step takes a character. -/
def tokens : Nat → Chars → List Token
  | 0, _ => []
  | n + 1, cs =>
    match cs with
    | [] => []
    | '(' :: rest => tokens n ((rest.dropWhile (· ≠ ')')).drop 1)
    | c :: rest =>
      if isBlank c then tokens n rest
      else if c.isDigit then
        let (t, rest) := readNumber none (c :: rest)
        t :: tokens n rest
      else if c.isAlpha then
        let (w, rest) := (c :: rest).span fun d ↦ d.isAlpha || d = '.'
        .word ((w.filter (· ≠ '.')).map Char.toLower) :: tokens n rest
      else if c = '-' || c = '+' then
        let more := rest.dropWhile isBlank
        if more.head?.any Char.isDigit then
          let (t, rest) := readNumber (some c) more
          t :: tokens n rest
        else if c = '-' then tokens n rest
        else .sign c :: tokens n rest
      else .sign c :: tokens n rest

/-! ## What has been said -/

/-- A distance in time. -/
structure Distance where
  /-- Years and months, in months. -/
  months : Int
  /-- Days. -/
  days : Int
  /-- Seconds. -/
  seconds : Int

/-- What a text has said so far. -/
structure Said where
  /-- The year, which can be missing, the month and the day. -/
  date : Option (Option Int × Nat × Nat)
  /-- The second of the day, with nanoseconds. -/
  time : Option (Nat × Nat)
  /-- The offset of the zone. -/
  offset : Option Int
  /-- The day of the week, and which one of those to come. -/
  weekday : Option (Nat × Int)
  /-- The distance from what is said otherwise. -/
  distance : Option Distance

namespace Said

/-- Nothing. -/
def nothing : Said := ⟨none, none, none, none, none⟩

/-- Says a date, which can be said only once. -/
def withDate (s : Said) (year : Option Int) (month day : Nat) : Option Said :=
  if s.date.isSome || month = 0 || 12 < month || day = 0 || 31 < day then none
  else some { s with date := some (year, month, day) }

/-- Says a time, which can be said only once. -/
def withTime (s : Said) (hour minute second nanoseconds : Nat) : Option Said :=
  if s.time.isSome || 24 ≤ hour || 60 ≤ minute || 60 ≤ second then none
  else some { s with time := some ((hour * 60 + minute) * 60 + second, nanoseconds) }

/-- Says one more distance. -/
def withDistance (s : Said) (d : Distance) : Said :=
  let e := s.distance.getD ⟨0, 0, 0⟩
  let sum : Distance := ⟨e.months + d.months, e.days + d.days, e.seconds + d.seconds⟩
  { s with distance := some sum }

end Said

/-! ## Names -/

/-- The place among some names of one that is written out or shortened to so many letters. -/
def placeOf? (names : List String) (w : Chars) : Option Nat :=
  names.findIdx? fun n ↦
    let full := n.toList.map Char.toLower
    w = full || (w.length = 3 && w.isPrefixOf full) || (w = "sept".toList && n = "September")

/-- The day of the week that a word names. -/
def weekday? (w : Chars) : Option Nat :=
  if ["tues".toList].contains w then some 2
  else if ["wednes".toList].contains w then some 3
  else if ["thur".toList, "thurs".toList].contains w then some 4
  else placeOf? Civil.dayNames w

/-- The month that a word names, from 1 on. -/
def month? (w : Chars) : Option Nat := (placeOf? Civil.monthNames w).map (· + 1)

/-- The offset of the zone that a word names. -/
def offset? (w : Chars) : Option Int :=
  [("utc", 0), ("gmt", 0), ("ut", 0), ("z", 0), ("wet", 0), ("west", 3600), ("bst", 3600),
    ("cet", 3600), ("cest", 7200), ("met", 3600), ("mest", 7200), ("eet", 7200),
    ("eest", 10800), ("msk", 10800), ("ist", 19800), ("jst", 32400), ("est", -18000),
    ("edt", -14400), ("cst", -21600), ("cdt", -18000), ("mst", -25200), ("mdt", -21600),
    ("pst", -28800), ("pdt", -25200)].lookup (Chars.toString w)

/-- The offset of the zone that a letter names. -/
def letterOffset? (c : Char) : Option Int :=
  let n : Int := c.toNat - 'a'.toNat
  if 'a' ≤ c && c ≤ 'i' then some ((n + 1) * 3600)
  else if 'k' ≤ c && c ≤ 'm' then some (n * 3600)
  else if 'n' ≤ c && c ≤ 'y' then some ((12 - n) * 3600)
  else none

/-- So many of a unit that a word names. -/
def unit? (count : Int) (w : Chars) : Option Distance :=
  let w := if w.getLast? = some 's' && w.length ≠ 1 then w.dropLast else w
  match Chars.toString w with
  | "year" => some ⟨12 * count, 0, 0⟩
  | "month" => some ⟨count, 0, 0⟩
  | "fortnight" => some ⟨0, 14 * count, 0⟩
  | "week" => some ⟨0, 7 * count, 0⟩
  | "day" => some ⟨0, count, 0⟩
  | "hour" => some ⟨0, 0, 3600 * count⟩
  | "minute" | "min" => some ⟨0, 0, 60 * count⟩
  | "second" | "sec" => some ⟨0, 0, count⟩
  | _ => none

/-- The distance that a word says alone. -/
def shift? (w : Chars) : Option Int :=
  [("now", (0 : Int)), ("today", 0), ("tomorrow", 1), ("yesterday", -1)].lookup (Chars.toString w)

/-- The number that a word says. -/
def ordinal? (w : Chars) : Option Int :=
  [("last", (-1 : Int)), ("this", 0), ("next", 1), ("first", 1), ("third", 3), ("fourth", 4),
    ("fifth", 5), ("sixth", 6), ("seventh", 7), ("eighth", 8), ("ninth", 9), ("tenth", 10),
    ("eleventh", 11), ("twelfth", 12)].lookup (Chars.toString w)

/-! ## Reading -/

/-- The value of digits. -/
def valueOf (ds : Chars) : Nat := (Chars.toNat? ds).getD 0

/-- The nanoseconds that places spell. -/
def nanosecondsOf (places : Chars) : Nat :=
  valueOf ((places ++ List.replicate 9 '0').take 9)

/-- The year that digits spell; two of them mean one near the year 2000. -/
def yearOf (ds : Chars) : Int :=
  let n := valueOf ds
  if ds.length = 2 then if n < 69 then 2000 + n else 1900 + n else n

/-- The offset that digits with a sign spell, with minutes behind a colon if there are some. -/
def offsetOf (sign : Char) (ds : Chars) (minutes : Option Chars) : Option Int :=
  let n := valueOf ds
  let total := match minutes with
    | some m => n * 60 + valueOf m
    | none => if ds.length ≤ 2 then n * 60 else n / 100 * 60 + n % 100
  if 24 * 60 < total then none
  else some (if sign = '-' then -(total * 60 : Int) else total * 60)

/-- The hour of a day for one of its half. -/
def hourOf? (hour : Nat) (half : Chars) : Option Nat :=
  if hour = 0 || 12 < hour then none
  else if half = "am".toList then some (hour % 12)
  else if half = "pm".toList then some (hour % 12 + 12)
  else none

/-- What may stand behind a time: the difference of the clocks. -/
def readOffset (s : Said) : List Token → Option (Said × List Token)
  | .number (some c) ds [] :: .sign ':' :: .number none ms [] :: rest =>
    (offsetOf c ds (some ms)).map fun o ↦ ({ s with offset := some o }, rest)
  | .number (some c) ds [] :: rest =>
    (offsetOf c ds none).map fun o ↦ ({ s with offset := some o }, rest)
  | rest => some (s, rest)

/-- A time behind its hour and the first colon. -/
def readTime (s : Said) (hour minute second : Nat) (places : Chars) (rest : List Token) :
    Option (Said × List Token) := do
  match rest with
  | .word w :: more =>
    match hourOf? hour w with
    | some hour => return (← s.withTime hour minute second (nanosecondsOf places), more)
    | none =>
      if w = "am".toList || w = "pm".toList then none
      return (← s.withTime hour minute second (nanosecondsOf places), rest)
  | rest => readOffset (← s.withTime hour minute second (nanosecondsOf places)) rest

/-- A number that stands alone. -/
def readAlone (s : Said) (ds : Chars) : Option Said :=
  match s.date with
  | some (none, month, day) =>
    if s.distance.isNone && (s.time.isSome || 2 < ds.length) then
      some { s with date := some (some (yearOf ds), month, day) }
    else readClock s ds
  | _ =>
    if 4 < ds.length then
      let n := valueOf ds
      s.withDate (some (n / 10000 : Nat)) (n / 100 % 100) (n % 100)
    else readClock s ds
where
  /-- Digits as a time. -/
  readClock (s : Said) (ds : Chars) : Option Said :=
    let n := valueOf ds
    if ds.length ≤ 2 then s.withTime n 0 0 0 else s.withTime (n / 100) (n % 100) 0 0

/-- What a word says that stands alone, and what follows it. -/
def readWord (s : Said) (w : Chars) (rest : List Token) : Option (Said × List Token) :=
  let counted := fun (count : Int) (name : Chars) (rest : List Token) ↦
    match unit? count name, rest with
    | some d, .word ['a', 'g', 'o'] :: rest =>
      some (s.withDistance ⟨-d.months, -d.days, -d.seconds⟩, rest)
    | some d, rest => some (s.withDistance d, rest)
    | none, _ => none
  match shift? w, month? w, weekday? w, offset? w, ordinal? w with
  | some k, _, _, _, _ => some (s.withDistance ⟨0, k, 0⟩, rest)
  | _, some m, _, _, _ =>
    match rest with
    | .number none day [] :: .sign ',' :: .number none year [] :: rest =>
      (s.withDate (some (yearOf year)) m (valueOf day)).map (·, rest)
    | .number none day [] :: rest => (s.withDate none m (valueOf day)).map (·, rest)
    | .number (some '-') day [] :: .number (some '-') year [] :: rest =>
      (s.withDate (some (yearOf year)) m (valueOf day)).map (·, rest)
    | _ => none
  | _, _, some d, _, _ =>
    if s.weekday.isSome then none
    else
      let rest := match rest with
        | .sign ',' :: rest => rest
        | rest => rest
      some ({ s with weekday := some (d, 0) }, rest)
  | _, _, _, some o, _ =>
    match rest with
    | .number (some c) ds [] :: more =>
      (offsetOf c ds none).map fun p ↦ ({ s with offset := some (o + p) }, more)
    | rest => some ({ s with offset := some o }, rest)
  | _, _, _, _, some k =>
    match rest with
    | .word u :: rest =>
      match weekday? u with
      | some d => if s.weekday.isSome then none else some ({ s with weekday := some (d, k) }, rest)
      | none => counted k u rest
    | _ => none
  | none, none, none, none, none =>
    match w, rest with
    | ['t'], .number none _ [] :: .sign ':' :: _ => if s.date.isSome then some (s, rest) else none
    | ['t'], .number .. :: _ => none
    | [c], _ => (letterOffset? c).map fun o ↦ ({ s with offset := some o }, rest)
    | _, _ => counted 1 w rest

/-- What the next words say, and what follows them. -/
def readItem (s : Said) (ts : List Token) : Option (Said × List Token) :=
  match ts with
  | .number none h [] :: .sign ':' :: .number none m [] :: .sign ':' ::
      .number none sec places :: rest =>
    readTime s (valueOf h) (valueOf m) (valueOf sec) places rest
  | .number none h [] :: .sign ':' :: .number none m [] :: rest =>
    readTime s (valueOf h) (valueOf m) 0 [] rest
  | .number none a [] :: .sign '/' :: .number none b [] :: .sign '/' ::
      .number none c [] :: rest =>
    (if 4 ≤ a.length then s.withDate (some (yearOf a)) (valueOf b) (valueOf c)
      else s.withDate (some (yearOf c)) (valueOf a) (valueOf b)).map (·, rest)
  | .number none a [] :: .sign '/' :: .number none b [] :: rest =>
    (s.withDate none (valueOf a) (valueOf b)).map (·, rest)
  | .number none y [] :: .number (some '-') m [] :: .number (some '-') d [] :: rest =>
    (s.withDate (some (yearOf y)) (valueOf m) (valueOf d)).map (·, rest)
  | .number none d [] :: .word w :: rest =>
    match month? w with
    | some m => match rest with
      | .number (some '-') y [] :: rest =>
        (s.withDate (some (yearOf y)) m (valueOf d)).map (·, rest)
      | .number none y [] :: .sign ':' :: more =>
        (s.withDate none m (valueOf d)).map (·, .number none y [] :: .sign ':' :: more)
      | .number none y [] :: rest =>
        (s.withDate (some (yearOf y)) m (valueOf d)).map (·, rest)
      | rest => (s.withDate none m (valueOf d)).map (·, rest)
    | none =>
      match unit? (valueOf d) w, hourOf? (valueOf d) w, weekday? w with
      | some x, _, _ => match rest with
        | .word ['a', 'g', 'o'] :: rest =>
          some (s.withDistance ⟨-x.months, -x.days, -x.seconds⟩, rest)
        | rest => some (s.withDistance x, rest)
      | _, some hour, _ => (s.withTime hour 0 0 0).map (·, rest)
      | _, _, some k =>
        if s.weekday.isSome then none
        else some ({ s with weekday := some (k, valueOf d) }, rest)
      | none, none, none => (readAlone s d).map (·, .word w :: rest)
  | .number none ds [] :: rest => (readAlone s ds).map (·, rest)
  | .number (some c) ds [] :: .word w :: rest =>
    let count : Int := if c = '-' then -valueOf ds else valueOf ds
    match unit? count w, rest with
    | some x, .word ['a', 'g', 'o'] :: rest =>
      some (s.withDistance ⟨-x.months, -x.days, -x.seconds⟩, rest)
    | some x, rest => some (s.withDistance x, rest)
    | none, _ => none
  | .number (some _) _ [] :: _ => readOffsetAlone s ts
  | .word w :: rest => readWord s w rest
  | .sign ',' :: rest => some (s, rest)
  | _ => none
where
  /-- A difference of clocks behind a time. -/
  readOffsetAlone (s : Said) (ts : List Token) : Option (Said × List Token) :=
    if s.time.isSome then readOffset s ts else none

/-- What some words say behind what has been said.  Every step takes a word. -/
def readAll : Nat → Said → List Token → Option Said
  | _, s, [] => some s
  | 0, _, _ => none
  | n + 1, s, ts => do
    let (s, rest) ← readItem s ts
    readAll n s rest

/-- The moment that is meant by what has been said, seen from another one in a zone. -/
def Said.moment (s : Said) (zone : Zone) (now : Int × Nat) : Option (Int × Nat) := do
  let zone := { zone with offset := s.offset.getD zone.offset }
  let today := Civil.ofSeconds (now.1 + zone.offset)
  let (year, month, day) := match s.date with
    | some (y, m, d) => (y.getD today.year, m, d)
    | none => (today.year, today.month, today.day)
  if Civil.daysIn year month < day then none
  let isRunning := s.distance.isSome && s.date.isNone && s.weekday.isNone
  let (second, nanoseconds) := match s.time with
    | some t => t
    | none => if isRunning then (today.second, now.2) else (0, 0)
  let d := s.distance.getD ⟨0, 0, 0⟩
  let months := year * 12 + (month - 1 : Nat) + d.months
  let number := Civil.dayNumber (months.fdiv 12) ((months.fmod 12).toNat + 1) day + d.days
  let number := match s.weekday, s.date with
    | some (w, k), none =>
      let here := Civil.weekdayOf number
      let ahead : Int := ((w + 7 - here) % 7 : Nat)
      number + ahead + 7 * (k - if 0 < k && here ≠ w then 1 else 0)
    | _, _ => number
  return (number * Civil.daySeconds + second - zone.offset + d.seconds, nanoseconds)

/-- The moment that a text says, seen from another one in a zone: whole seconds and nanoseconds
behind them. -/
def read (zone : Zone) (now : Int × Nat) (cs : Chars) : Option (Int × Nat) :=
  match cs.dropWhile isBlank with
  | '@' :: rest =>
    let (isNegative, ds) := match rest with
      | '-' :: ds => (true, ds)
      | '+' :: ds => (false, ds)
      | ds => (false, ds)
    match tokens (ds.length + 1) ds with
    | [.number none ds places] =>
      let n : Int := valueOf ds
      let f := nanosecondsOf places
      some (if !isNegative then (n, f) else if f = 0 then (-n, 0)
        else (-n - 1, 1000000000 - f))
    | _ => none
  | cs =>
    let ts := tokens (cs.length + 1) cs
    (readAll (2 * ts.length + 2) .nothing ts).bind (·.moment zone now)

/-- A date and a time with the difference of the clocks. -/
example : read .universal (0, 0) "2001-01-02 03:04:05 +0100".toList =
    some (978401045, 0) := by decide +kernel

/-- Distances from a day. -/
example : read .universal (86400, 0) "yesterday 1 hour".toList = some (3600, 0) := by
  decide +kernel

end ContractBuild.WrittenDate
