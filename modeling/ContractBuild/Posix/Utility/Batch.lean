import ContractBuild.Posix.Utility.Launch

/-!
# Arguments from an input

A program is run with the words of an input as its arguments, as many as a command line may have.
-/

namespace ContractBuild.Utility

/-- A word of an input; the truth value says whether its line ends with it. -/
abbrev Item := Chars × Bool

/-- The words of an input.  The quote that is open and the word at work, its last character first,
come along; the value of an error is the quote that is missing. -/
def itemsOf : Option Char → Option Chars → Chars → Except Char (List Item)
  | some q, _, [] => .error q
  | none, none, [] => .ok []
  | none, some w, [] => .ok [(w.reverse, true)]
  | none, w, '\\' :: c :: cs => itemsOf none (some (c :: w.getD [])) cs
  | some q, w, c :: cs =>
    if c = q then itemsOf none (some (w.getD [])) cs
    else if c = '\n' then .error q
    else itemsOf (some q) (some (c :: w.getD [])) cs
  | none, w, c :: cs =>
    if c = '"' || c = '\'' then itemsOf (some c) (some (w.getD [])) cs
    else if c = ' ' || c = '\t' || c = '\n' then
      match w with
      | some v => do return (v.reverse, decide (c = '\n')) :: (← itemsOf none none cs)
      | none => itemsOf none none cs
    else itemsOf none (some (c :: w.getD [])) cs

/-- The lines of an input without blanks at their start, in which quotes and backslashes are
replaced as in words. -/
def lineItems (cs : Chars) : Except Char (List Item) := do
  let lines ← (Chars.lines cs).mapM fun l ↦ do
    let l := l.dropWhile fun c ↦ c = ' ' || c = '\t'
    let blank := fun (c : Char) ↦ if c = ' ' then '\x01' else if c = '\t' then '\x02' else c
    let items ← itemsOf none none (l.map blank)
    return (items.map (·.1)).flatten.map fun c ↦
      if c = '\x01' then ' ' else if c = '\x02' then '\t' else c
  return (lines.filter (· ≠ [])).map (·, true)

/-- The parts of an input that end with a character. -/
def partItems (last : Char) (cs : Chars) : List Item :=
  let parts := Chars.splitOn (· = last) cs
  let parts := if parts.getLast? = some [] then parts.dropLast else parts
  parts.map (·, true)

/-- The character that ends words, as an option gives it. -/
def delimiter? : Chars → Option Char
  | ['\\', 'n'] => some '\n'
  | ['\\', 't'] => some '\t'
  | ['\\', '0'] => some '\x00'
  | d :: _ => some d
  | [] => none

/-- How many arguments a command line may have. -/
structure BatchLimit where
  /-- The greatest number of words. -/
  words : Option Nat
  /-- The greatest number of lines. -/
  lines : Option Nat
  /-- The greatest number of characters. -/
  characters : Nat

/-- The arguments of command lines.  What is known of the one at work comes along: its words, the
last one first, and the numbers of lines and characters. -/
def batches (limit : BatchLimit) : List Chars → Nat → Nat → List Item → List (List Chars)
  | [], _, _, [] => []
  | ws, _, _, [] => [ws.reverse]
  | ws, lines, size, (w, endsLine) :: rest =>
    let isFull := ws ≠ [] && (limit.words.any (· ≤ ws.length) || limit.lines.any (· ≤ lines) ||
      limit.characters < size + w.length + 1)
    let line := if endsLine then 1 else 0
    if isFull then ws.reverse :: batches limit [w] line (w.length + 1) rest
    else batches limit (w :: ws) (lines + line) (size + w.length + 1) rest

/-- A text with every occurrence of another one replaced.  Every step takes a character. -/
def replaceAll (old new : Chars) : Nat → Chars → Chars
  | 0, cs => cs
  | n + 1, cs =>
    if old ≠ [] && old.isPrefixOf cs then new ++ replaceAll old new n (cs.drop old.length)
    else match cs with
      | [] => []
      | c :: cs => c :: replaceAll old new n cs

/-- The number that an option gives. -/
def positive? (name : Chars) (c : Call) (letter : Char) : Routine (Option Nat) :=
  match c.value? letter with
  | none => pure none
  | some w => match Chars.toNat? w with
    | some 0 => refuseNumber ("value 0 for -".toList ++ letter :: " option should be >= 1".toList)
    | some n => pure (some n)
    | none => refuseNumber ("invalid number \"".toList ++ w ++ "\" for -".toList ++
        letter :: " option".toList)
where
  /-- Says what is wrong with a number. -/
  refuseNumber (message : Chars) : Routine (Option Nat) := refuse name 1 message

/-- The greatest number of characters of a command line, if nothing else is said. -/
def usualSize : Nat := 131072

/-- Runs a program for every list of arguments; the value is the status. -/
def runBatches (programs : Chars → Option Program) (name : Chars) (shows : Bool)
    (environment : List Chars) : List (List Chars) → Routine Nat
  | [] => return 0
  | words :: rest => do
    if shows then say (Chars.line (Chars.join [' '] (words.map shown)))
    let command := words.headD []
    let noInput : Routine Unit := do
      if let .ok n ← Routine.openPath (.ofString "/dev/null") .forReading 0 then
        let _ ← Routine.assign 0 n true
        Routine.close n
    match ← runToEnd programs words environment noInput with
    | .error e =>
      warn name (because command e)
      return codeOfFailure e
    | .ok status =>
      match Signal.ending? status, Signal.codeOf status with
      | some number, _ =>
        warn name (command ++ ": terminated by signal ".toList ++ Chars.ofNat number)
        return 125
      | none, 255 =>
        warn name (command ++ ": exited with status 255; aborting".toList)
        return 124
      | none, code =>
        let later ← runBatches programs name shows environment rest
        return if later ≠ 0 then later else if code = 0 then 0 else 123

/-- Runs a program with arguments from an input. -/
def xargs (programs : Chars → Option Program) : Program := fun args environment ↦ do
  let name := args.headD []
  let c ← readCall name 1 (plainFlags [('0', "null"), ('o', "open-tty"), ('p', "interactive"),
    ('r', "no-run-if-empty"), ('t', "verbose"), ('x', "exit")] ++
    valueFlags [('a', "arg-file"), ('d', "delimiter"), ('E', ""), ('I', ""),
      ('L', ""), ('n', "max-args"), ('P', "max-procs"), ('s', "max-chars")] ++
    [⟨'e', "eof", .optional⟩, ⟨'i', "replace", .optional⟩, ⟨'l', "max-lines", .optional⟩])
    false args.tail
  let words ← positive? name c 'n'
  let lines ← positive? name c 'L'
  let size ← positive? name c 's'
  let mark := match c.lastOf? ['I', 'i'] with
    | some 'I' => c.value? 'I'
    | some _ => match c.value? 'i' with
      | some [] | none => some "{}".toList
      | some w => some w
    | none => none
  let content ← match c.value? 'a' with
    | none => do
      match ← Routine.readAll 0 with
      | .ok bs => pure (Chars.ofBytes bs)
      | .error _ => pure []
    | some file => do
      match ← Routine.readPath (Chars.toPath file) with
      | .ok bs => pure (Chars.ofBytes bs)
      | .error e => fail name 1 (because ("Cannot open input file ".toList ++ cited file) e)
  let last := if c.has '0' then some '\x00' else (c.value? 'd').bind delimiter?
  let items : Except Char (List Item) := match last with
    | some d => .ok (partItems d content)
    | none => if mark.isSome then lineItems content else itemsOf none none content
  match items with
  | .error q =>
    fail name 1 ("unmatched ".toList ++ (if q = '"' then "double" else "single").toList ++
      " quote; by default quotes are special to xargs unless you use the -0 option".toList)
  | .ok items =>
    let items := match c.value? 'E' with
      | some e => if e = [] then items else items.takeWhile (·.1 ≠ e)
      | none => items
    let command := if c.operands = [] then ["echo".toList] else c.operands
    let calls := match mark with
      | some m => items.map fun e ↦
          command.headD [] :: command.tail.map fun a ↦ replaceAll m e.1 (a.length + 1) a
      | none =>
        let limit : BatchLimit := ⟨words, lines.orElse fun _ ↦ (c.value? 'l').map fun w ↦
          (Chars.toNat? w).getD 1, size.getD usualSize⟩
        let used := (command.map fun a ↦ a.length + 1).foldl (· + ·) 0
        let limit := { limit with characters := limit.characters - used }
        match batches limit [] 0 0 items with
        | [] => if c.has 'r' then [] else [command]
        | bs => bs.map (command ++ ·)
    runBatches programs name (c.has 't') environment calls

/-- Quotes keep characters together. -/
example : (itemsOf none none "a 'b c'd\n".toList).toOption =
    some [(['a'], false), ("b cd".toList, true)] := by decide +kernel

end ContractBuild.Utility
