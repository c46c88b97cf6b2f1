import ContractBuild.Build.Contract
import Mathlib.Data.List.DropRight

/-!
# The code line of a report

A report is described here by what is between its line feeds, and a code line by the line without
the white space at both ends.  The two descriptions of a code line part in one place: a label with
nothing but white space behind it loses its last character when the line is trimmed, so that it is
no label any more, yet the reader still takes it for one and gives no code.
-/

namespace ContractBuild

/-! ## Lines between line feeds -/

namespace Text

/-- A line that a line feed has ended, without the carriage return that belongs to that. -/
def dropReturn (line : List Char) : List Char :=
  if line.getLast? = some '\r' then line.dropLast else line

/-- The lines of a text whose pieces between line feeds are given: every piece but the last has been
ended, and the last is a line if there is something in it. -/
def linesOfPieces : List (List Char) → List (List Char)
  | [] => []
  | [last] => if last = [] then [] else [last]
  | piece :: pieces => dropReturn piece :: linesOfPieces pieces

/-- The lines of a text, as they stand between its line feeds. -/
def linesBetween (s : List Char) : List (List Char) := linesOfPieces (s.splitOn '\n')

theorem splitOn_newline (s : List Char) : ('\n' :: s).splitOn '\n' = [] :: s.splitOn '\n' := by
  simp [List.splitOn, List.splitOnP_cons_eq_if_modifyHead]

theorem splitOn_of_ne {c : Char} (h : c ≠ '\n') (s : List Char) :
    (c :: s).splitOn '\n' = (s.splitOn '\n').modifyHead (c :: ·) := by
  simp [List.splitOn, List.splitOnP_cons_eq_if_modifyHead, h]

/-- A text always has a piece. -/
theorem splitOn_ne_nil (s : List Char) : s.splitOn '\n' ≠ [] := List.splitOnP_ne_nil _ s

theorem exists_splitOn (s : List Char) : ∃ piece pieces, s.splitOn '\n' = piece :: pieces :=
  List.exists_cons_of_ne_nil (splitOn_ne_nil s)

/-- A text that has more than one piece, the first of them empty, starts with a line feed. -/
theorem eq_newline_of_splitOn {s piece : List Char} {pieces : List (List Char)}
    (h : s.splitOn '\n' = [] :: piece :: pieces) : ∃ rest, s = '\n' :: rest := by
  cases s with
  | nil => simp at h
  | cons c rest =>
    by_cases hc : c = '\n'
    · exact ⟨rest, by rw [hc]⟩
    · obtain ⟨first, others, hrest⟩ := exists_splitOn rest
      rw [splitOn_of_ne hc, hrest] at h
      simp at h

theorem dropReturn_cons {c : Char} {line : List Char} (h : line = [] → c ≠ '\r') :
    dropReturn (c :: line) = c :: dropReturn line := by
  cases line with
  | nil => simp [dropReturn, h rfl]
  | cons d line =>
    unfold dropReturn
    rw [List.getLast?_cons_cons, List.dropLast_cons_cons]
    split <;> rfl

theorem linesOfPieces_cons {pieces : List (List Char)} (h : pieces ≠ []) (piece : List Char) :
    linesOfPieces (piece :: pieces) = dropReturn piece :: linesOfPieces pieces := by
  cases pieces with
  | nil => exact absurd rfl h
  | cons _ _ => rfl

/-- The lines of a text are what is between its line feeds. -/
theorem lines_eq_linesBetween (s : List Char) : lines s = linesBetween s := by
  unfold linesBetween
  fun_induction lines s with
  | case1 => simp [linesOfPieces]
  | case2 s ih =>
    rw [splitOn_newline, linesOfPieces_cons (splitOn_ne_nil s), ← ih]
    rfl
  | case3 s ih =>
    rw [splitOn_of_ne (by decide), splitOn_newline, List.modifyHead_cons,
      linesOfPieces_cons (splitOn_ne_nil s), ← ih]
    rfl
  | case4 c s hfeed hreturn ih =>
    obtain ⟨piece, pieces, hs⟩ := exists_splitOn s
    rw [splitOn_of_ne fun hc ↦ hfeed hc, hs, List.modifyHead_cons, ih, hs]
    cases pieces with
    | nil => by_cases hpiece : piece = [] <;> simp [linesOfPieces, attach, hpiece]
    | cons next pieces =>
      -- a carriage return goes with the line feed behind it, which is the case before
      have apart : piece = [] → c ≠ '\r' := by
        rintro rfl hc
        obtain ⟨rest, hrest⟩ := eq_newline_of_splitOn hs
        exact hreturn rest hc hrest
      have more : next :: pieces ≠ [] := List.cons_ne_nil next pieces
      rw [linesOfPieces_cons more, linesOfPieces_cons more, dropReturn_cons apart]
      rfl

/-! ## Trimming at both ends -/

/-- The text without the white space at either end. -/
def trim (s : List Char) : List Char := (s.dropWhile isBlank).rdropWhile isBlank

end Text

/-! ## Code lines as they are specified -/

namespace CodeLine

/-- The code on a line, as it is specified: what stands behind the label where the trimmed line
starts with that. -/
def ofTrimmed? (line : List Char) : Option (List Char) :=
  if label <+: Text.trim line then some ((Text.trim line).drop label.length) else none

/-- The code in a report, as it is specified: that of the first line that has one. -/
def specified? (report : String) : Option String :=
  ((Text.linesBetween report.toList).findSome? ofTrimmed?).map String.ofList

/-- Whether a line holds the label and otherwise nothing but white space. -/
def IsBare (line : List Char) : Prop :=
  ∃ before after, line = before ++ (label ++ after) ∧ (∀ c ∈ before, Text.isBlank c) ∧
    ∀ c ∈ after, Text.isBlank c

/-- What is behind a start is the rest of the text. -/
theorem dropStart?_eq_some_iff {p s rest : List Char} : dropStart? p s = some rest ↔ s = p ++ rest := by
  fun_induction dropStart? p s with
  | case1 s => simp [eq_comm]
  | case2 => simp
  | case3 p c s ih => simpa using ih
  | case4 p d s c hcd => simp [Ne.symm hcd]

/-- A line has a code where it starts with the label, white space before that apart. -/
theorem ofLine?_eq_some_iff {line code : List Char} : ofLine? line = some code ↔
    ∃ rest, line.dropWhile Text.isBlank = label ++ rest ∧ code = rest.rdropWhile Text.isBlank := by
  simp only [ofLine?, Option.map_eq_some_iff, dropStart?_eq_some_iff]
  constructor
  · rintro ⟨rest, hrest, rfl⟩
    exact ⟨rest, hrest, rfl⟩
  · rintro ⟨rest, hrest, rfl⟩
    exact ⟨rest, hrest, rfl⟩

/-- White space before the label does not count. -/
theorem isBare_iff {line : List Char} :
    IsBare line ↔ ∃ rest, line.dropWhile Text.isBlank = label ++ rest ∧ ∀ c ∈ rest, Text.isBlank c := by
  constructor
  · rintro ⟨before, after, rfl, hbefore, hafter⟩
    refine ⟨after, ?_, hafter⟩
    rw [List.dropWhile_append_of_pos hbefore]
    rfl
  · rintro ⟨rest, hrest, blank⟩
    refine ⟨line.takeWhile Text.isBlank, rest, ?_, fun c hc ↦ List.mem_takeWhile_imp hc, blank⟩
    rw [← hrest, List.takeWhile_append_dropWhile]

/-- A label with something behind it stays when the line is trimmed. -/
theorem rdropWhile_label {rest : List Char} (h : ¬ ∀ c ∈ rest, Text.isBlank c) :
    (label ++ rest).rdropWhile Text.isBlank = label ++ rest.rdropWhile Text.isBlank := by
  have kept : (rest.reverse.dropWhile Text.isBlank) ≠ [] := by
    rwa [ne_eq, List.dropWhile_eq_nil_iff, forall_congr' fun c ↦ by rw [List.mem_reverse]]
  simp [List.rdropWhile, List.dropWhile_append, kept]

/-- A label with nothing behind it is trimmed itself. -/
theorem not_label_prefix {rest : List Char} (h : ∀ c ∈ rest, Text.isBlank c) :
    ¬ label <+: (label ++ rest).rdropWhile Text.isBlank := by
  have gone : rest.reverse.dropWhile Text.isBlank = [] :=
    List.dropWhile_eq_nil_iff.mpr fun c hc ↦ h c (List.mem_reverse.mp hc)
  have short : (label ++ rest).rdropWhile Text.isBlank = "code:".toList := by
    rw [List.rdropWhile, List.reverse_append, List.dropWhile_append, gone]
    decide
  rw [short]
  decide

/-- A line has a code as it is specified where something other than white space is behind the
label. -/
theorem ofTrimmed?_eq_some_iff {line code : List Char} : ofTrimmed? line = some code ↔
    ∃ rest, line.dropWhile Text.isBlank = label ++ rest ∧ (¬ ∀ c ∈ rest, Text.isBlank c) ∧
      code = rest.rdropWhile Text.isBlank := by
  unfold ofTrimmed? Text.trim
  constructor
  · intro h
    obtain ⟨⟨kept, hkept⟩, hcode⟩ := Option.ite_none_right_eq_some.mp h
    obtain ⟨lost, hlost⟩ := List.rdropWhile_prefix Text.isBlank (l := line.dropWhile Text.isBlank)
    have start : line.dropWhile Text.isBlank = label ++ (kept ++ lost) := by
      rw [← hlost, ← hkept, List.append_assoc]
    have something : ¬ ∀ c ∈ kept ++ lost, Text.isBlank c := by
      intro blank
      refine not_label_prefix blank ?_
      rw [← start, ← hkept]
      exact List.prefix_append _ _
    refine ⟨kept ++ lost, start, something, ?_⟩
    rw [start, rdropWhile_label something] at hcode
    exact (Option.some.inj hcode).symm
  · rintro ⟨rest, hrest, something, rfl⟩
    rw [hrest, rdropWhile_label something]
    simp

/-- A code as it is specified is not empty. -/
theorem ne_nil_of_ofTrimmed? {line code : List Char} (h : ofTrimmed? line = some code) : code ≠ [] := by
  obtain ⟨rest, -, something, rfl⟩ := ofTrimmed?_eq_some_iff.mp h
  rwa [ne_eq, List.rdropWhile_eq_nil_iff]

/-- The reader finds the code that is specified, and an empty one behind a bare label. -/
theorem ofLine?_eq_some_iff_or {line code : List Char} : ofLine? line = some code ↔
    ofTrimmed? line = some code ∨ IsBare line ∧ code = [] := by
  rw [ofLine?_eq_some_iff, ofTrimmed?_eq_some_iff, isBare_iff]
  constructor
  · rintro ⟨rest, hrest, rfl⟩
    by_cases blank : ∀ c ∈ rest, Text.isBlank c
    · exact .inr ⟨⟨rest, hrest, blank⟩, List.rdropWhile_eq_nil_iff.mpr blank⟩
    · exact .inl ⟨rest, hrest, blank, rfl⟩
  · rintro (⟨rest, hrest, -, rfl⟩ | ⟨⟨rest, hrest, blank⟩, rfl⟩)
    · exact ⟨rest, hrest, rfl⟩
    · exact ⟨rest, hrest, (List.rdropWhile_eq_nil_iff.mpr blank).symm⟩

/-! ## Reports -/

/-- Whether one of some lines is a bare label and no line before it has a code. -/
def StartsBare (lines : List (List Char)) : Prop :=
  ∃ before line after, lines = before ++ line :: after ∧ (∀ l ∈ before, ofTrimmed? l = none) ∧
    IsBare line

theorem not_startsBare_nil : ¬ StartsBare [] := by
  rintro ⟨before, line, after, h, -⟩
  simp at h

theorem startsBare_cons {line : List Char} {lines : List (List Char)} :
    StartsBare (line :: lines) ↔ IsBare line ∨ ofTrimmed? line = none ∧ StartsBare lines := by
  constructor
  · rintro ⟨before, bare, after, h, none, hbare⟩
    cases before with
    | nil => exact .inl ((List.cons.inj h).1 ▸ hbare)
    | cons first before =>
      obtain ⟨rfl, hlines⟩ := List.cons.inj h
      exact .inr ⟨none line List.mem_cons_self,
        before, bare, after, hlines, fun l hl ↦ none l (List.mem_cons_of_mem _ hl), hbare⟩
  · rintro (hbare | ⟨hline, before, bare, after, rfl, none, hbare⟩)
    · exact ⟨[], line, lines, rfl, List.forall_mem_nil _, hbare⟩
    · exact ⟨line :: before, bare, after, rfl, List.forall_mem_cons.mpr ⟨hline, none⟩, hbare⟩

/-- The first code of some lines is the specified one, unless a bare label comes before. -/
theorem findSome?_ofLine? (lines : List (List Char)) :
    (StartsBare lines → lines.findSome? ofLine? = some []) ∧
      (¬ StartsBare lines → lines.findSome? ofLine? = lines.findSome? ofTrimmed?) := by
  induction lines with
  | nil => exact ⟨fun h ↦ absurd h not_startsBare_nil, fun _ ↦ rfl⟩
  | cons line lines ih =>
    rw [startsBare_cons]
    by_cases hbare : IsBare line
    · refine ⟨fun _ ↦ ?_, fun h ↦ absurd (.inl hbare) h⟩
      rw [List.findSome?_cons, ofLine?_eq_some_iff_or.mpr (.inr ⟨hbare, rfl⟩)]
    · have same : ofLine? line = ofTrimmed? line := by
        refine Option.ext fun code ↦ ?_
        rw [ofLine?_eq_some_iff_or]
        exact or_iff_left fun h ↦ hbare h.1
      rw [List.findSome?_cons, List.findSome?_cons, same]
      cases hline : ofTrimmed? line with
      | none => simpa [hbare] using ih
      | some code => simp [hbare]

/-- The code that is found in a report is the one that is specified, unless a bare label comes before
the first line that has one: then an empty code is found, which is never specified. -/
theorem find?_eq_specified?_iff (report : String) :
    (find? report = specified? report ↔ ¬ StartsBare (Text.linesBetween report.toList)) ∧
      (StartsBare (Text.linesBetween report.toList) → find? report = some "") := by
  obtain ⟨bare, other⟩ := findSome?_ofLine? (Text.linesBetween report.toList)
  unfold find? specified?
  rw [Text.lines_eq_linesBetween]
  refine ⟨⟨fun same hbare ↦ ?_, fun hbare ↦ by rw [other hbare]⟩, fun hbare ↦ by rw [bare hbare]; rfl⟩
  rw [bare hbare] at same
  obtain ⟨code, hcode, hempty⟩ := Option.map_eq_some_iff.mp same.symm
  obtain ⟨-, line, -, -, hline, -⟩ := List.findSome?_eq_some_iff.mp hcode
  refine ne_nil_of_ofTrimmed? hline ?_
  simpa using hempty

/-- A bare label gives an empty code, and none is specified. -/
theorem find?_bare : find? "code: \n" = some "" ∧ specified? "code: \n" = none := by
  constructor
  · decide +kernel
  · decide +kernel

end CodeLine

end ContractBuild
