/-!
# White space and lines

The characters with the Unicode property `White_Space`, and what is done with them: trimming a
text at either end, and cutting it into its words, the longest runs without white space.  A line ends
at a line feed, or at a carriage return that a line feed follows; a carriage return alone ends
nothing, and the last line needs no end.
-/

namespace ContractBuild.Text

/-- The ranges of the Unicode property `White_Space`, each from its first to its last character. -/
def blankRanges : List (Nat × Nat) :=
  [(0x09, 0x0D), (0x20, 0x20), (0x85, 0x85), (0xA0, 0xA0), (0x1680, 0x1680), (0x2000, 0x200A),
    (0x2028, 0x2029), (0x202F, 0x202F), (0x205F, 0x205F), (0x3000, 0x3000)]

/-- Whether a character is white space. -/
def isBlank (c : Char) : Bool := blankRanges.any fun r ↦ r.1 ≤ c.toNat && c.toNat ≤ r.2

/-! ## Trimming -/

/-- The text without the white space at its start. -/
def trimStart (s : List Char) : List Char := s.dropWhile isBlank

/-- The text without the white space at its end. -/
def trimEnd (s : List Char) : List Char := (s.reverse.dropWhile isBlank).reverse

/-! ## Words -/

/-- Puts a character before the first of some texts. -/
def attach (c : Char) : List (List Char) → List (List Char)
  | [] => [[c]]
  | w :: ws => (c :: w) :: ws

/-- Whether a text is empty or starts with white space. -/
def startsBlank : List Char → Bool
  | [] => true
  | c :: _ => isBlank c

/-- The words of a text in order. -/
def words : List Char → List (List Char)
  | [] => []
  | c :: s =>
    if isBlank c then words s
    else if startsBlank s then [c] :: words s
    else attach c (words s)

@[simp] theorem words_nil : words [] = [] := rfl

/-- White space at the start adds no word. -/
theorem words_cons_of_isBlank {c : Char} (h : isBlank c) (s : List Char) :
    words (c :: s) = words s := by simp [words, h]

/-! ## Lines -/

/-- The lines of a text, without their ends. -/
def lines : List Char → List (List Char)
  | [] => []
  | '\n' :: s => [] :: lines s
  | '\r' :: '\n' :: s => [] :: lines s
  | c :: s => attach c (lines s)

@[simp] theorem lines_nil : lines [] = [] := by simp [lines]

@[simp] theorem lines_newline (s : List Char) : lines ('\n' :: s) = [] :: lines s := by
  simp [lines]

/-- A line without its end goes on with the text after it. -/
example : lines "a\rb\r\n\nc\r".toList = ["a\rb".toList, [], "c\r".toList] := by decide

end ContractBuild.Text
