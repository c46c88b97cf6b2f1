import ContractBuild.Posix.Text.Chars

/-!
# Differences of texts

Two texts have some lines in common, in the same order; what stands between those are the changes
that lead from one to the other.  As few lines as possible are changed.  Where there is a choice,
two searches that start at both ends meet in the middle, and changes that can be moved over equal
lines go as far down as they can.
-/

namespace ContractBuild.EditScript

/-- Lines of one text in the place of lines of another one. -/
structure Change where
  /-- How many lines of the first text stand before it. -/
  first : Nat
  /-- How many lines of the second text stand before it. -/
  second : Nat
  /-- How many lines of the first text it replaces. -/
  deleted : Nat
  /-- How many lines of the second text it puts there. -/
  inserted : Nat
  deriving DecidableEq, Repr

/-! ## Searching from both ends -/

/-- A part of both texts. -/
structure Window where
  /-- Where it starts in the first text. -/
  left : Int
  /-- Where it ends in the first text. -/
  right : Int
  /-- Where it starts in the second text. -/
  top : Int
  /-- Where it ends in the second text. -/
  bottom : Int

namespace Window

/-- The least diagonal. -/
def least (w : Window) : Int := w.left - w.bottom

/-- The greatest diagonal. -/
def greatest (w : Window) : Int := w.right - w.top

/-- How many lines there are. -/
def size (w : Window) : Nat := (w.right - w.left + (w.bottom - w.top)).toNat

/-- Where equal lines on a diagonal end, from a place in the first text on.  Every step takes a
line. -/
def slideDown (same : Int → Int → Bool) (w : Window) (d : Int) : Nat → Int → Int
  | 0, x => x
  | n + 1, x =>
    if x < w.right && x - d < w.bottom && same x (x - d) then slideDown same w d n (x + 1) else x

/-- Where equal lines on a diagonal start, from a place in the first text back.  Every step takes a
line. -/
def slideUp (same : Int → Int → Bool) (w : Window) (d : Int) : Nat → Int → Int
  | 0, x => x
  | n + 1, x =>
    if w.left < x && w.top < x - d && same (x - 1) (x - d - 1) then slideUp same w d n (x - 1)
    else x

end Window

/-- How far a search has come on every diagonal. -/
structure Frontier where
  /-- The least diagonal that it has reached. -/
  least : Int
  /-- The greatest diagonal that it has reached. -/
  greatest : Int
  /-- What is added to a diagonal to find its place. -/
  base : Int
  /-- The places in the first text, one for each diagonal. -/
  places : Array Int

namespace Frontier

/-- A search that starts on a diagonal. -/
def start (w : Window) (d x : Int) : Frontier :=
  let base := 1 - w.least
  let places := Array.replicate ((w.greatest - w.least) + 3).toNat (0 : Int)
  ⟨d, d, base, places.setIfInBounds (d + base).toNat x⟩

/-- The place on a diagonal. -/
def reach (f : Frontier) (d : Int) : Int := f.places.getD (d + f.base).toNat 0

/-- The search with another place on a diagonal. -/
def put (f : Frontier) (d x : Int) : Frontier :=
  { f with places := f.places.setIfInBounds (d + f.base).toNat x }

/-- The search with one more diagonal at each side where there is one; `outside` is a place that
loses against all others. -/
def widen (w : Window) (outside : Int) (f : Frontier) : Frontier :=
  let f := if w.least < f.least then { f.put (f.least - 2) outside with least := f.least - 1 }
    else { f with least := f.least + 1 }
  if f.greatest < w.greatest then
    { f.put (f.greatest + 2) outside with greatest := f.greatest + 1 }
  else { f with greatest := f.greatest - 1 }

/-- The diagonals of one turn, the greatest one first. -/
def diagonals (f : Frontier) : List Int :=
  (List.range ((f.greatest - f.least) / 2 + 1).toNat).map fun (i : Nat) ↦ f.greatest - 2 * (i : Int)

/-- Whether a search has come to a diagonal. -/
def covers (f : Frontier) (d : Int) : Bool := f.least ≤ d && d ≤ f.greatest

end Frontier

/-- One more change from the start on a diagonal; the error is where the searches meet. -/
def stepDown (same : Int → Int → Bool) (w : Window) (isMeeting : Bool) (behind : Frontier)
    (f : Frontier) (d : Int) : Except (Int × Int) Frontier :=
  let low := f.reach (d - 1)
  let high := f.reach (d + 1)
  let x := w.slideDown same d w.size (if low < high then high else low + 1)
  if isMeeting && behind.covers d && behind.reach d ≤ x then .error (x, x - d)
  else .ok (f.put d x)

/-- One more change from the end on a diagonal; the error is where the searches meet. -/
def stepUp (same : Int → Int → Bool) (w : Window) (isMeeting : Bool) (before : Frontier)
    (f : Frontier) (d : Int) : Except (Int × Int) Frontier :=
  let low := f.reach (d - 1)
  let high := f.reach (d + 1)
  let x := w.slideUp same d w.size (if low < high then low else high - 1)
  if isMeeting && before.covers d && x ≤ before.reach d then .error (x, x - d)
  else .ok (f.put d x)

/-- Where the searches meet.  Every turn takes one change more. -/
def meet (same : Int → Int → Bool) (w : Window) (isOdd : Bool) :
    Nat → Frontier → Frontier → Except (Int × Int) Unit
  | 0, _, _ => .ok ()
  | n + 1, down, up => do
    let down := down.widen w (-1)
    let down ← down.diagonals.foldlM (stepDown same w isOdd up) down
    let up := up.widen w (w.right + w.bottom + 1)
    let up ← up.diagonals.foldlM (stepUp same w (!isOdd) down) up
    meet same w isOdd n down up

/-- A point on a shortest way through a window. -/
def middle (same : Int → Int → Bool) (w : Window) : Int × Int :=
  let first := w.left - w.top
  let last := w.right - w.bottom
  match meet same w ((first - last) % 2 = 1) (w.size + 1) (.start w first w.left)
      (.start w last w.right) with
  | .error point => point
  | .ok () => (w.left, w.top)

/-- The lines that are changed, as truth values. -/
structure Marks where
  /-- Those of the first text. -/
  first : Array Bool
  /-- Those of the second text. -/
  second : Array Bool

/-- Marks some lines. -/
def markRange (marks : Array Bool) (start stop : Int) : Array Bool :=
  (List.range (stop - start).toNat).foldl (fun a i ↦ a.setIfInBounds (start.toNat + i) true) marks

/-- Marks the changed lines of a window.  Every step goes to a smaller window. -/
def markWindow (same : Int → Int → Bool) : Nat → Window → Marks → Marks
  | 0, _, m => m
  | n + 1, w, m =>
    let x := w.slideDown same (w.left - w.top) w.size w.left
    let w := { w with left := x, top := x - (w.left - w.top) }
    let x := w.slideUp same (w.right - w.bottom) w.size w.right
    let w := { w with right := x, bottom := x - (w.right - w.bottom) }
    if w.left = w.right then { m with second := markRange m.second w.top w.bottom }
    else if w.top = w.bottom then { m with first := markRange m.first w.left w.right }
    else
      let (x, y) := middle same w
      let m := markWindow same n { w with right := x, bottom := y } m
      markWindow same n { w with left := x, top := y } m

/-- The changed lines of two texts. -/
def marks (as bs : Array Chars) : Marks :=
  let same := fun (i j : Int) ↦ as.getD i.toNat [] == bs.getD j.toNat []
  markWindow same (as.size + bs.size + 1) ⟨0, as.size, 0, bs.size⟩
    ⟨Array.replicate as.size false, Array.replicate bs.size false⟩

/-- The changed lines of two texts, where lines that are in one of them only are not searched. -/
def marksOfShared (as bs : Array Chars) : Marks :=
  let shared := fun (xs ys : Array Chars) ↦
    (List.range xs.size).filter fun i ↦ ys.contains (xs.getD i [])
  let (is, js) := (shared as bs, shared bs as)
  let m := marks (is.map fun i ↦ as.getD i []).toArray (js.map fun j ↦ bs.getD j []).toArray
  let spread := fun (size : Nat) (places : List Nat) (found : Array Bool) ↦
    (places.zip found.toList).foldl (fun a e ↦ a.setIfInBounds e.1 e.2) (Array.replicate size true)
  ⟨spread as.size is m.first, spread bs.size js m.second⟩

/-! ## Moving changes -/

/-- The first line of a run of marked lines that ends before a line. -/
def runStart (marks : Array Bool) : Nat → Nat
  | 0 => 0
  | i + 1 => if marks.getD i false then runStart marks i else i + 1

/-- The first line that is not marked, from a line on.  Every step takes a line. -/
def nextFree (marks : Array Bool) : Nat → Nat → Nat
  | 0, i => i
  | n + 1, i => if marks.getD i false then nextFree marks n (i + 1) else i

/-- The first line that is not marked, from a line on. -/
def freeFrom (marks : Array Bool) (i : Nat) : Nat := nextFree marks marks.size i

/-- The last line that is not marked before a line. -/
def lastFree (marks : Array Bool) : Nat → Nat
  | 0 => 0
  | i + 1 => if marks.getD i false then lastFree marks i else i

/-- A run of marked lines that is being moved. -/
structure Run where
  /-- All marks of its text. -/
  marks : Array Bool
  /-- Where it starts. -/
  start : Nat
  /-- Where it ends. -/
  stop : Nat
  /-- Where the other text stands then. -/
  other : Nat
  /-- The last end at which the other text is changed too, if there is one. -/
  shared : Option Nat

namespace Run

/-- The run one line before. -/
def moveBack (others : Array Bool) (r : Run) : Run :=
  { r with
    marks := (r.marks.setIfInBounds (r.start - 1) true).setIfInBounds (r.stop - 1) false
    start := r.start - 1
    stop := r.stop - 1
    other := lastFree others r.other }

/-- The run as far back as it can go, together with those that it meets.  Every step takes a
line. -/
def back (lines : Array Chars) (others : Array Bool) : Nat → Run → Run
  | 0, r => r
  | n + 1, r =>
    if 0 < r.start && lines[r.start - 1]? = lines[r.stop - 1]? then
      let r := r.moveBack others
      back lines others n { r with start := runStart r.marks r.start }
    else r

/-- The run as far on as it can go, together with those that it meets.  Every step takes a line. -/
def on (lines : Array Chars) (others : Array Bool) : Nat → Run → Run
  | 0, r => r
  | n + 1, r =>
    if r.stop < lines.size && lines[r.start]? = lines[r.stop]? then
      let marks := (r.marks.setIfInBounds r.start false).setIfInBounds r.stop true
      let stop := freeFrom marks (r.stop + 1)
      let isShared := others.getD (r.other + 1) false
      on lines others n ⟨marks, r.start + 1, stop, freeFrom others (r.other + 1),
        if isShared then some stop else r.shared⟩
    else r

/-- The run as far on as it can go when it grows no more.  Every turn makes it longer. -/
def settle (lines : Array Chars) (others : Array Bool) : Nat → Run → Run
  | 0, r => r
  | n + 1, r =>
    let length := r.stop - r.start
    let r := r.back lines others lines.size
    let isShared := 0 < r.other && others.getD (r.other - 1) false
    let r := { r with shared := if isShared then some r.stop else none }
    let r := r.on lines others lines.size
    if r.stop - r.start = length then r else settle lines others n r

/-- The run back at an end.  Every step takes a line. -/
def backTo (others : Array Bool) (stop : Nat) : Nat → Run → Run
  | 0, r => r
  | n + 1, r => if stop < r.stop then backTo others stop n (r.moveBack others) else r

end Run

/-- Moves the changes of a text from a line on; the second number says where the other text stands.
Every step goes on. -/
def shiftFrom (lines : Array Chars) (others : Array Bool) :
    Nat → Array Bool → Nat → Nat → Array Bool
  | 0, marks, _, _ => marks
  | n + 1, marks, i, j =>
    if lines.size ≤ i then marks
    else if !marks.getD i false then shiftFrom lines others n marks (i + 1) (freeFrom others j + 1)
    else
      let r : Run := ⟨marks, i, freeFrom marks (i + 1), freeFrom others j, none⟩
      let r := r.settle lines others (lines.size + 1)
      let r := r.backTo others (r.shared.getD lines.size) lines.size
      shiftFrom lines others n r.marks r.stop r.other

/-- Moves the changes of a text. -/
def shift (lines : Array Chars) (marks others : Array Bool) : Array Bool :=
  shiftFrom lines others ((lines.size + 2) * (lines.size + 2)) marks 0 0

/-! ## Changes -/

/-- The changes that marks say, from places on.  Every step takes a line of one text at least. -/
def changesFrom (m : Marks) : Nat → Nat → Nat → List Change
  | 0, _, _ => []
  | n + 1, i, j =>
    if m.first.size ≤ i && m.second.size ≤ j then []
    else if m.first.getD i false || m.second.getD j false then
      let (k, l) := (freeFrom m.first i, freeFrom m.second j)
      ⟨i, j, k - i, l - j⟩ :: changesFrom m n (k + 1) (l + 1)
    else changesFrom m n (i + 1) (j + 1)

/-- How many lines two texts have in common at their start. -/
def commonStart : List Chars → List Chars → Nat
  | a :: as, b :: bs => if a = b then commonStart as bs + 1 else 0
  | _, _ => 0

/-- The changes from one text to another one.  The first lines are the texts as they are, the second
ones what is compared of them.  Lines at the ends that are the same are left out of the search, but
for so many. -/
def changes (kept : Nat) (as bs akeys bkeys : List Chars) : List Change :=
  let start := commonStart as bs - kept
  let (lefta, leftb) := (as.drop start, bs.drop start)
  let isOpen := fun (ls : List Chars) ↦ ls.getLast?.any fun l ↦ l.getLast? ≠ some '\n'
  let stop := if isOpen as = isOpen bs then commonStart lefta.reverse leftb.reverse - kept else 0
  let inside := fun (count : Nat) (keys : List Chars) ↦
    ((keys.drop start).take (count - start - stop)).toArray
  let (as, bs) := (inside as.length akeys, inside bs.length bkeys)
  let m := marksOfShared as bs
  let first := shift as m.first m.second
  let second := shift bs m.second first
  (changesFrom ⟨first, second⟩ (as.size + bs.size + 1) 0 0).map fun c ↦
    { c with first := c.first + start, second := c.second + start }

/-- A line that is gone, and one that is new. -/
example : changes 0 [['a'], ['b'], ['c']] [['a'], ['c'], ['d']] [['a'], ['b'], ['c']]
    [['a'], ['c'], ['d']] = [⟨1, 1, 1, 0⟩, ⟨3, 2, 0, 1⟩] := by decide +kernel

end ContractBuild.EditScript
