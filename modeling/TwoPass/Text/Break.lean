import TwoPass.Text.Blank

/-!
# Lines

A text is cut into lines at line breaks. Which characters break a line depends on where the text
comes from:

* a text handed over as a whole breaks at every character of `isLineBreak`;
* a file breaks only at line feed and carriage return (`isFileBreak`).

In both cases a carriage return followed by a line feed is one break, and a break at the very end
of the text opens no further line. `cut` keeps the ended lines apart from the unfinished rest, since
a file that cannot be read to its end has delivered only the former.
-/

namespace TwoPass

namespace Text

/-- The characters that end a line of a file. -/
def isFileBreak (c : Char) : Bool := c == '\n' || c == '\r'

/-- The code points that end a line of a text given as a whole. -/
def lineBreakRanges : List (Nat × Nat) :=
  [(0x000A, 0x000D), (0x001C, 0x001E), (0x0085, 0x0085), (0x2028, 0x2029)]

/-- The characters that end a line of a text given as a whole. -/
def isLineBreak (c : Char) : Bool := inRanges lineBreakRanges c

/-- The ended lines of a text, without their breaks, and what follows the last break. A carriage
return and a line feed after it end one line together. -/
def cut (isBreak : Char → Bool) : Text → List Text × Text
  | [] => ([], [])
  | '\r' :: '\n' :: rest =>
    let (lines, last) := cut isBreak rest
    ([] :: lines, last)
  | c :: rest =>
    let (lines, last) := cut isBreak rest
    if isBreak c then ([] :: lines, last)
    else
      match lines with
      | [] => ([], c :: last)
      | line :: lines => ((c :: line) :: lines, last)

/-- All lines of a text; what follows the last break is a line unless it is empty. -/
def lines (isBreak : Char → Bool) (t : Text) : List Text :=
  let (ended, last) := cut isBreak t
  if last.isEmpty then ended else ended ++ [last]

/-- The lines of a text given as a whole. -/
def textLines (t : Text) : List Text := lines isLineBreak t

/-- The lines of a file's text. -/
def fileLines (t : Text) : List Text := lines isFileBreak t

/-- The lines a file has delivered when reading stops in the middle of a character. A carriage
return at the end is held back, since a line feed may follow it. -/
def deliveredLines (t : Text) : List Text :=
  (cut isFileBreak (if t.getLast? = some '\r' then t.dropLast else t)).1

/-- A character that ends a line of a file ends a line anywhere. -/
theorem isLineBreak_of_isFileBreak {c : Char} (h : isFileBreak c = true) :
    isLineBreak c = true := by
  simp only [isFileBreak, Bool.or_eq_true, beq_iff_eq] at h
  rcases h with rfl | rfl <;> decide

end Text

end TwoPass
