/-!
# Text, blanks and separators

Everything the assembler reads or writes is a sequence of Unicode scalar values, kept as a list so
that a scan is a structural recursion and its laws are laws about lists.

* `isBlank` is the class of characters that separate words and that trimming removes. It is wider
  than the class known to `Char.isWhitespace`: it has the control separators, the no-break space and
  the typographic spaces.
* `trim` removes blanks at both ends.
* `splitOn` cuts a text at every occurrence of one separator; nothing but the separators is lost
  (`join_splitOn`).
-/

namespace TwoPass

/-- A text: a sequence of Unicode scalar values. -/
abbrev Text : Type := List Char

namespace Text

/-! ## Character classes as ranges -/

/-- Membership of a character in a class given by inclusive ranges of code points. -/
def inRanges (ranges : List (Nat × Nat)) (c : Char) : Bool :=
  ranges.any fun r => r.1 ≤ c.toNat && c.toNat ≤ r.2

/-- The code points of the blank characters. -/
def blankRanges : List (Nat × Nat) :=
  [(0x0009, 0x000D), (0x001C, 0x0020), (0x0085, 0x0085), (0x00A0, 0x00A0), (0x1680, 0x1680),
   (0x2000, 0x200A), (0x2028, 0x2029), (0x202F, 0x202F), (0x205F, 0x205F), (0x3000, 0x3000)]

/-- Is the character a blank: one that separates words and is trimmed away? -/
def isBlank (c : Char) : Bool := inRanges blankRanges c

/-! ## Trimming -/

/-- The text without its leading blanks. -/
def trimStart (t : Text) : Text := t.dropWhile isBlank

/-- The text without its trailing blanks. -/
def trimEnd (t : Text) : Text := (t.reverse.dropWhile isBlank).reverse

/-- The text without blanks at either end. -/
def trim (t : Text) : Text := trimEnd (trimStart t)

@[simp] theorem trimStart_nil : trimStart [] = [] := rfl

@[simp] theorem trimEnd_nil : trimEnd [] = [] := rfl

@[simp] theorem trim_nil : trim [] = [] := rfl

/-! ## Words -/

/-- The leading run of characters that are not blank. -/
def word (t : Text) : Text := t.takeWhile fun c => !isBlank c

/-- What follows the leading word, the blanks between them removed. -/
def afterWord (t : Text) : Text := trimStart (t.dropWhile fun c => !isBlank c)

/-! ## Separators -/

/-- Cut at every occurrence of the separator. A text without one is a single piece. -/
def splitOn (separator : Char) : Text → List Text
  | [] => [[]]
  | c :: rest =>
    if c = separator then [] :: splitOn separator rest
    else
      match splitOn separator rest with
      | [] => [[c]]
      | piece :: pieces => (c :: piece) :: pieces

/-- Write the pieces one after the other with the separator between them. -/
def join (separator : Text) : List Text → Text
  | [] => []
  | [piece] => piece
  | piece :: next :: pieces => piece ++ separator ++ join separator (next :: pieces)

theorem splitOn_ne_nil (separator : Char) (t : Text) : splitOn separator t ≠ [] := by
  cases t with
  | nil => simp [splitOn]
  | cons c rest =>
    rw [splitOn]
    split
    · simp
    · split <;> simp

/-- Putting the separator back between the pieces gives the text again. -/
theorem join_splitOn (separator : Char) (t : Text) :
    join [separator] (splitOn separator t) = t := by
  induction t with
  | nil => rfl
  | cons c rest ih =>
    rw [splitOn]
    split
    · next h =>
      subst h
      cases hs : splitOn c rest with
      | nil => exact absurd hs (splitOn_ne_nil c rest)
      | cons piece pieces => rw [hs] at ih; simp [join, ih]
    · cases hs : splitOn separator rest with
      | nil => exact absurd hs (splitOn_ne_nil separator rest)
      | cons piece pieces =>
        rw [hs] at ih
        cases pieces with
        | nil => simpa [join] using ih
        | cons next more => simpa [join] using ih

end Text

end TwoPass
