import TwoPass.Text.Blank

/-!
# Source lines

A source line holds at most one statement.

* A semicolon starts a comment that runs to the end of the line.
* A statement is a head token and, after a run of blanks, its tail.
* A head token that ends in a colon is a label; what follows it is the rest of the line.

Each reading is a function of the text alone. `Statement.ofText?` is the primitive one, and the
label, the rest and the first token are read off its result.
-/

namespace TwoPass

/-- A head token and what follows it. -/
structure Statement where
  /-- the leading token -/
  head : Text
  /-- what follows the blanks after the head, if anything does -/
  tail : Option Text
  deriving DecidableEq

namespace Statement

/-- Take the trimmed text apart after its first token; a text of blanks holds no statement. -/
def ofText? (t : Text) : Option Statement :=
  match Text.trim t with
  | [] => none
  | c :: cs =>
    let rest := Text.afterWord (c :: cs)
    some ⟨Text.word (c :: cs), if rest.isEmpty then none else some rest⟩

/-- Is the head a label? -/
def isLabel (s : Statement) : Bool := s.head.getLast? == some ':'

end Statement

/-- A line with its label taken off. -/
structure Labelled where
  /-- the label without its colon -/
  label : Option Text
  /-- the remaining statement text -/
  rest : Option Text
  deriving DecidableEq

namespace Line

/-- Is there nothing on the line but blanks and a comment? -/
def isInert (t : Text) : Bool :=
  match Text.trim t with
  | [] => true
  | c :: _ => c == ';'

/-- The text before the first semicolon, trimmed. -/
def stripComment (t : Text) : Text := Text.trim (t.takeWhile (· != ';'))

/-- The first token, if the text has one. -/
def firstToken? (t : Text) : Option Text := (Statement.ofText? t).map Statement.head

/-- Does the line start with a label? -/
def startsWithLabel (t : Text) : Bool := (Statement.ofText? t).any Statement.isLabel

/-- Take a leading label off. Without a label the rest is the whole line as it is; a line of blanks
has neither. -/
def peel (t : Text) : Labelled :=
  match Statement.ofText? t with
  | none => ⟨none, none⟩
  | some s => if s.isLabel then ⟨some s.head.dropLast, s.tail⟩ else ⟨none, some t⟩

end Line

end TwoPass
