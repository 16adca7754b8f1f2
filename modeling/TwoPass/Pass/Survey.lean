import TwoPass.Event
import TwoPass.Machine.Keyword
import TwoPass.Source.Operand
import TwoPass.Symbol

/-!
# The first pass

The first pass finds out where the labels stand. Of each line it needs only a `Sketch`: the label, if
there is one, and how the statement moves the location counter. A sketch is a function of the line
alone, so the counter never depends on the symbol table.

The pass is permissive. A statement it does not know leaves the counter where it is, and so does an
origin directive whose operand is refused; the second pass reports both. The end marker is a label
like any other here, and what follows it moves the counter.
-/

namespace TwoPass

/-! ## What a line does to the counter -/

/-- How a statement moves the location counter. -/
inductive Move where
  /-- not at all -/
  | stay
  /-- past one word -/
  | advance
  /-- to an address -/
  | jump (address : Int)
  /-- not at all, because the operand is refused -/
  | refused (fault : Operand.Fault)
  deriving DecidableEq

namespace Move

/-- The move of a statement. -/
def ofStatement (s : Statement) : Move :=
  match Keyword.ofToken? s.head with
  | some .origin =>
    match Operand.parse ((s.tail.bind Line.firstToken?).getD []) with
    | .ok address => jump address
    | .error fault => refused fault
  | some keyword => if keyword.allocates then advance else stay
  | none => stay

/-- The counter after the move. -/
def apply (counter : LocationCounter) : Move → LocationCounter
  | stay | refused _ => counter
  | advance => counter.advance
  | jump address => ⟨address⟩

end Move

/-- What the first pass reads off a line. -/
structure Sketch where
  /-- the label on the line -/
  label : Option Text
  /-- the move of its statement -/
  move : Move
  deriving DecidableEq

/-- The sketch of a trimmed line. -/
def Sketch.ofLine (line : Text) : Sketch :=
  if Line.isInert line then ⟨none, .stay⟩
  else
    let parts := Line.peel line
    ⟨parts.label, ((parts.rest.bind Statement.ofText?).map Move.ofStatement).getD .stay⟩

/-! ## The walk over the lines -/

/-- The state of the first pass. -/
structure Survey where
  /-- the labels bound so far -/
  symbols : SymbolTable
  /-- the address of the next word -/
  counter : LocationCounter
  /-- what has happened -/
  events : List Event
  deriving DecidableEq

namespace Survey

/-- The state at the first line, over a table that may hold symbols already. -/
def start (symbols : SymbolTable) : Survey := ⟨symbols, .start, []⟩

/-- Bind a label to the counter. -/
def bindLabel (s : Survey) : Option Text → Survey
  | none => s
  | some label =>
    let (symbols, noted) := s.symbols.defineNoting label s.counter.value
    { s with symbols := symbols, events := s.events ++ noted }

/-- Move the counter; a refused operand is noted. -/
def applyMove (s : Survey) (file : SourceName) (number : Nat) (line : Text) (move : Move) : Survey :=
  let noted :=
    match move with
    | .refused fault => [Event.skipped file number line fault.message]
    | _ => []
  { s with counter := move.apply s.counter, events := s.events ++ noted }

/-- Take in one line: its label is bound to the counter before the statement moves it. -/
def step (s : Survey) (file : SourceName) (number : Nat) (raw : Text) : Survey :=
  let line := Text.trim raw
  let sketch := Sketch.ofLine line
  (s.bindLabel sketch.label).applyMove file number line sketch.move

/-- Take in lines, the first of which has the given number. -/
def walk (file : SourceName) : Nat → List Text → Survey → Survey
  | _, [], s => s
  | number, raw :: rest, s => walk file (number + 1) rest (s.step file number raw)

/-- Note that the pass is done. -/
def close (s : Survey) : Survey :=
  { s with events := s.events ++ [.surveyed s.symbols.size s.counter.value] }

/-- The whole pass over a table. -/
def run (symbols : SymbolTable) (file : SourceName) (lines : List Text) : Survey :=
  (walk file 1 lines (start symbols)).close

/-! ### The counter ignores the table -/

theorem counter_step (s : Survey) (file : SourceName) (number : Nat) (raw : Text) :
    (s.step file number raw).counter = (Sketch.ofLine (Text.trim raw)).move.apply s.counter := by
  simp only [step, applyMove]
  cases (Sketch.ofLine (Text.trim raw)).label <;> rfl

theorem counter_walk_congr (file file' : SourceName) (lines : List Text) (number number' : Nat)
    {s s' : Survey} (h : s.counter = s'.counter) :
    (walk file number lines s).counter = (walk file' number' lines s').counter := by
  induction lines generalizing number number' s s' with
  | nil => exact h
  | cons raw rest ih => exact ih _ _ (by rw [counter_step, counter_step, h])

theorem walk_append (file : SourceName) (number : Nat) (before after : List Text) (s : Survey) :
    walk file number (before ++ after) s =
      walk file (number + before.length) after (walk file number before s) := by
  induction before generalizing number s with
  | nil => rfl
  | cons raw rest ih =>
    rw [List.cons_append, walk, walk, ih, List.length_cons]
    congr 1
    omega

end Survey

end TwoPass
