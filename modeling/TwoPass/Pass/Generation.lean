import TwoPass.Diagnostic
import TwoPass.Event
import TwoPass.Machine.Encode
import TwoPass.Symbol

/-!
# The second pass

The second pass emits the words. It treats each line in exactly one way, its `Treatment`:

* `listed`: the line goes to the listing as it is, perhaps with a warning;
* `moved`: an origin directive sets the location counter and is listed behind a space;
* `emitted`: a word goes to the listing and to the load file, and the counter moves past it or not;
* `rejected`: a diagnostic is recorded and nothing else happens.

A treatment depends on the line, its number and the symbol table, not on what came before. The end
marker is recognised before labels are, and emits a zero word without moving the counter. A statement
behind a label is not encoded, except that an origin directive still moves the counter.

The pass can write listing and load lines to open streams as it goes. A stream is the list of texts
written to it so far.
-/

namespace TwoPass

/-! ## How a line is treated -/

/-- What the second pass does with a line. -/
inductive Treatment where
  /-- list the line, with a warning or without -/
  | listed (warning : Option Text)
  /-- set the counter -/
  | moved (address : Int)
  /-- emit a word; the counter moves past it or stays -/
  | emitted (value : Int) (advances : Bool)
  /-- record a diagnostic -/
  | rejected (diagnostic : Diagnostic)
  deriving DecidableEq

namespace Treatment

/-- The address an origin directive names: the first token of its tail. -/
def originAddress : Option Text → Except Operand.Fault Int
  | none => .error .missingAddress
  | some tail => Operand.parse ((Line.firstToken? tail).getD [])

/-- The first token of a data directive's operand, its comment removed. -/
def dataToken (tail : Option Text) : Text :=
  (Line.firstToken? (Line.stripComment (tail.getD []))).getD []

/-- The value of a data directive: the address of a bound name, else a decimal operand. -/
def dataValue (symbols : SymbolTable) (tail : Option Text) : Except Operand.Fault Int :=
  match symbols.resolve? (dataToken tail) with
  | some address => .ok address
  | none => Operand.parse (dataToken tail)

/-- The treatment of a statement headed by a keyword. -/
def ofKeyword (symbols : SymbolTable) (tail : Option Text) :
    Keyword → Except Operand.Fault Treatment
  | .origin => (originAddress tail).map moved
  | .data => (dataValue symbols tail).map (emitted · true)
  | .finish => .ok (emitted 0 false)
  | .instruction m => (m.encode (tail.getD [])).map (emitted · true)

/-- A refused operand becomes a diagnostic of the line. -/
def orReject (file : SourceName) (number : Nat) (line : Text) :
    Except Operand.Fault Treatment → Treatment
  | .ok treatment => treatment
  | .error fault => rejected (.rejectedOperand file number line fault)

/-- The warning that a statement behind a label is not encoded. -/
def behindLabel (file : SourceName) (number : Nat) (head label : Text) : Text :=
  file.text ++ ':' :: Numeral.decimal number ++ ": '".toList ++ head ++ "' after label '".toList ++
    label ++ "' is not encoded; put the label on its own line".toList

/-- The treatment of a line that starts with a label. -/
def ofLabelled (file : SourceName) (number : Nat) (line label : Text) (rest : Option Text) :
    Treatment :=
  match rest.bind Statement.ofText? with
  | none => listed none
  | some s =>
    match Keyword.ofToken? s.head with
    | none => listed none
    | some .origin => orReject file number line ((originAddress s.tail).map moved)
    | some _ => listed (some (behindLabel file number s.head label))

/-- The treatment of a trimmed line. -/
def ofLine (symbols : SymbolTable) (file : SourceName) (number : Nat) (line : Text) : Treatment :=
  if Line.isInert line then listed none
  else
    match Statement.ofText? line with
    | none => listed none
    | some s =>
      if Keyword.ofToken? s.head = some .finish then emitted 0 false
      else if s.isLabel then ofLabelled file number line s.head.dropLast s.tail
      else
        match Keyword.ofToken? s.head with
        | none => rejected (.unknownInstruction s.head (some ⟨file, number, 1⟩) (some line))
        | some keyword => orReject file number line (ofKeyword symbols s.tail keyword)

end Treatment

/-! ## The walk over the lines -/

/-- What a run of the second pass has produced. -/
structure Output where
  /-- the emitted words -/
  words : List Word
  /-- the lines of the listing -/
  listing : List Text
  /-- the lines of the load file -/
  load : List Text
  deriving DecidableEq

namespace Output

/-- Nothing produced. -/
def empty : Output := ⟨[], [], []⟩

instance : Inhabited Output := ⟨empty⟩

/-- The text of the listing. -/
def listingText (o : Output) : Text := endLines o.listing

/-- The text of the load file. -/
def loadText (o : Output) : Text := endLines o.load

end Output

/-- The state of the second pass. -/
structure Generation where
  /-- the address of the next word -/
  counter : LocationCounter
  /-- what has been produced -/
  output : Output
  /-- diagnostics and warnings, those from before the pass included -/
  report : Report
  /-- the texts written to the listing stream, if one is open -/
  listingStream : Option (List Text)
  /-- the texts written to the load stream, if one is open -/
  loadStream : Option (List Text)
  /-- what has happened -/
  events : List Event
  deriving DecidableEq

namespace Generation

/-- The state at the first line. The flags say which streams are open. -/
def start (report : Report) (listing load : Bool) : Generation where
  counter := .start
  output := .empty
  report := report
  listingStream := if listing then some [] else none
  loadStream := if load then some [] else none
  events := []

/-- Add a line to the listing and write it to the listing stream. -/
def list (g : Generation) (line : Text) : Generation :=
  { g with
    output := { g.output with listing := g.output.listing ++ [line] }
    listingStream := g.listingStream.map (· ++ [line ++ ['\n']]) }

/-- Add a line to the load file and write it to the load stream. -/
def loadLine (g : Generation) (line : Text) : Generation :=
  { g with
    output := { g.output with load := g.output.load ++ [line] }
    loadStream := g.loadStream.map (· ++ [line ++ ['\n']]) }

/-- Emit a word. -/
def emit (g : Generation) (file : SourceName) (word : Word) : Generation :=
  let g := { g with output := { g.output with words := g.output.words ++ [word] } }
  let g := (g.list word.listingText).loadLine word.loadText
  { g with events := g.events ++ [.emitted file word] }

/-- Treat a trimmed line. -/
def apply (g : Generation) (file : SourceName) (number : Nat) (line : Text) : Treatment → Generation
  | .listed none => g.list line
  | .listed (some warning) =>
    let g := g.list line
    { g with report := g.report.addWarning warning }
  | .moved address => { g.list (' ' :: line) with counter := ⟨address⟩ }
  | .emitted value advances =>
    let g := g.emit file ⟨g.counter.value, value, line, number⟩
    if advances then { g with counter := g.counter.advance } else g
  | .rejected diagnostic =>
    { g with
      report := g.report.addError diagnostic
      events := g.events ++ [.recorded diagnostic.message] }

/-- Take in one line. -/
def step (g : Generation) (symbols : SymbolTable) (file : SourceName) (number : Nat) (raw : Text) :
    Generation :=
  let line := Text.trim raw
  g.apply file number line (Treatment.ofLine symbols file number line)

/-- Take in lines, the first of which has the given number. -/
def walk (symbols : SymbolTable) (file : SourceName) : Nat → List Text → Generation → Generation
  | _, [], g => g
  | number, raw :: rest, g => walk symbols file (number + 1) rest (g.step symbols file number raw)

/-- Note that the pass is done. -/
def close (g : Generation) : Generation :=
  { g with
    events := g.events ++ [.generated g.output.words.length g.report.errors.length] }

/-- The whole pass. -/
def run (symbols : SymbolTable) (file : SourceName) (report : Report) (listing load : Bool)
    (lines : List Text) : Generation :=
  (walk symbols file 1 lines (start report listing load)).close

theorem walk_append (symbols : SymbolTable) (file : SourceName) (number : Nat)
    (before after : List Text) (g : Generation) :
    walk symbols file number (before ++ after) g =
      walk symbols file (number + before.length) after (walk symbols file number before g) := by
  induction before generalizing number g with
  | nil => rfl
  | cons raw rest ih =>
    rw [List.cons_append, walk, walk, ih, List.length_cons]
    congr 1
    omega

end Generation

end TwoPass
