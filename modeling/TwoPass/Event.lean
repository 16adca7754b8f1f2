import TwoPass.Numeral
import TwoPass.Source.Name
import TwoPass.Word

/-!
# Events

What the assembler does is recorded as events. Each has a level and a message; the record of an event
is both on one line. The passes return the events of a run in order, and it is for the caller to show
or to drop them.
-/

namespace TwoPass

/-- How important an event is. -/
inductive Level where
  /-- a detail -/
  | debug
  /-- a milestone -/
  | info
  deriving DecidableEq

/-- The name of a level. -/
def Level.name : Level → Text
  | .debug => "DEBUG".toList
  | .info => "INFO".toList

/-- Something that happened during a run. -/
inductive Event where
  /-- a label was bound to another address than before -/
  | redefined (name : Text) (old new : Int)
  /-- the first pass left a statement out, for the given reason -/
  | skipped (file : SourceName) (line : Nat) (source reason : Text)
  /-- the first pass is done -/
  | surveyed (symbols : Nat) (counter : Int)
  /-- the second pass emitted a word -/
  | emitted (file : SourceName) (word : Word)
  /-- the second pass recorded a diagnostic -/
  | recorded (message : Text)
  /-- the second pass is done -/
  | generated (words errors : Nat)
  /-- a text is about to be assembled -/
  | assemblingText (file : SourceName) (lines : Nat)
  /-- a file is about to be assembled -/
  | assemblingFile (path : Text)
  /-- the listing was written -/
  | wroteListing (path : Text)
  /-- the load file was written -/
  | wroteLoad (path : Text)
  /-- the symbol file was written -/
  | wroteSymbols (path : Text)
  deriving DecidableEq

namespace Event

/-- The level of an event. -/
def level : Event → Level
  | redefined .. | skipped .. | emitted .. | recorded _ => .debug
  | surveyed .. | generated .. | assemblingText .. | assemblingFile _ | wroteListing _
  | wroteLoad _ | wroteSymbols _ => .info

/-- The message of an event. -/
def message : Event → Text
  | redefined name old new =>
    "Label '".toList ++ name ++ "' redefined: ".toList ++ Numeral.decimal old ++ " -> ".toList ++
      Numeral.decimal new
  | skipped file line source reason =>
    file.text ++ ':' :: Numeral.decimal line ++ ": pass 1 skipped '".toList ++ source ++
      "': ".toList ++ reason
  | surveyed symbols counter =>
    "Pass 1 complete: ".toList ++ Numeral.decimal symbols ++ " symbols, counter at ".toList ++
      Numeral.decimal counter
  | emitted file word =>
    file.text ++ ':' :: Numeral.decimal word.line ++ ": ".toList ++ word.loadText ++ "  ".toList ++
      word.source
  | recorded message => "Recorded: ".toList ++ message
  | generated words errors =>
    "Pass 2 complete: ".toList ++ Numeral.decimal words ++ " words, ".toList ++
      Numeral.decimal errors ++ " errors".toList
  | assemblingText file lines =>
    "Assembling ".toList ++ file.text ++ " (".toList ++ Numeral.decimal lines ++ " lines)".toList
  | assemblingFile path => "Assembling ".toList ++ path
  | wroteListing path => "Wrote listing to ".toList ++ path
  | wroteLoad path => "Wrote load file to ".toList ++ path
  | wroteSymbols path => "Wrote symbols to ".toList ++ path

/-- Level and message on one line. -/
def record (e : Event) : Text := e.level.name ++ ": ".toList ++ e.message

end Event

end TwoPass
