import TwoPass.Source.Name
import TwoPass.Source.Operand

/-!
# Diagnostics and reports

A diagnostic says what is wrong, where, and how to mend it. Its text is a headline with the location,
the source line set in by four columns with a mark under the column at fault, and the hint; parts
that are absent are left out. `Subject` says what the diagnostic is about.

A `Report` gathers the diagnostics and warnings of a run. Its text has every diagnostic, the warnings
and a count of both.
-/

namespace TwoPass

/-- A place in the source. -/
structure Location where
  /-- the name of the source -/
  file : SourceName
  /-- the line number, from one -/
  line : Int
  /-- the column, from one; anything below one stands for the whole line -/
  column : Int
  deriving DecidableEq

namespace Location

/-- File, line and, if there is one, column. -/
def text (l : Location) : Text :=
  let line := l.file.text ++ ':' :: Numeral.decimal l.line
  if 0 < l.column then line ++ ':' :: Numeral.decimal l.column else line

end Location

/-- What a diagnostic is about. -/
inductive Subject where
  /-- nothing in particular -/
  | general
  /-- an operand, given by its text -/
  | operand (text : Text)
  /-- a head token that is no keyword -/
  | instruction (token : Text)
  /-- a source file that cannot be read, and why -/
  | sourceFile (file reason : Text)
  deriving DecidableEq

/-- A report of one thing that is wrong. -/
structure Diagnostic where
  /-- what it is about -/
  subject : Subject
  /-- the description -/
  message : Text
  /-- where it arose -/
  location : Option Location
  /-- advice -/
  hint : Option Text
  /-- the trimmed source line -/
  sourceLine : Option Text
  deriving DecidableEq

namespace Diagnostic

/-! ## The diagnostics of the assembler -/

/-- A refused operand, without a place. -/
def ofFault (fault : Operand.Fault) : Diagnostic where
  subject := .operand fault.operand
  message := fault.message
  location := none
  hint := fault.hint
  sourceLine := none

/-- A refused operand of a source line. -/
def rejectedOperand (file : SourceName) (line : Nat) (source : Text) (fault : Operand.Fault) :
    Diagnostic where
  subject := .operand fault.operand
  message := "error processing line: ".toList ++ fault.message
  location := some ⟨file, line, 0⟩
  hint := fault.hint
  sourceLine := some source

/-- A head token that is no keyword. -/
def unknownInstruction (token : Text) (location : Option Location) (sourceLine : Option Text) :
    Diagnostic where
  subject := .instruction token
  message := "unknown instruction '".toList ++ token ++ "'".toList
  location := location
  hint := some "supported: LDR, LDA, LDX, JZ, HLT, LOC, DATA, End:".toList
  sourceLine := sourceLine

/-- A source file that cannot be read. -/
def unreadableSource (file reason : Text) : Diagnostic where
  subject := .sourceFile file reason
  message := "cannot read source file '".toList ++ file ++ "': ".toList ++ reason
  location := none
  hint := none
  sourceLine := none

/-! ## The text of a diagnostic -/

/-- The first line: location and message. -/
def headline (d : Diagnostic) : Text :=
  match d.location with
  | none => "error: ".toList ++ d.message
  | some l => l.text ++ ": error: ".toList ++ d.message

/-- The mark under the column at fault. -/
def caret (d : Diagnostic) : List Text :=
  match d.location with
  | none => []
  | some l =>
    if 0 < l.column then [List.replicate (3 + l.column.toNat) ' ' ++ ['^']] else []

/-- The source line, set in, and the mark below it. -/
def context (d : Diagnostic) : List Text :=
  match d.sourceLine with
  | none => []
  | some source => ("    ".toList ++ source) :: d.caret

/-- The advice; an empty hint is none. -/
def advice (d : Diagnostic) : List Text :=
  match d.hint with
  | none | some [] => []
  | some hint => ["hint: ".toList ++ hint]

/-- Why the mark cannot be set under its column. -/
inductive CaretFault where
  /-- the column is beyond every index -/
  | beyondIndex
  /-- the blanks before the mark are more than there is memory for -/
  | beyondMemory
  deriving DecidableEq

/-- The report of the refusal. -/
def CaretFault.message : CaretFault → Text
  | beyondIndex => Operand.beyondIndexMessage
  | beyondMemory => []

/-- The least number that is no index, `2 ^ 63`. -/
def indexRange : Int := 9223372036854775808

/-- The least number that is no address, `2 ^ 47`. -/
def memoryRange : Int := 140737488355328

/-- What keeps the mark from being set, if anything does. Indices have 64 bits with their sign, and
addresses have 47. -/
def caretFault? (d : Diagnostic) : Option CaretFault :=
  match d.sourceLine, d.location with
  | some _, some l =>
    if indexRange ≤ l.column + 3 then some .beyondIndex
    else if memoryRange ≤ l.column + 3 then some .beyondMemory
    else none
  | _, _ => none

/-- The whole text. -/
def text (d : Diagnostic) : Text := Text.join ['\n'] (d.headline :: d.context ++ d.advice)

end Diagnostic

/-- The diagnostics and warnings of a run, in the order in which they arose. -/
structure Report where
  /-- the diagnostics -/
  errors : List Diagnostic
  /-- the warnings -/
  warnings : List Text
  deriving DecidableEq

namespace Report

/-- Nothing to report. -/
def empty : Report := ⟨[], []⟩

instance : Inhabited Report := ⟨empty⟩

/-- Add a diagnostic. -/
def addError (r : Report) (d : Diagnostic) : Report := { r with errors := r.errors ++ [d] }

/-- Add a warning. -/
def addWarning (r : Report) (w : Text) : Report := { r with warnings := r.warnings ++ [w] }

/-- Is there a diagnostic? -/
def hasErrors (r : Report) : Bool := !r.errors.isEmpty

/-- Is there anything to show? -/
def isEmpty (r : Report) : Bool := r.errors.isEmpty && r.warnings.isEmpty

/-- A count and its noun. -/
def count (n : Nat) (noun : Text) : Text :=
  Numeral.decimal n ++ ' ' :: noun ++ if n = 1 then [] else ['s']

/-- The last line: how many of each. -/
def summary (r : Report) : Text :=
  count r.errors.length "error".toList ++ ", ".toList ++ count r.warnings.length "warning".toList

/-- Every diagnostic followed by an empty line, the warnings under a heading, and the summary after
an empty line. -/
def text (r : Report) : Text :=
  let errors := r.errors.flatMap fun d => [d.text, []]
  let warnings :=
    if r.warnings.isEmpty then []
    else "Warnings:".toList :: r.warnings.map ("  ".toList ++ ·)
  Text.join ['\n'] (errors ++ warnings ++ ['\n' :: r.summary])

end Report

end TwoPass
