import TwoPass.Proofs.Arithmetic

/-!
# The assembler over machine words

The same assembler can be built over any `Arithmetic`. It reads lines as the program does, by
`Sketch.ofLine` in the first pass and by `Reading.ofLine` in the second, but its counters, the
addresses in its table, the operand values and the words are numbers of the arithmetic, and
`Arithmetic.assemble` gives what such an assembler writes.

Over a faithful arithmetic it writes what the program writes. The argument is a commuting square for
each pass: seen through `Arithmetic.ofInt`, a state of the program is a state of the other assembler
(`Survey.seenIn`, `Generation.seenIn`), and a step of the one is a step of the other. It goes through
because neither state has anything that depends on comparing two numbers: what a line does depends on
its text and on which names are bound, and numbers are only carried along and written. (The first pass
of the program does compare addresses, to note a redefinition; that is an event, and no state or file
shows it.)

So an assembler with words of 32 bits that wrap around writes the same load file, listing and symbol
file as the program with its integers of any size (`Arithmetic.wrapping_refines`).
-/

namespace TwoPass

namespace Arithmetic

/-! ## Tables -/

/-- Label names with their addresses, in order of first binding. -/
abbrev Table (W : Type) : Type := List (Text × W)

namespace Table

variable {W : Type}

/-- Replace the address of a name where it is bound, and append it where it is not. -/
def bind (name : Text) (address : W) : Table W → Table W
  | [] => [(name, address)]
  | entry :: entries =>
    if entry.1 = name then (name, address) :: entries else entry :: bind name address entries

/-- The address bound to a name. -/
def resolve? (t : Table W) (name : Text) : Option W :=
  (t.find? fun entry => entry.1 == name).map Prod.snd

end Table

/-! ## The first pass -/

/-- The state of the first pass. -/
structure First (W : Type) where
  /-- the labels bound so far -/
  table : Table W
  /-- the address of the next word -/
  counter : W

/-- What the second pass does with a line. -/
inductive Action (W : Type) where
  /-- list the line, with a warning or without -/
  | listed (warning : Option Text)
  /-- set the counter -/
  | moved (address : W)
  /-- emit a word; the counter moves past it or stays -/
  | emitted (value : W) (advances : Bool)
  /-- record a diagnostic -/
  | rejected (diagnostic : Diagnostic)

/-- The state of the second pass. -/
structure Second (W : Type) where
  /-- the address of the next word -/
  counter : W
  /-- the lines of the listing -/
  listing : List Text
  /-- the lines of the load file -/
  load : List Text
  /-- diagnostics and warnings -/
  report : Report

/-- What an assembler writes about a source. -/
structure Product where
  /-- the load file -/
  load : Text
  /-- the listing -/
  listing : Text
  /-- the symbol file -/
  symbols : Text
  /-- the diagnostics and warnings -/
  report : Report
  deriving DecidableEq

section Assembler

variable {W : Type} (A : Arithmetic W)

/-- The counter behind a statement. -/
def move (counter : W) : Move → W
  | .stay | .refused _ => counter
  | .advance => A.next counter
  | .jump address => A.ofInt address

/-- Take in one line in the first pass. -/
def survey (s : First W) (raw : Text) : First W :=
  let sketch := Sketch.ofLine (Text.trim raw)
  let table :=
    match sketch.label with
    | none => s.table
    | some label => s.table.bind label s.counter
  ⟨table, A.move s.counter sketch.move⟩

/-! ## The second pass -/

/-- A refused operand becomes a diagnostic of the line. -/
def orReject (file : SourceName) (number : Nat) (line : Text) :
    Except Operand.Fault (Action W) → Action W
  | .ok action => action
  | .error fault => .rejected (.rejectedOperand file number line fault)

/-- The value of a data directive: the address of a bound name, else a decimal operand. -/
def dataValue (table : Table W) (tail : Option Text) : Except Operand.Fault W :=
  match table.resolve? (Treatment.dataToken tail) with
  | some address => .ok address
  | none => (Operand.parse (Treatment.dataToken tail)).map A.ofInt

/-- What is done with a statement headed by a keyword. -/
def ofKeyword (table : Table W) (tail : Option Text) : Keyword → Except Operand.Fault (Action W)
  | .origin => (Treatment.originAddress tail).map fun address => .moved (A.ofInt address)
  | .data => (A.dataValue table tail).map (.emitted · true)
  | .finish => .ok (.emitted (A.ofInt 0) false)
  | .instruction m => (A.encode m (tail.getD [])).map (.emitted · true)

/-- What is done with a statement without a label. -/
def actBare (table : Table W) (file : SourceName) (number : Nat) (line : Text) (s : Statement) :
    Action W :=
  match s.keyword? with
  | none => .rejected (.unknownInstruction s.head (some ⟨file, number, 1⟩) (some line))
  | some keyword => orReject file number line (A.ofKeyword table s.tail keyword)

/-- What is done with the statement behind a label. -/
def actBehind (table : Table W) (file : SourceName) (number : Nat) (line label : Text) :
    Option Statement → Action W
  | none => .listed none
  | some s =>
    match s.keyword? with
    | none => .listed none
    | some .origin => orReject file number line (A.ofKeyword table s.tail .origin)
    | some _ => .listed (some (Treatment.behindLabel file number s.head label))

/-- What is done with a line. -/
def act (table : Table W) (file : SourceName) (number : Nat) (line : Text) : Reading → Action W
  | .inert => .listed none
  | .bare s => A.actBare table file number line s
  | .labelled label behind => A.actBehind table file number line label behind
  | .finish .. => .emitted (A.ofInt 0) false

/-- Do it. A word goes to the load file with its address, and to the listing with its source. -/
def perform (g : Second W) (line : Text) : Action W → Second W
  | .listed none => { g with listing := g.listing ++ [line] }
  | .listed (some warning) =>
    { g with listing := g.listing ++ [line], report := g.report.addWarning warning }
  | .moved address => { g with listing := g.listing ++ [' ' :: line], counter := address }
  | .emitted value advances =>
    let load := A.octal g.counter ++ ' ' :: A.octal value
    { g with
      listing := g.listing ++ [load ++ ' ' :: line]
      load := g.load ++ [load]
      counter := if advances then A.next g.counter else g.counter }
  | .rejected diagnostic => { g with report := g.report.addError diagnostic }

/-- Take in lines in the second pass, the first of which has the given number. -/
def generate (table : Table W) (file : SourceName) : Nat → List Text → Second W → Second W
  | _, [], g => g
  | number, raw :: rest, g =>
    let line := Text.trim raw
    let action := A.act table file number line (Reading.ofLine line)
    generate table file (number + 1) rest (A.perform g line action)

/-! ## Both passes -/

/-- The lines of the symbol file: a heading and the symbols sorted by name. -/
def symbolFile (table : Table W) : List Text :=
  "# Symbol table\n".toList :: "# Generated by c6461asm\n".toList ::
    (Text.sortBy Prod.fst table).map fun entry => entry.1 ++ ' ' :: A.octal entry.2 ++ ['\n']

/-- What the assembler over the arithmetic writes about a text. -/
def assemble (source : Text) (file : SourceName) : Product :=
  let lines := Text.textLines source
  let table := (lines.foldl A.survey ⟨[], A.ofInt 0⟩).table
  let second := A.generate table file 1 lines ⟨A.ofInt 0, [], [], .empty⟩
  { load := endLines second.load
    listing := endLines second.listing
    symbols := (A.symbolFile table).flatten
    report := second.report }

end Assembler

end Arithmetic

/-- What the program writes about a source. -/
def Run.product (run : Run) : Arithmetic.Product where
  load := run.output.loadText
  listing := run.output.listingText
  symbols := (symbolFile run.symbols).flatten
  report := run.report

/-! ## The program seen in another arithmetic -/

section Seen

variable {W : Type} (A : Arithmetic W)

/-- A table with its addresses seen in an arithmetic. -/
def SymbolTable.seenIn (s : SymbolTable) : Arithmetic.Table W :=
  s.entries.map fun entry => (entry.1, A.ofInt entry.2)

/-- A state of the first pass seen in an arithmetic. -/
def Survey.seenIn (s : Survey) : Arithmetic.First W := ⟨s.symbols.seenIn A, A.ofInt s.counter.value⟩

/-- A treatment seen in an arithmetic. -/
def Treatment.seenIn : Treatment → Arithmetic.Action W
  | listed warning => .listed warning
  | moved address => .moved (A.ofInt address)
  | emitted value advances => .emitted (A.ofInt value) advances
  | rejected diagnostic => .rejected diagnostic

/-- A state of the second pass seen in an arithmetic. -/
def Generation.seenIn (g : Generation) : Arithmetic.Second W :=
  ⟨A.ofInt g.counter.value, g.output.listing, g.output.load, g.report⟩

end Seen

namespace Arithmetic

section Square

variable {W : Type} {A : Arithmetic W}

theorem bind_seenIn (s : SymbolTable) (name : Text) (address : Int) :
    (s.seenIn A).bind name (A.ofInt address) = (s.define name address).seenIn A := by
  obtain ⟨entries, distinct⟩ := s
  simp only [SymbolTable.seenIn, SymbolTable.define]
  clear distinct
  induction entries with
  | nil => rfl
  | cons entry entries ih =>
    rw [List.map_cons, Table.bind, SymbolTable.bind]
    split
    · rfl
    · rw [List.map_cons, ih]

theorem resolve?_seenIn (s : SymbolTable) (name : Text) :
    (s.seenIn A).resolve? name = (s.resolve? name).map A.ofInt := by
  rw [Table.resolve?, SymbolTable.resolve?, SymbolTable.seenIn, List.find?_map, Option.map_map,
    Option.map_map]
  rfl

/-! ### The first pass -/

variable (hA : A.Faithful)

include hA

theorem move_ofInt (counter : LocationCounter) (m : Move) :
    A.move (A.ofInt counter.value) m = A.ofInt (m.apply counter).value := by
  cases m with
  | stay => rfl
  | refused fault => rfl
  | advance => exact hA.next_ofInt counter.value
  | jump address => rfl

/-- **The square of the first pass**. -/
theorem survey_seenIn (s : Survey) (file : SourceName) (number : Nat) (raw : Text) :
    A.survey (s.seenIn A) raw = (s.step file number raw).seenIn A := by
  rw [survey, Survey.step]
  cases hlabel : (Sketch.ofLine (Text.trim raw)).label with
  | none =>
    simp only [Survey.seenIn, move_ofInt hA]
    rfl
  | some label =>
    simp only [Survey.seenIn, move_ofInt hA, bind_seenIn]
    rfl

theorem foldl_survey_seenIn (lines : List Text) (s : Survey) (file : SourceName) (number : Nat) :
    lines.foldl A.survey (s.seenIn A) = (Survey.walk file number lines s).seenIn A := by
  induction lines generalizing number s with
  | nil => rfl
  | cons raw rest ih => rw [List.foldl_cons, Survey.walk, survey_seenIn hA s file number, ih]

/-! ### The second pass -/

section Line

variable (symbols : SymbolTable) (file : SourceName) (number : Nat) (line : Text)

omit hA in
theorem dataValue_seenIn (tail : Option Text) :
    A.dataValue (symbols.seenIn A) tail = (Treatment.dataValue symbols tail).map A.ofInt := by
  rw [dataValue, Treatment.dataValue, resolve?_seenIn]
  cases symbols.resolve? (Treatment.dataToken tail) with
  | some address => rfl
  | none => rfl

omit hA in
theorem orReject_seenIn (attempt : Except Operand.Fault Treatment) :
    orReject file number line (attempt.map (Treatment.seenIn A)) =
      (Treatment.orReject file number line attempt).seenIn A := by
  cases attempt with
  | ok treatment => rfl
  | error fault => rfl

theorem ofKeyword_seenIn (tail : Option Text) (keyword : Keyword) :
    A.ofKeyword (symbols.seenIn A) tail keyword =
      (Treatment.ofKeyword symbols tail keyword).map (Treatment.seenIn A) := by
  cases keyword with
  | origin =>
    rw [ofKeyword, Treatment.ofKeyword]
    cases Treatment.originAddress tail with
    | ok address => rfl
    | error fault => rfl
  | data =>
    rw [ofKeyword, Treatment.ofKeyword, dataValue_seenIn]
    cases Treatment.dataValue symbols tail with
    | ok value => rfl
    | error fault => rfl
  | finish => rfl
  | instruction m =>
    rw [ofKeyword, Treatment.ofKeyword, encode_eq hA]
    cases m.encode (tail.getD []) with
    | ok value => rfl
    | error fault => rfl

theorem orReject_ofKeyword_seenIn (tail : Option Text) (keyword : Keyword) :
    orReject file number line (A.ofKeyword (symbols.seenIn A) tail keyword) =
      (Treatment.orReject file number line (Treatment.ofKeyword symbols tail keyword)).seenIn A := by
  rw [ofKeyword_seenIn hA, orReject_seenIn]

theorem actBare_seenIn (s : Statement) :
    A.actBare (symbols.seenIn A) file number line s =
      (Treatment.ofBare symbols file number line s).seenIn A := by
  rw [actBare, Treatment.ofBare]
  cases s.keyword? with
  | none => rfl
  | some keyword => exact orReject_ofKeyword_seenIn hA symbols file number line s.tail keyword

theorem actBehind_seenIn (label : Text) (behind : Option Statement) :
    A.actBehind (symbols.seenIn A) file number line label behind =
      (Treatment.ofBehind file number line label behind).seenIn A := by
  cases behind with
  | none => rfl
  | some s =>
    rw [actBehind, Treatment.ofBehind]
    cases s.keyword? with
    | none => rfl
    | some keyword =>
      -- behind a label only an origin directive is carried out
      cases keyword with
      | origin => exact orReject_ofKeyword_seenIn hA symbols file number line s.tail .origin
      | data => rfl
      | finish => rfl
      | instruction m => rfl

theorem act_seenIn (r : Reading) :
    A.act (symbols.seenIn A) file number line r =
      (r.treatment symbols file number line).seenIn A := by
  cases r with
  | inert => rfl
  | bare s => exact actBare_seenIn hA symbols file number line s
  | labelled label behind => exact actBehind_seenIn hA symbols file number line label behind
  | finish label behind => rfl

end Line

/-- **The square of the second pass**. -/
theorem perform_seenIn (g : Generation) (file : SourceName) (number : Nat) (line : Text)
    (t : Treatment) :
    A.perform (g.seenIn A) line (t.seenIn A) = (g.apply file number line t).seenIn A := by
  cases t with
  | listed warning =>
    cases warning with
    | none => rfl
    | some warning => rfl
  | moved address => rfl
  | rejected diagnostic => rfl
  | emitted value advances =>
    -- the numbers are written alike, and the counters stay in step
    have hload : A.octal (A.ofInt g.counter.value) ++ ' ' :: A.octal (A.ofInt value) =
        Word.loadText ⟨g.counter.value, value, line, number⟩ := by
      rw [hA.octal_ofInt, hA.octal_ofInt]
      rfl
    simp only [Treatment.seenIn, perform, Generation.seenIn, hload, hA.next_ofInt]
    cases advances with
    | false => rfl
    | true => rfl

theorem generate_seenIn (symbols : SymbolTable) (file : SourceName) (number : Nat)
    (lines : List Text) (g : Generation) :
    A.generate (symbols.seenIn A) file number lines (g.seenIn A) =
      (Generation.walk symbols file number lines g).seenIn A := by
  induction lines generalizing number g with
  | nil => rfl
  | cons raw rest ih =>
    simp only [generate, Generation.walk, Generation.step, act_seenIn hA, ← Treatment.ofLine_eq,
      perform_seenIn hA g file number, ih]

/-! ### What is written -/

theorem symbolFile_seenIn (symbols : SymbolTable) :
    A.symbolFile (symbols.seenIn A) = TwoPass.symbolFile symbols := by
  have hsorted : Text.sortBy Prod.fst (symbols.seenIn A) =
      (Text.sortBy Prod.fst symbols.entries).map fun entry => (entry.1, A.ofInt entry.2) := by
    rw [Text.sortBy, Text.sortBy, SymbolTable.seenIn]
    refine (List.map_mergeSort ?_).symm
    intro a _ b _
    rfl
  rw [symbolFile, TwoPass.symbolFile, hsorted, List.map_map]
  simp only [Function.comp_def, hA.octal_ofInt]

/-- **Faithful arithmetics write alike**: over any of them the assembler writes what the program
writes. -/
theorem assemble_eq (source : Text) (file : SourceName) :
    A.assemble source file = (assembleText source file).1.product := by
  have hfirst : ∀ lines : List Text, lines.foldl A.survey ⟨[], A.ofInt 0⟩ =
      (Survey.walk file 1 lines (.start .empty)).seenIn A :=
    fun lines => foldl_survey_seenIn hA lines (.start .empty) file 1
  have hsecond : ∀ (symbols : SymbolTable) (lines : List Text),
      A.generate (symbols.seenIn A) file 1 lines ⟨A.ofInt 0, [], [], .empty⟩ =
        (Generation.walk symbols file 1 lines (.start .empty false false)).seenIn A :=
    fun symbols lines => generate_seenIn hA symbols file 1 lines (.start .empty false false)
  simp only [assemble, hfirst, Survey.seenIn, hsecond, symbolFile_seenIn hA]
  rfl

end Square

/-- The program is the assembler over integers of any size. -/
theorem assemble_unbounded (source : Text) (file : SourceName) :
    unbounded.assemble source file = (assembleText source file).1.product :=
  assemble_eq faithful_unbounded source file

/-- **Words of 32 bits are enough**. An assembler whose counters, addresses, operand values and words
are machine words of 32 bits that wrap around writes the same load file, listing, symbol file and
report as the program. In particular the word of an instruction is written alike, and the same operands
are refused; no operand that is accepted loses a bit. -/
theorem wrapping_refines (source : Text) (file : SourceName) :
    wrapping.assemble source file = (assembleText source file).1.product ∧
    (∀ (m : Mnemonic) (operands : Text),
      (wrapping.encode m operands).map wrapping.octal =
        (m.encode operands).map Numeral.octal) ∧
    ∀ operand value, Operand.parse operand = .ok value → (wrapping.ofInt value).toInt = value := by
  refine ⟨assemble_eq faithful_wrapping source file, ?_, fun _ _ => toInt_ofInt_of_parse⟩
  intro m operands
  rw [encode_eq faithful_wrapping]
  cases m.encode operands with
  | error fault => rfl
  | ok value => exact congrArg Except.ok (faithful_wrapping.octal_ofInt value)

/-- A counter that passes the greatest operand and comes back through a label, and the least operand as
a register field that is shifted out of the word. -/
theorem wrapping_refines_past_greatest :
    let source := "LOC 2147483647\nHLT\nX:\nDATA X\nLDR -2147483648,1,-1\n".toList
    let least := "-2147483648".toList
    wrapping.assemble source .input = (assembleText source .input).1.product ∧
      (assembleText source .input).1.symbols.resolve? "X".toList = some 2147483648 ∧
      (wrapping.encode .ldr (least ++ ",1,-1".toList)).map wrapping.octal =
        (Mnemonic.ldr.encode (least ++ ",1,-1".toList)).map Numeral.octal ∧
      Operand.parse least = .ok (-2147483648) ∧
      (wrapping.ofInt (-2147483648)).toInt = -2147483648 := by
  intro source least
  have hleast : Operand.parse least = .ok (-2147483648) := by rfl
  obtain ⟨hproduct, hencode, hoperand⟩ := wrapping_refines source .input
  exact ⟨hproduct, by decide, hencode .ldr _, hleast, hoperand least _ hleast⟩

end Arithmetic

end TwoPass
