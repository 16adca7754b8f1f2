import TwoPass.Proofs.Conversion
import TwoPass.Proofs.Outcome
import TwoPass.Proofs.Parts
import TwoPass.Session

/-!
# Nothing crashes

Both passes use the parts of statements, labels and addresses without asking whether they are there,
because an earlier test says so. Here the passes are written out once more as steps over their states
that crash where such a use finds nothing, and where an index, a conversion or the text of a diagnostic
fails. Refused operands are raised and caught as the passes do it: a handler raises the refusal, the line
turns it into a diagnostic of its own, and the loop over the lines records it. Nothing catches a crash.

No step crashes, whatever the lines, the symbols and the report are.

* A line that is not inert has a statement (`Checked.exists_statement`), and what follows a label has
  one, too (`Checked.exists_statement_tail`).
* A handler does what the treatment of its statement says, or raises the refusal and has done nothing
  (`Checked.run_handler`). A line is therefore treated or diagnosed (`Checked.run_generateLine`).
* Each line in turn is recorded, so both loops come to their passes (`Checked.generate_eq`,
  `Checked.collect_eq`), and so does the assembly of a text (`Checked.nothing_crashes`).
-/

namespace TwoPass

namespace Checked

/-! ## Steps -/

/-- A step over a state. It may raise something, and what it has done before stays done. -/
abbrev Step (σ : Type) : Type → Type := EStateM Raised σ

section Steps

variable {σ α : Type}

/-- Go on with a result, or raise why there is none. -/
def orRaise : Except Raised α → Step σ α
  | .ok a => pure a
  | .error raised => throw raised

/-- Raise a diagnostic. Its text is formed when it is made. -/
def diagnose (d : Diagnostic) : Step σ Unit :=
  match d.caretFault? with
  | none => throw (.diagnosed d)
  | some fault => throw (.crashed (.unmarked fault))

/-- Use the statement in a text. -/
def statement (t : Text) : Step σ Statement :=
  match Statement.ofText? t with
  | none => throw (.crashed .noStatement)
  | some s => pure s

/-- What a step leaves behind. -/
def finished (after : σ → σ) (step : Step σ Unit) (s : σ) : Except Raised σ :=
  match step.run s with
  | .ok _ s => .ok (after s)
  | .error raised _ => .error raised

end Steps

/-! ## The first pass -/

/-- What the first pass does for a keyword. -/
def measure (keyword : Keyword) (tail : Option Text) : Step Survey Unit :=
  match keyword with
  | .origin => do
    let address ← orRaise (parse ((tail.bind Line.firstToken?).getD []))
    modify fun s => { s with counter := ⟨address⟩ }
  | .data | .instruction _ => modify fun s => { s with counter := s.counter.advance }
  | .finish => pure ()

/-- A refused operand is noted, and the line is left out. -/
def skip (file : SourceName) (number : Nat) (line : Text) : Raised → Step Survey Unit
  | .refused fault =>
    modify fun s => { s with events := s.events ++ [.skipped file number line fault.message] }
  | raised => throw raised

/-- Bind a label, if there is one. -/
def bindLabel : Option Text → Step Survey Unit
  | none => pure ()
  | some label => modify (·.bindLabel (some label))

/-- Take in the statement on a line, if there is one. What is no keyword is passed over. -/
def collectStatement (file : SourceName) (number : Nat) (line : Text) :
    Option Statement → Step Survey Unit
  | none => pure ()
  | some s =>
    match Keyword.ofToken? s.head with
    | none => pure ()
    | some keyword => tryCatch (measure keyword s.tail) (skip file number line)

/-- Take in one line in the first pass. -/
def collectLine (file : SourceName) (number : Nat) (raw : Text) : Step Survey Unit := do
  let line := Text.trim raw
  if Line.isInert line then pure ()
  else
    let parts := Line.peel line
    bindLabel parts.label
    collectStatement file number line (parts.rest.bind Statement.ofText?)

/-- Take in lines in the first pass. -/
def collectLines (file : SourceName) : Nat → List Text → Step Survey Unit
  | _, [] => pure ()
  | number, raw :: rest => do
    collectLine file number raw
    collectLines file (number + 1) rest

/-- The first pass over a table. -/
def collect (symbols : SymbolTable) (file : SourceName) (lines : List Text) : Except Raised Survey :=
  finished Survey.close (collectLines file 1 lines) (.start symbols)

/-! ## The second pass -/

section Second

variable (symbols : SymbolTable) (file : SourceName) (number : Nat) (line : Text)

/-- Emit a word at the counter. -/
def emit (value : Int) : Step Generation Unit :=
  modify fun g => g.emit file ⟨g.counter.value, value, line, number⟩

/-- Step past one word. -/
def advance : Step Generation Unit := modify fun g => { g with counter := g.counter.advance }

/-- Use the address of a name. -/
def address (name : Text) : Except Raised Int :=
  match symbols.resolve? name with
  | none => .error (.crashed (.unbound name))
  | some address => .ok address

/-- An origin directive. -/
def origin : Option Text → Step Generation Unit
  | none => throw (.refused .missingAddress)
  | some tail => do
    let address ← orRaise (parse ((Line.firstToken? tail).getD []))
    modify fun g => { g with counter := ⟨address⟩ }
    modify (·.list (' ' :: line))

/-- A data directive. -/
def data (tail : Option Text) : Step Generation Unit := do
  let token := Treatment.dataToken tail
  let value ← orRaise (if symbols.contains token then address symbols token else parse token)
  emit file number line value
  advance

/-- An instruction. -/
def instruction (m : Mnemonic) (tail : Option Text) : Step Generation Unit := do
  let value ← orRaise (encode m (tail.getD []))
  emit file number line value
  advance

/-- What the second pass does for a keyword. -/
def handler (tail : Option Text) : Keyword → Step Generation Unit
  | .origin => origin line tail
  | .data => data symbols file number line tail
  | .finish => emit file number line 0
  | .instruction m => instruction file number line m tail

/-- A refused operand becomes a diagnostic of the line. -/
def locate : Raised → Step Generation Unit
  | .refused fault => diagnose (.rejectedOperand file number line fault)
  | raised => throw raised

/-- A line that starts with a label. -/
def labelledLine : Step Generation Unit := do
  let parts := Line.peel line
  match parts.rest with
  | none => modify (·.list line)
  | some rest =>
    let s ← statement rest
    if Keyword.ofToken? s.head = some .origin then
      tryCatch (origin line s.tail) (locate file number line)
    else
      modify (·.list line)
      if (Keyword.ofToken? s.head).isSome then
        match parts.label with
        | none => throw (.crashed .noLabel)
        | some label =>
          let warning := Treatment.behindLabel file number s.head label
          modify fun g => { g with report := g.report.addWarning warning }

/-- A trimmed line. -/
def generateLine : Step Generation Unit := do
  if Line.isInert line then modify (·.list line)
  else
    let s ← statement line
    if Keyword.ofToken? s.head = some .finish then emit file number line 0
    else if Line.startsWithLabel line then labelledLine file number line
    else
      match Keyword.ofToken? s.head with
      | none => diagnose (.unknownInstruction s.head (some ⟨file, number, 1⟩) (some line))
      | some keyword =>
        tryCatch (handler symbols file number line s.tail keyword) (locate file number line)

end Second

/-- Record a diagnostic. -/
def note (d : Diagnostic) : Step Generation Unit :=
  modify fun g =>
    { g with report := g.report.addError d, events := g.events ++ [.recorded d.message] }

/-- Record what a line has raised. A refusal that no line has located is recorded without a place. -/
def record : Raised → Step Generation Unit
  | .refused fault => note (.ofFault fault)
  | .diagnosed d => note d
  | .crashed crash => throw (.crashed crash)

/-- Take in lines in the second pass. -/
def generateLines (symbols : SymbolTable) (file : SourceName) : Nat → List Text → Step Generation Unit
  | _, [] => pure ()
  | number, raw :: rest => do
    tryCatch (generateLine symbols file number (Text.trim raw)) record
    generateLines symbols file (number + 1) rest

/-- The second pass. -/
def generate (symbols : SymbolTable) (file : SourceName) (report : Report) (listing load : Bool)
    (lines : List Text) : Except Raised Generation :=
  finished Generation.close (generateLines symbols file 1 lines) (.start report listing load)

/-- Both passes over a text. -/
def assembleText (source : Text) (file : SourceName) : Except Raised (Run × List Event) := do
  let lines := Text.textLines source
  let survey ← collect .empty file lines
  let generation ← generate survey.symbols file .empty false false lines
  return (⟨survey.symbols, generation.report, generation.output⟩,
    .assemblingText file lines.length :: survey.events ++ generation.events)

/-! ## What is used is there -/

theorem exists_statement_of_trim {t : Text} (h : Text.trim t ≠ []) :
    ∃ s, Statement.ofText? t = some s := by
  rw [Statement.ofText?]
  cases htrim : Text.trim t with
  | nil => exact absurd htrim h
  | cons c rest => exact ⟨_, rfl⟩

/-- **A line that is not inert has a statement**. -/
theorem exists_statement {line : Text} (h : Line.isInert line = false) :
    ∃ s, Statement.ofText? line = some s := by
  refine exists_statement_of_trim fun htrim => ?_
  rw [Line.isInert, htrim] at h
  cases h

/-- **What follows the head of a statement has a statement**, since the blanks between them are not part
of it. -/
theorem exists_statement_tail {t tail : Text} {s : Statement} (h : Statement.ofText? t = some s)
    (htail : s.tail = some tail) : ∃ s', Statement.ofText? tail = some s' := by
  refine exists_statement_of_trim fun htrim => ?_
  rw [Statement.ofText?] at h
  split at h
  · cases h
  · next c cs _ =>
    obtain rfl := Option.some.inj h
    dsimp only at htail
    split at htail
    · cases htail
    · next hrest =>
      obtain rfl := Option.some.inj htail
      cases hafter : Text.afterWord (c :: cs) with
      | nil => simp [hafter] at hrest
      | cons d rest =>
        have hblank : Text.isBlank d = false := Text.isBlank_of_trimStart_eq_cons hafter
        rw [hafter, Text.trim_eq_nil_iff, Text.isBlanks, List.all_cons, hblank] at htrim
        cases htrim

/-! ## The first pass does not crash -/

/-- One step after the other. -/
theorem run_seq {σ : Type} {first second : Step σ Unit} {s s' : σ} (h : first.run s = .ok () s') :
    (do first; second : Step σ Unit).run s = second.run s' := by
  simp only [EStateM.run, bind, EStateM.bind] at h ⊢
  rw [h]

theorem run_bindLabel (label : Option Text) (s : Survey) :
    (bindLabel label).run s = .ok () (s.bindLabel label) := by
  cases label with
  | none => rfl
  | some label => rfl

section Move

variable (s : Survey) (file : SourceName) (number : Nat) (line : Text)

@[simp] theorem applyMove_stay : s.applyMove file number line .stay = s := by
  simp [Survey.applyMove, Move.apply]

@[simp] theorem applyMove_advance :
    s.applyMove file number line .advance = { s with counter := s.counter.advance } := by
  simp [Survey.applyMove, Move.apply]

@[simp] theorem applyMove_jump (address : Int) :
    s.applyMove file number line (.jump address) = { s with counter := ⟨address⟩ } := by
  simp [Survey.applyMove, Move.apply]

end Move

theorem run_collectStatement (file : SourceName) (number : Nat) (line : Text)
    (statement : Option Statement) (s : Survey) :
    (collectStatement file number line statement).run s =
      .ok () (s.applyMove file number line ((statement.map Move.ofStatement).getD .stay)) := by
  cases statement with
  | none =>
    rw [Option.map_none, Option.getD_none, applyMove_stay]
    rfl
  | some statement =>
    rw [collectStatement, Option.map_some, Option.getD_some, Move.ofStatement]
    rcases Keyword.ofToken? statement.head with _ | _ | _ | _ | m
    · rw [applyMove_stay]
      rfl
    · -- an origin directive, whose operand may be refused
      simp only [measure, parse_eq]
      cases Operand.parse ((statement.tail.bind Line.firstToken?).getD []) with
      | error fault => rfl
      | ok address =>
        rw [applyMove_jump]
        rfl
    · exact congrArg (EStateM.Result.ok ()) (applyMove_advance ..).symm
    · exact congrArg (EStateM.Result.ok ()) (applyMove_stay ..).symm
    · exact congrArg (EStateM.Result.ok ()) (applyMove_advance ..).symm

/-- **One line of the first pass**. A refused operand is caught on its line. -/
theorem run_collectLine (file : SourceName) (number : Nat) (raw : Text) (s : Survey) :
    (collectLine file number raw).run s = .ok () (s.step file number raw) := by
  simp only [collectLine, Survey.step, Sketch.ofLine]
  split
  · rw [applyMove_stay]
    rfl
  · rw [run_seq (run_bindLabel _ s), run_collectStatement]

theorem run_collectLines (file : SourceName) (number : Nat) (lines : List Text) (s : Survey) :
    (collectLines file number lines).run s = .ok () (Survey.walk file number lines s) := by
  induction lines generalizing number s with
  | nil => rfl
  | cons raw rest ih => rw [collectLines, run_seq (run_collectLine file number raw s), ih, Survey.walk]

/-- **The first pass does not crash**. -/
theorem collect_eq (symbols : SymbolTable) (file : SourceName) (lines : List Text) :
    collect symbols file lines = .ok (Survey.run symbols file lines) := by
  rw [collect, finished, run_collectLines]
  rfl

/-! ## The second pass does not crash -/

section Second

variable (symbols : SymbolTable) (file : SourceName) (number : Nat) (line : Text) (g : Generation)

/-- What a handler leaves behind: its statement is treated, or it has done nothing and raises why the
operand is refused. -/
def handled : Except Operand.Fault Treatment → EStateM.Result Raised Generation Unit
  | .ok treatment => .ok () (g.apply file number line treatment)
  | .error fault => .error (.refused fault) g

/-- What a line leaves behind: it is treated, or it has done nothing and raises its diagnostic. -/
def treated : Treatment → EStateM.Result Raised Generation Unit
  | .rejected d => .error (.diagnosed d) g
  | treatment => .ok () (g.apply file number line treatment)

theorem run_origin (tail : Option Text) :
    (origin line tail).run g =
      handled file number line g ((Treatment.originAddress tail).map .moved) := by
  cases tail with
  | none => rfl
  | some tail =>
    rw [origin, Treatment.originAddress, parse_eq]
    cases Operand.parse ((Line.firstToken? tail).getD []) with
    | error fault => rfl
    | ok address => rfl

/-- A name that is bound has an address. -/
theorem run_data (tail : Option Text) :
    (data symbols file number line tail).run g =
      handled file number line g ((Treatment.dataValue symbols tail).map (.emitted · true)) := by
  rw [data, Treatment.dataValue, SymbolTable.contains, address]
  cases symbols.resolve? (Treatment.dataToken tail) with
  | some address => rfl
  | none =>
    rw [parse_eq]
    cases Operand.parse (Treatment.dataToken tail) with
    | error fault => rfl
    | ok value => rfl

/-- **A handler does what the treatment of its statement says**, or raises the refusal and has done
nothing. -/
theorem run_handler (tail : Option Text) (keyword : Keyword) :
    (handler symbols file number line tail keyword).run g =
      handled file number line g (Treatment.ofKeyword symbols tail keyword) := by
  cases keyword with
  | origin => exact run_origin file number line g tail
  | data => exact run_data symbols file number line g tail
  | finish => rfl
  | instruction m =>
    rw [handler, instruction, encode_eq, Treatment.ofKeyword]
    cases m.encode (tail.getD []) with
    | error fault => rfl
    | ok value => rfl

/-- A refused operand is located on its line. -/
theorem run_tryCatch_locate {step : Step Generation Unit} {result : Except Operand.Fault Treatment}
    (h : step.run g = handled file number line g result)
    (hresult : ∀ d, result ≠ .ok (.rejected d)) :
    (tryCatch step (locate file number line) : Step Generation Unit).run g =
      treated file number line g (Treatment.orReject file number line result) := by
  simp only [EStateM.run, tryCatch, tryCatchThe, MonadExceptOf.tryCatch, EStateM.tryCatch] at h ⊢
  rw [h]
  cases result with
  | error fault => rfl
  | ok treatment =>
    cases treatment with
    | rejected d => exact absurd rfl (hresult d)
    | _ => rfl

/-- A handler has no diagnostic of its own. -/
theorem map_ne_rejected {α : Type} {treat : α → Treatment} (h : ∀ a d, treat a ≠ .rejected d)
    (result : Except Operand.Fault α) (d : Diagnostic) : result.map treat ≠ .ok (.rejected d) := by
  intro hd
  cases result with
  | error fault => cases hd
  | ok a => exact h a d (Except.ok.inj hd)

theorem ofKeyword_ne_rejected (tail : Option Text) (keyword : Keyword) (d : Diagnostic) :
    Treatment.ofKeyword symbols tail keyword ≠ .ok (.rejected d) := by
  cases keyword with
  | origin => exact map_ne_rejected (fun _ _ => Treatment.noConfusion) _ d
  | data => exact map_ne_rejected (fun _ _ => Treatment.noConfusion) _ d
  | instruction m => exact map_ne_rejected (fun _ _ => Treatment.noConfusion) _ d
  | finish =>
    intro h
    cases h

/-- A statement that is there is used. -/
theorem statement_bind {t : Text} {s : Statement} (h : Statement.ofText? t = some s)
    (next : Statement → Step Generation Unit) : (statement t >>= next) = next s := by
  rw [statement, h]
  rfl

/-- **A line that starts with a label**. What follows the label has a statement. -/
theorem run_labelledLine {s : Statement} (hs : Statement.ofText? line = some s)
    (hlabel : s.isLabel = true) :
    (labelledLine file number line).run g =
      treated file number line g (Treatment.ofLabelled file number line s.head.dropLast s.tail) := by
  have hpeel : Line.peel line = ⟨some s.head.dropLast, s.tail⟩ := by
    simp only [Line.peel, hs, hlabel, if_true]
  rw [labelledLine, hpeel, Treatment.ofLabelled]
  cases htail : s.tail with
  | none => rfl
  | some rest =>
    obtain ⟨behind, hbehind⟩ := exists_statement_tail hs htail
    simp only [statement_bind hbehind, Option.bind_some, hbehind]
    rcases Keyword.ofToken? behind.head with _ | _ | _ | _ | m
    · rfl
    · -- an origin directive, which is not only listed
      rw [if_pos rfl]
      exact run_tryCatch_locate file number line g (run_origin file number line g behind.tail)
        (map_ne_rejected (fun _ _ => Treatment.noConfusion) _)
    · rfl
    · rfl
    · rfl

/-- **One line of the second pass**: it is treated, or it raises its diagnostic and has done nothing. -/
theorem run_generateLine :
    (generateLine symbols file number line).run g =
      treated file number line g (Treatment.ofLine symbols file number line) := by
  rw [generateLine, Treatment.ofLine]
  cases hinert : Line.isInert line with
  | true => rfl
  | false =>
    obtain ⟨s, hs⟩ := exists_statement hinert
    simp only [statement_bind hs, hs, Line.startsWithLabel, Option.any_some, Bool.false_eq_true, if_false]
    by_cases hfinish : Keyword.ofToken? s.head = some .finish
    · rw [if_pos hfinish, if_pos hfinish]
      rfl
    rw [if_neg hfinish, if_neg hfinish]
    by_cases hlabel : s.isLabel = true
    · rw [if_pos hlabel, if_pos hlabel]
      exact run_labelledLine file number line g hs hlabel
    rw [if_neg hlabel, if_neg hlabel]
    cases Keyword.ofToken? s.head with
    | none => rfl
    | some keyword =>
      exact run_tryCatch_locate file number line g (run_handler symbols file number line g s.tail keyword)
        (ofKeyword_ne_rejected symbols s.tail keyword)

/-- **What a line raises is recorded on the line**. -/
theorem run_tryCatch_record (raw : Text) :
    (tryCatch (generateLine symbols file number (Text.trim raw)) record : Step Generation Unit).run g =
      .ok () (g.step symbols file number raw) := by
  have hline := run_generateLine symbols file number (Text.trim raw) g
  rw [Generation.step]
  simp only [EStateM.run, tryCatch, tryCatchThe, MonadExceptOf.tryCatch, EStateM.tryCatch] at hline ⊢
  rw [hline]
  cases Treatment.ofLine symbols file number (Text.trim raw) <;> rfl

theorem run_generateLines (lines : List Text) :
    (generateLines symbols file number lines).run g =
      .ok () (Generation.walk symbols file number lines g) := by
  induction lines generalizing number g with
  | nil => rfl
  | cons raw rest ih =>
    rw [generateLines, run_seq (run_tryCatch_record symbols file number g raw), ih, Generation.walk]

end Second

/-- **The second pass does not crash**. -/
theorem generate_eq (symbols : SymbolTable) (file : SourceName) (report : Report)
    (listing load : Bool) (lines : List Text) :
    generate symbols file report listing load lines =
      .ok (Generation.run symbols file report listing load lines) := by
  rw [generate, finished, run_generateLines]
  rfl

/-- **Nothing crashes**. For every text and name the assembly comes to its result, and so do both passes
for all lines, over every symbol table and every report. Each line is taken in by itself: the first pass
catches a refused operand on its line, and the second pass treats the line or records the one diagnostic
that the line has raised, which names this line, before anything else was done with it. Reading an
operand and encoding an instruction raise nothing but the refusal of an operand. -/
theorem nothing_crashes :
    (∀ source file, assembleText source file = .ok (TwoPass.assembleText source file)) ∧
    (∀ symbols file lines, collect symbols file lines = .ok (Survey.run symbols file lines)) ∧
    (∀ symbols file report listing load lines,
      generate symbols file report listing load lines =
        .ok (Generation.run symbols file report listing load lines)) ∧
    (∀ file number raw s, (collectLine file number raw).run s = .ok () (s.step file number raw)) ∧
    (∀ symbols file number raw g,
      (generateLine symbols file number (Text.trim raw)).run g =
        .ok () (g.step symbols file number raw) ∨
      ∃ d : Diagnostic, d.Blames file number (Text.trim raw) ∧
        (generateLine symbols file number (Text.trim raw)).run g = .error (.diagnosed d) g ∧
        (record (.diagnosed d)).run g = .ok () (g.step symbols file number raw)) ∧
    (∀ t, parse t = (Operand.parse t).mapError .refused) ∧
    (∀ m operands, encode m operands = (m.encode operands).mapError .refused) := by
  refine ⟨?_, collect_eq, generate_eq, run_collectLine, ?_, parse_eq, encode_eq⟩
  · intro source file
    simp only [assembleText, collect_eq, bind, Except.bind, generate_eq]
    rfl
  · intro symbols file number raw g
    have hline := run_generateLine symbols file number (Text.trim raw) g
    rw [Generation.step]
    cases htreatment : Treatment.ofLine symbols file number (Text.trim raw) with
    | rejected d =>
      rw [htreatment] at hline
      rw [Treatment.ofLine_eq] at htreatment
      exact .inr ⟨d, Reading.blames_of_treatment htreatment, hline, rfl⟩
    | _ =>
      rw [htreatment] at hline
      exact .inl hline

end Checked

end TwoPass
