import TwoPass.Proofs.Reading

/-!
# The states of a pass

A pass over given lines goes through one state for each line it reaches. `Survey.Task` and
`Generation.Task` bundle what the two passes are given, and `Task.reach i` is the state on reaching
the line at place `i`. Places count from zero and line numbers from one, so the line at place `i` has
number `i + 1`, and `reach` at the number of lines is the state at the end.

What one step does is said once, part by part, and what a run does follows by one induction over the
places (`Line.place_induction`); later proofs never unfold `walk`.

* The first pass: `Survey.Task.counter_reach_succ` and `Survey.Task.symbols_reach_succ` give counter
  and table after a line in terms of its reading.
* The second pass: a treatment adds at most one item to each part of the output, and each part is the
  list of what its lines have added (`Generation.Task.words_reach` and its siblings).
-/

namespace TwoPass

/-! ## Places -/

namespace Line

/-- The lines before a place, each with its own place. -/
def before (lines : List Text) (i : Nat) : List (Text × Nat) := (lines.take i).zipIdx

theorem before_succ {lines : List Text} {i : Nat} {raw : Text} (h : lines[i]? = some raw) :
    before lines (i + 1) = before lines i ++ [(raw, i)] := by
  have hlt : i < lines.length := (List.getElem?_eq_some_iff.mp h).1
  have hlength : (lines.take i).length = i := by
    rw [List.length_take]
    omega
  rw [before, List.take_add_one, h, Option.toList_some, List.zipIdx_append, hlength, Nat.zero_add]
  rfl

theorem mem_before {lines : List Text} {i j : Nat} {raw : Text} :
    (raw, j) ∈ before lines i ↔ j < i ∧ lines[j]? = some raw := by
  rw [before, List.mk_mem_zipIdx_iff_getElem?, List.getElem?_take]
  by_cases hj : j < i
  · simp [hj]
  · simp [hj]

theorem mem_before_length {lines : List Text} {i : Nat} {raw : Text} (h : lines[i]? = some raw) :
    (raw, i) ∈ before lines lines.length :=
  mem_before.mpr ⟨(List.getElem?_eq_some_iff.mp h).1, h⟩

/-- The lines come in the order of their places. -/
theorem pairwise_before (lines : List Text) (i : Nat) :
    (before lines i).Pairwise fun p q => p.2 < q.2 := by
  rw [← List.pairwise_map, before, List.zipIdx_map_snd]
  exact List.pairwise_lt_range'

/-- What holds at the first place and is carried on by every line holds at every place. -/
theorem place_induction {lines : List Text} {P : Nat → Prop} (hzero : P 0)
    (hstep : ∀ i raw, lines[i]? = some raw → P i → P (i + 1)) :
    ∀ {i : Nat}, i ≤ lines.length → P i := by
  intro i
  induction i with
  | zero =>
    intro _
    exact hzero
  | succ i ih =>
    intro hi
    exact hstep i _ (List.getElem?_eq_getElem (by omega)) (ih (by omega))

end Line

/-! ## The first pass -/

/-- The counter behind a line, as the layout of the program has it: at the address of an origin
directive, past the word of a statement that allocates one, and else where it was. -/
def Reading.next (r : Reading) (counter : Int) : Int :=
  match r.origin? with
  | some address => address
  | none => if r.allocates then counter + 1 else counter

/-- The first pass moves its counter as the layout has it. -/
theorem Reading.move_sketch_apply (r : Reading) (c : LocationCounter) :
    r.sketch.move.apply c = ⟨r.next c.value⟩ := by
  unfold Reading.sketch Reading.next Reading.origin? Reading.allocates
  rcases r.statement? with _ | s
  · rfl
  · change (Move.ofStatement s).apply c = _
    rw [Move.apply_ofStatement]
    rcases hs : s.origin? with _ | address
    · by_cases ha : s.allocates = true
      · simp [hs, ha, LocationCounter.advance]
      · simp [hs, ha]
    · simp [hs]

namespace Survey

/-- What the first pass is given. -/
structure Task where
  /-- the symbols bound before the pass -/
  symbols : SymbolTable
  /-- the name of the source -/
  file : SourceName
  /-- the source lines -/
  lines : List Text

namespace Task

variable (t : Task)

/-- The state on reaching the line at a place. -/
def reach (i : Nat) : Survey := walk t.file 1 (t.lines.take i) (start t.symbols)

/-- The state at the end of the whole pass. -/
def result : Survey := run t.symbols t.file t.lines

theorem reach_succ {i : Nat} {raw : Text} (h : t.lines[i]? = some raw) :
    t.reach (i + 1) = (t.reach i).step t.file (i + 1) raw := by
  have hlt : i < t.lines.length := (List.getElem?_eq_some_iff.mp h).1
  have hnumber : 1 + (t.lines.take i).length = i + 1 := by
    rw [List.length_take]
    omega
  rw [reach, List.take_add_one, h, Option.toList_some, walk_append, hnumber]
  rfl

/-- The pass ends in the state behind its last line; closing it only notes an event. -/
theorem result_eq : t.result = (t.reach t.lines.length).close := by
  rw [reach, List.take_length]
  rfl

@[simp] theorem symbols_result : t.result.symbols = (t.reach t.lines.length).symbols := by
  rw [result_eq]
  rfl

variable {t}

theorem counter_reach_succ {i : Nat} {r : Reading} (h : (Reading.ofLines t.lines)[i]? = some r) :
    (t.reach (i + 1)).counter.value = r.next (t.reach i).counter.value := by
  obtain ⟨raw, hraw, rfl⟩ := Reading.ofLines_getElem?_eq_some.mp h
  rw [reach_succ t hraw, counter_step, Sketch.ofLine_eq, Reading.move_sketch_apply]

theorem symbols_reach_succ {i : Nat} {r : Reading} (h : (Reading.ofLines t.lines)[i]? = some r) :
    (t.reach (i + 1)).symbols =
      match r.label? with
      | none => (t.reach i).symbols
      | some label => (t.reach i).symbols.define label (t.reach i).counter.value := by
  obtain ⟨raw, hraw, rfl⟩ := Reading.ofLines_getElem?_eq_some.mp h
  rw [reach_succ t hraw, step, Sketch.ofLine_eq]
  change ((t.reach i).bindLabel (Reading.ofLine (Text.trim raw)).label?).symbols = _
  cases (Reading.ofLine (Text.trim raw)).label? with
  | none => rfl
  | some label => rfl

end Task

end Survey

/-! ## What a treatment adds -/

namespace Treatment

/-- The word that is emitted for a line when the counter stands at the given address. -/
def word? (address : Int) (number : Nat) (line : Text) : Treatment → Option Word
  | emitted value _ => some ⟨address, value, line, number⟩
  | listed _ | moved _ | rejected _ => none

/-- The line that goes to the listing. -/
def listingLine? (address : Int) (number : Nat) (line : Text) : Treatment → Option Text
  | listed _ => some line
  | moved _ => some (' ' :: line)
  | emitted value _ => some (Word.listingText ⟨address, value, line, number⟩)
  | rejected _ => none

/-- The warning that is recorded. -/
def warning? : Treatment → Option Text
  | listed warning => warning
  | moved _ | emitted .. | rejected _ => none

/-- The diagnostic that is recorded. -/
def diagnostic? : Treatment → Option Diagnostic
  | rejected diagnostic => some diagnostic
  | listed _ | moved _ | emitted .. => none

/-- The counter behind the line. -/
def next (counter : Int) : Treatment → Int
  | moved address => address
  | emitted _ true => counter + 1
  | emitted _ false | listed _ | rejected _ => counter

theorem word?_eq_some_iff {t : Treatment} {address : Int} {number : Nat} {line : Text} {w : Word} :
    t.word? address number line = some w ↔
      ∃ value advances, t = emitted value advances ∧ w = ⟨address, value, line, number⟩ := by
  cases t <;> simp [word?, eq_comm]

theorem diagnostic?_eq_some_iff {t : Treatment} {d : Diagnostic} :
    t.diagnostic? = some d ↔ t = rejected d := by
  cases t <;> simp [diagnostic?]

end Treatment

namespace Generation

section Apply

variable (g : Generation) (file : SourceName) (number : Nat) (line : Text) (t : Treatment)

@[simp] theorem counter_apply :
    (g.apply file number line t).counter.value = t.next g.counter.value := by
  rcases t with (_ | warning) | address | ⟨value, _ | _⟩ | diagnostic <;> rfl

@[simp] theorem words_apply :
    (g.apply file number line t).output.words =
      g.output.words ++ (t.word? g.counter.value number line).toList := by
  rcases t with (_ | warning) | address | ⟨value, _ | _⟩ | diagnostic <;>
    simp [apply, list, loadLine, emit, Treatment.word?]

@[simp] theorem listing_apply :
    (g.apply file number line t).output.listing =
      g.output.listing ++ (t.listingLine? g.counter.value number line).toList := by
  rcases t with (_ | warning) | address | ⟨value, _ | _⟩ | diagnostic <;>
    simp [apply, list, loadLine, emit, Treatment.listingLine?]

@[simp] theorem load_apply :
    (g.apply file number line t).output.load =
      g.output.load ++ ((t.word? g.counter.value number line).map Word.loadText).toList := by
  rcases t with (_ | warning) | address | ⟨value, _ | _⟩ | diagnostic <;>
    simp [apply, list, loadLine, emit, Treatment.word?]

@[simp] theorem errors_apply :
    (g.apply file number line t).report.errors = g.report.errors ++ t.diagnostic?.toList := by
  rcases t with (_ | warning) | address | ⟨value, _ | _⟩ | diagnostic <;>
    simp [apply, list, loadLine, emit, Treatment.diagnostic?, Report.addWarning, Report.addError]

@[simp] theorem warnings_apply :
    (g.apply file number line t).report.warnings = g.report.warnings ++ t.warning?.toList := by
  rcases t with (_ | warning) | address | ⟨value, _ | _⟩ | diagnostic <;>
    simp [apply, list, loadLine, emit, Treatment.warning?, Report.addWarning, Report.addError]

end Apply

/-! ## The second pass -/

/-- What the second pass is given. -/
structure Task where
  /-- the symbols that data directives may name -/
  symbols : SymbolTable
  /-- the name of the source -/
  file : SourceName
  /-- the diagnostics and warnings recorded before the pass -/
  report : Report
  /-- is a listing stream open? -/
  listing : Bool
  /-- is a load stream open? -/
  load : Bool
  /-- the source lines -/
  lines : List Text

namespace Task

variable (t : Task)

/-- The state on reaching the line at a place. -/
def reach (i : Nat) : Generation :=
  walk t.symbols t.file 1 (t.lines.take i) (start t.report t.listing t.load)

/-- The state at the end of the whole pass. -/
def result : Generation := run t.symbols t.file t.report t.listing t.load t.lines

/-- How the pass treats a source line at a place. -/
def treatment (i : Nat) (raw : Text) : Treatment :=
  Treatment.ofLine t.symbols t.file (i + 1) (Text.trim raw)

theorem treatment_eq (i : Nat) (raw : Text) :
    t.treatment i raw =
      (Reading.ofLine (Text.trim raw)).treatment t.symbols t.file (i + 1) (Text.trim raw) :=
  Treatment.ofLine_eq ..

theorem reach_succ {i : Nat} {raw : Text} (h : t.lines[i]? = some raw) :
    t.reach (i + 1) = (t.reach i).apply t.file (i + 1) (Text.trim raw) (t.treatment i raw) := by
  have hlt : i < t.lines.length := (List.getElem?_eq_some_iff.mp h).1
  have hnumber : 1 + (t.lines.take i).length = i + 1 := by
    rw [List.length_take]
    omega
  rw [reach, List.take_add_one, h, Option.toList_some, walk_append, hnumber]
  rfl

/-- The pass ends in the state behind its last line; closing it only notes an event. -/
theorem result_eq : t.result = (t.reach t.lines.length).close := by
  rw [reach, List.take_length]
  rfl

@[simp] theorem output_result : t.result.output = (t.reach t.lines.length).output := by
  rw [result_eq]
  rfl

@[simp] theorem report_result : t.result.report = (t.reach t.lines.length).report := by
  rw [result_eq]
  rfl

/-! ### Each part of the output is what its lines have added -/

/-- The word that the line at a place adds. -/
def word? (i : Nat) (raw : Text) : Option Word :=
  (t.treatment i raw).word? (t.reach i).counter.value (i + 1) (Text.trim raw)

/-- The line that the line at a place adds to the listing. -/
def listingLine? (i : Nat) (raw : Text) : Option Text :=
  (t.treatment i raw).listingLine? (t.reach i).counter.value (i + 1) (Text.trim raw)

/-- The diagnostic that the line at a place adds. -/
def diagnostic? (i : Nat) (raw : Text) : Option Diagnostic := (t.treatment i raw).diagnostic?

/-- The warning that the line at a place adds. -/
def warning? (i : Nat) (raw : Text) : Option Text := (t.treatment i raw).warning?

variable {t}

/-- A part of the state to which each line adds at most one item is, at any place, what it was at the
start and then the items of the lines before, in order. -/
theorem part_reach {α : Type} (part : Generation → List α) (item? : Nat → Text → Option α)
    (hstep : ∀ i raw, t.lines[i]? = some raw →
      part (t.reach (i + 1)) = part (t.reach i) ++ (item? i raw).toList)
    {i : Nat} (hi : i ≤ t.lines.length) :
    part (t.reach i) =
      part (t.reach 0) ++ (Line.before t.lines i).filterMap fun p => item? p.2 p.1 := by
  refine Line.place_induction (P := fun i => part (t.reach i) =
    part (t.reach 0) ++ (Line.before t.lines i).filterMap fun p => item? p.2 p.1) ?_ ?_ hi
  · simp [Line.before]
  · intro j raw hraw ih
    rw [hstep j raw hraw, ih, Line.before_succ hraw, List.filterMap_append, List.append_assoc]
    cases hitem : item? j raw with
    | none => simp [hitem]
    | some item => simp [hitem]

theorem words_reach {i : Nat} (hi : i ≤ t.lines.length) :
    (t.reach i).output.words =
      (Line.before t.lines i).filterMap fun p => t.word? p.2 p.1 := by
  refine part_reach (fun g => g.output.words) t.word? ?_ hi
  intro j raw hraw
  rw [reach_succ t hraw, words_apply]
  rfl

theorem listing_reach {i : Nat} (hi : i ≤ t.lines.length) :
    (t.reach i).output.listing =
      (Line.before t.lines i).filterMap fun p => t.listingLine? p.2 p.1 := by
  refine part_reach (fun g => g.output.listing) t.listingLine? ?_ hi
  intro j raw hraw
  rw [reach_succ t hraw, listing_apply]
  rfl

theorem load_reach {i : Nat} (hi : i ≤ t.lines.length) :
    (t.reach i).output.load =
      (Line.before t.lines i).filterMap fun p => (t.word? p.2 p.1).map Word.loadText := by
  refine part_reach (fun g => g.output.load) (fun i raw => (t.word? i raw).map Word.loadText) ?_ hi
  intro j raw hraw
  rw [reach_succ t hraw, load_apply]
  rfl

theorem errors_reach {i : Nat} (hi : i ≤ t.lines.length) :
    (t.reach i).report.errors =
      t.report.errors ++ (Line.before t.lines i).filterMap fun p => t.diagnostic? p.2 p.1 := by
  refine part_reach (fun g => g.report.errors) t.diagnostic? ?_ hi
  intro j raw hraw
  rw [reach_succ t hraw, errors_apply]
  rfl

theorem warnings_reach {i : Nat} (hi : i ≤ t.lines.length) :
    (t.reach i).report.warnings =
      t.report.warnings ++ (Line.before t.lines i).filterMap fun p => t.warning? p.2 p.1 := by
  refine part_reach (fun g => g.report.warnings) t.warning? ?_ hi
  intro j raw hraw
  rw [reach_succ t hraw, warnings_apply]
  rfl

end Task

end Generation

end TwoPass
