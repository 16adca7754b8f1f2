import TwoPass.Proofs.Gist

/-!
# Idle lines do not matter

Some lines do nothing but stand there: blank lines and comments, statements whose head is no keyword, and
origin directives whose operand is refused. Such a line is *idle*. It may leave a diagnostic, but it
binds no label, moves no counter and emits no word.

A `Padding` is a source in which some idle lines are marked as additions. It stands for two sources: the
`full` one with the additions and the `core` without them. Read from the core to the full source it says
which lines are inserted, and read the other way which lines are deleted. Both passes reach the line at
a place of the full source in the state in which they reach the line at its `rank` in the core, which is
the number of core lines before it (`Padding.first_reach`, `Padding.counter_second`). So the results
are the same, but for the numbers of lines (`Padding.number`) and what is reported about the additions
themselves (`Assembly.idle_lines_irrelevant`).
-/

namespace TwoPass

/-! ## Idle lines -/

/-- Is the line blank, a comment, an unlabelled statement whose head is no keyword, or an unlabelled
origin directive whose operand is missing or refused? -/
def Reading.isIdle : Reading → Bool
  | inert => true
  | bare s =>
    match s.keyword? with
    | none => true
    | some .origin => s.origin?.isNone
    | some _ => false
  | labelled .. | finish .. => false

/-- Is the source line idle? -/
def Line.isIdle (raw : Text) : Bool := (Reading.ofLine (Text.trim raw)).isIdle

namespace Reading

variable {r : Reading} (h : r.isIdle = true)

include h

theorem label?_of_isIdle : r.label? = none := by
  cases r with
  | inert => rfl
  | bare s => rfl
  | labelled label behind => cases h
  | finish label behind => cases h

/-- An idle line leaves the counter of the first pass where it is. -/
theorem next_of_isIdle (counter : Int) : r.next counter = counter := by
  cases r with
  | inert => rfl
  | labelled label behind => cases h
  | finish label behind => cases h
  | bare s =>
    simp only [isIdle] at h
    simp only [Reading.next, origin?_bare, allocates_bare]
    split at h
    · next hk => simp [Statement.origin?, Statement.allocates, hk]
    · next hk =>
      rw [Option.isNone_iff_eq_none] at h
      simp [h, Statement.allocates, hk, Keyword.allocates]
    · cases h

/-- The second pass lists an idle line or rejects it. -/
theorem effect_of_isIdle (symbols : SymbolTable) :
    r.gist.effect symbols = .listed ∨ ∃ kind, r.gist.effect symbols = .rejected kind := by
  cases r with
  | inert => exact .inl rfl
  | labelled label behind => cases h
  | finish label behind => cases h
  | bare s =>
    refine .inr ?_
    simp only [isIdle] at h
    split at h
    · next hk => exact ⟨.instruction, by simp [gist, Statement.gist?, hk, Gist.effect]⟩
    · next hk =>
      rw [Option.isNone_iff_eq_none, Statement.origin?, if_pos hk,
        Treatment.toOption_originAddress_eq] at h
      refine ⟨.operand, ?_⟩
      simp [gist, Statement.gist?, hk, Gist.effect, Statement.Gist.effect, h, Effect.ofAddress]
    · cases h

theorem next_effect_of_isIdle (symbols : SymbolTable) (counter : Int) :
    (r.gist.effect symbols).next counter = counter := by
  obtain heffect | ⟨kind, heffect⟩ := effect_of_isIdle h symbols
  · rw [heffect]
    rfl
  · rw [heffect]
    rfl

theorem word?_effect_of_isIdle (symbols : SymbolTable) (address : Int) (number : Nat) (line : Text) :
    (r.gist.effect symbols).word? address number line = none := by
  obtain heffect | ⟨kind, heffect⟩ := effect_of_isIdle h symbols
  · rw [heffect]
    rfl
  · rw [heffect]
    rfl

theorem note?_of_isIdle (number : Nat) : r.note? number = none := by
  cases r with
  | inert => rfl
  | bare s => rfl
  | labelled label behind => cases h
  | finish label behind => cases h

end Reading

/-! ## Renumbering -/

/-- The word with its line number replaced. -/
def Word.renumber (f : Nat → Nat) (w : Word) : Word := { w with line := f w.line.toNat }

/-- The diagnostic with its line number replaced. -/
def Diagnostic.renumber (f : Nat → Nat) (d : Diagnostic) : Diagnostic :=
  { d with location := d.location.map fun l => { l with line := f l.line.toNat } }

/-- The note with its line number replaced. -/
def Note.renumber (f : Nat → Nat) (n : Note) : Note := { n with number := f n.number }

section Renumber

variable (f : Nat → Nat) (symbols : SymbolTable) (file : SourceName) (number : Nat) (line : Text)

theorem Effect.word?_renumber (e : Effect) (address : Int) :
    e.word? address (f number) line = (e.word? address number line).map (Word.renumber f) := by
  cases e <;> rfl

theorem Treatment.diagnostic?_orReject_renumber (value : Except Operand.Fault Int)
    {carryOut : Int → Treatment} (h : ∀ n, (carryOut n).diagnostic? = none) :
    (orReject file (f number) line (value.map carryOut)).diagnostic? =
      (orReject file number line (value.map carryOut)).diagnostic?.map (Diagnostic.renumber f) := by
  cases value with
  | error fault => rfl
  | ok n =>
    change (carryOut n).diagnostic? = (carryOut n).diagnostic?.map _
    rw [h n]
    rfl

/-- What is diagnosed about a line is the same under another number. -/
theorem Reading.diagnostic?_renumber (r : Reading) :
    (r.treatment symbols file (f number) line).diagnostic? =
      (r.treatment symbols file number line).diagnostic?.map (Diagnostic.renumber f) := by
  rcases r with _ | s | ⟨label, _ | s⟩ | _
  · rfl
  · simp only [treatment, Treatment.ofBare]
    rcases s.keyword? with _ | _ | _ | _ | m
    · rfl
    · exact Treatment.diagnostic?_orReject_renumber f file number line _ fun _ => rfl
    · exact Treatment.diagnostic?_orReject_renumber f file number line _ fun _ => rfl
    · rfl
    · exact Treatment.diagnostic?_orReject_renumber f file number line _ fun _ => rfl
  · rfl
  · simp only [treatment, Treatment.ofBehind]
    rcases s.keyword? with _ | _ | _ | _ | m
    · rfl
    · exact Treatment.diagnostic?_orReject_renumber f file number line _ fun _ => rfl
    all_goals rfl
  · rfl

theorem Reading.note?_renumber (r : Reading) :
    r.note? (f number) = (r.note? number).map (Note.renumber f) := by
  rcases r with _ | s | ⟨label, _ | s⟩ | _
  · rfl
  · rfl
  · rfl
  · simp only [note?]
    rcases s.keyword? with _ | _ | _ | _ | m <;> rfl
  · rfl

end Renumber

/-! ## Paddings -/

/-- A source in which some idle lines are marked as additions. -/
structure Padding where
  /-- the lines, each with whether it is an addition -/
  marked : List (Text × Bool)
  /-- every addition is idle -/
  idle : ∀ line ∈ marked, line.2 = true → Line.isIdle line.1 = true

namespace Padding

variable (p : Padding)

/-- The source with the additions. -/
def full : List Text := p.marked.map Prod.fst

/-- The lines of the full source that belong to the core, with their places there. -/
def kept : List ((Text × Bool) × Nat) := p.marked.zipIdx.filter fun q => !q.1.2

/-- The source without the additions. -/
def core : List Text := (p.marked.filter fun q => !q.2).map Prod.fst

/-- The number that a line of the core has in the full source. -/
def number (n : Nat) : Nat := ((p.kept[n - 1]?).map Prod.snd).getD 0 + 1

/-- Is the line of this number in the full source an addition? -/
def isAddition (n : Int) : Bool := (p.marked[n.toNat - 1]?).any Prod.snd

/-- Is the diagnostic about a line of the core? -/
def isAboutCore (d : Diagnostic) : Bool := d.location.all fun l => !p.isAddition l.line

/-- How many lines of the core stand before a place of the full source. -/
def rank (j : Nat) : Nat := (p.marked.take j).countP fun q => !q.2

variable {p} {j : Nat} {raw : Text}

theorem exists_marked (h : p.full[j]? = some raw) : ∃ mark, p.marked[j]? = some (raw, mark) := by
  rw [full, List.getElem?_map, Option.map_eq_some_iff] at h
  obtain ⟨⟨_, mark⟩, hmarked, rfl⟩ := h
  exact ⟨mark, hmarked⟩

theorem isIdle_of_marked (h : p.marked[j]? = some (raw, true)) : Line.isIdle raw = true :=
  p.idle (raw, true) (List.mem_of_getElem? h) rfl

theorem rank_succ {mark : Bool} (h : p.marked[j]? = some (raw, mark)) :
    p.rank (j + 1) = if mark then p.rank j else p.rank j + 1 := by
  rw [rank, List.take_add_one, h, List.countP_append]
  cases mark with
  | true => rfl
  | false => rfl

theorem rank_length : p.rank p.full.length = p.core.length := by
  rw [rank, full, List.length_map, List.take_length, core, List.length_map,
    List.countP_eq_length_filter]

/-- The lines of the core are kept in order, each at its rank. -/
theorem kept_rank (h : p.marked[j]? = some (raw, false)) :
    p.kept[p.rank j]? = some ((raw, false), j) := by
  obtain ⟨hlt, hget⟩ := List.getElem?_eq_some_iff.mp h
  have hsplit : p.marked = p.marked.take j ++ (raw, false) :: p.marked.drop (j + 1) := by
    rw [← hget, List.getElem_cons_drop, List.take_append_drop]
  have hlength : (p.marked.take j).length = j := by
    rw [List.length_take]
    omega
  have hbefore : ((p.marked.take j).zipIdx.filter fun q => !q.1.2).length = p.rank j := by
    have hcount := List.countP_map (p := fun q : Text × Bool => !q.2) (f := Prod.fst)
      (l := (p.marked.take j).zipIdx)
    rw [List.zipIdx_map_fst] at hcount
    rw [rank, hcount, List.countP_eq_length_filter]
    rfl
  have hkept : p.kept = ((p.marked.take j).zipIdx.filter fun q => !q.1.2) ++
      ((raw, false), j) :: ((p.marked.drop (j + 1)).zipIdx (j + 1)).filter fun q => !q.1.2 := by
    calc p.kept
      _ = ((p.marked.take j ++ (raw, false) :: p.marked.drop (j + 1)).zipIdx.filter
            fun q => !q.1.2) := congrArg (fun l => l.zipIdx.filter fun q => !q.1.2) hsplit
      _ = _ := by
        rw [List.zipIdx_append, List.filter_append, List.zipIdx_cons, hlength, Nat.zero_add]
        rfl
  rw [hkept, ← hbefore, List.getElem?_append_right (Nat.le_refl _), Nat.sub_self]
  rfl

theorem core_eq : p.core = p.kept.map fun q => q.1.1 := by
  calc p.core
    _ = ((p.marked.zipIdx.map Prod.fst).filter fun q => !q.2).map Prod.fst := by
      rw [List.zipIdx_map_fst]
      rfl
    _ = _ := by
      rw [List.filter_map, List.map_map]
      rfl

theorem core_rank (h : p.marked[j]? = some (raw, false)) : p.core[p.rank j]? = some raw := by
  rw [core_eq, List.getElem?_map, kept_rank h]
  rfl

theorem number_rank (h : p.marked[j]? = some (raw, false)) : p.number (p.rank j + 1) = j + 1 := by
  rw [number, Nat.add_sub_cancel, kept_rank h]
  rfl

/-- Items that only the lines of the core yield are those of the core. -/
theorem filterMap_full {α : Type} {f g : Nat → Text → Option α}
    (hadded : ∀ j raw, p.marked[j]? = some (raw, true) → f j raw = none)
    (hkept : ∀ j raw, p.marked[j]? = some (raw, false) → f j raw = g (p.rank j) raw)
    (hj : j ≤ p.full.length) :
    ((Line.before p.full j).filterMap fun q => f q.2 q.1) =
      (Line.before p.core (p.rank j)).filterMap fun q => g q.2 q.1 := by
  refine Line.place_induction (P := fun j => ((Line.before p.full j).filterMap fun q => f q.2 q.1) =
    (Line.before p.core (p.rank j)).filterMap fun q => g q.2 q.1) (by simp [Line.before, rank]) ?_ hj
  intro j raw hraw ih
  obtain ⟨mark, hmarked⟩ := exists_marked hraw
  rw [Line.before_succ hraw, List.filterMap_append, ih, rank_succ hmarked]
  cases mark with
  | true => simp [hadded j raw hmarked]
  | false =>
    have hcore := core_rank hmarked
    simp only [Bool.false_eq_true, if_false, Line.before_succ hcore, List.filterMap_append,
      List.filterMap_cons, List.filterMap_nil, hkept j raw hmarked]

/-! ## Both passes -/

/-- The line at a place of the full source is an addition, or stands at its rank in the core. -/
theorem idle_or_core (h : p.full[j]? = some raw) :
    (Line.isIdle raw = true ∧ p.rank (j + 1) = p.rank j) ∨
      (p.core[p.rank j]? = some raw ∧ p.rank (j + 1) = p.rank j + 1) := by
  obtain ⟨_ | _, hmarked⟩ := exists_marked h
  · exact .inr ⟨core_rank hmarked, rank_succ hmarked⟩
  · exact .inl ⟨isIdle_of_marked hmarked, rank_succ hmarked⟩

/-- **The first pass does not see the additions**: it reaches a line with the symbols and the counter
that it has at the rank of the line in the core. -/
theorem first_reach (p : Padding) (symbols : SymbolTable) (file : SourceName)
    (hj : j ≤ p.full.length) :
    let t : Survey.Task := ⟨symbols, file, p.full⟩
    let u : Survey.Task := ⟨symbols, file, p.core⟩
    (t.reach j).symbols = (u.reach (p.rank j)).symbols ∧
      (t.reach j).counter.value = (u.reach (p.rank j)).counter.value := by
  intro t u
  refine Line.place_induction (P := fun j =>
    (t.reach j).symbols = (u.reach (p.rank j)).symbols ∧
      (t.reach j).counter.value = (u.reach (p.rank j)).counter.value) ⟨rfl, rfl⟩ ?_ hj
  intro j raw hraw ⟨ihsymbols, ihcounter⟩
  have hr : (Reading.ofLines t.lines)[j]? = some (.ofLine (Text.trim raw)) :=
    Reading.ofLines_getElem?_eq_some.mpr ⟨raw, hraw, rfl⟩
  rw [Survey.Task.symbols_reach_succ hr, Survey.Task.counter_reach_succ hr]
  rcases idle_or_core hraw with ⟨hidle, hrank⟩ | ⟨hcore, hrank⟩
  · rw [Reading.label?_of_isIdle hidle, Reading.next_of_isIdle hidle, hrank]
    exact ⟨ihsymbols, ihcounter⟩
  · have hr' : (Reading.ofLines u.lines)[p.rank j]? = some (.ofLine (Text.trim raw)) :=
      Reading.ofLines_getElem?_eq_some.mpr ⟨raw, hcore, rfl⟩
    rw [hrank, Survey.Task.symbols_reach_succ hr', Survey.Task.counter_reach_succ hr', ihsymbols,
      ihcounter]
    exact ⟨rfl, rfl⟩

/-- A diagnostic blames the line that it was recorded for. -/
theorem isAboutCore_of_marked {mark : Bool} (hmarked : p.marked[j]? = some (raw, mark))
    {t : Generation.Task} {d : Diagnostic} (hd : t.diagnostic? j raw = some d) :
    p.isAboutCore d = !mark := by
  obtain ⟨-, ⟨column, hplace⟩, -⟩ := Generation.Task.blames_of_diagnostic? hd
  rw [isAboutCore, hplace, Option.all_some, isAddition]
  change (!Option.any Prod.snd p.marked[j]?) = !mark
  rw [hmarked]
  rfl

section Second

variable {t u : Generation.Task} (hfull : t.lines = p.full) (hcore : u.lines = p.core)

include hfull hcore

/-- The place behind the last line of the full source has the rank of that behind the last line of the
core. -/
theorem rank_length_second : p.rank t.lines.length = u.lines.length := by
  rw [hfull, hcore, rank_length]

section Symbols

variable (hsymbols : t.symbols = u.symbols)

include hsymbols

/-- **The second pass does not see the additions**: it reaches a line with the counter that it has at
the rank of the line in the core. -/
theorem counter_second (hj : j ≤ t.lines.length) :
    (t.reach j).counter.value = (u.reach (p.rank j)).counter.value := by
  refine Line.place_induction (P := fun j =>
    (t.reach j).counter.value = (u.reach (p.rank j)).counter.value) rfl ?_ hj
  intro j raw hraw ih
  have hstep := Generation.Task.counter_reach_succ_effect hraw
  rw [hfull] at hraw
  rcases idle_or_core hraw with ⟨hidle, hrank⟩ | ⟨hline, hrank⟩
  · rw [hstep, hrank, Reading.next_effect_of_isIdle hidle]
    exact ih
  · rw [← hcore] at hline
    rw [hstep, hrank, Generation.Task.counter_reach_succ_effect hline, hsymbols, ih]

/-- The words of the full source are those of the core under their new numbers. -/
theorem words_second :
    t.result.output.words = u.result.output.words.map (Word.renumber p.number) := by
  rw [Generation.Task.output_result, Generation.Task.output_result,
    Generation.Task.words_reach (Nat.le_refl _), Generation.Task.words_reach (Nat.le_refl _),
    List.map_filterMap, ← rank_length_second hfull hcore, hfull, hcore]
  refine filterMap_full (f := t.word?)
    (g := fun i raw => (u.word? i raw).map (Word.renumber p.number)) ?_ ?_ (Nat.le_refl _)
  · intro j raw hmarked
    rw [Generation.Task.word?_eq]
    exact Reading.word?_effect_of_isIdle (isIdle_of_marked hmarked) ..
  · intro j raw hmarked
    have hj : j ≤ t.lines.length := by
      rw [hfull, full, List.length_map]
      exact Nat.le_of_lt (List.getElem?_eq_some_iff.mp hmarked).1
    rw [Generation.Task.word?_eq, Generation.Task.word?_eq, counter_second hfull hcore hsymbols hj,
      hsymbols, ← Effect.word?_renumber, number_rank hmarked]

/-- Of the diagnostics of the full source, those about lines of the core are those of the core under
their new numbers. -/
theorem errors_second (hfile : t.file = u.file) :
    ((Line.before t.lines t.lines.length).filterMap fun q => t.diagnostic? q.2 q.1).filter
        p.isAboutCore =
      ((Line.before u.lines u.lines.length).filterMap fun q => u.diagnostic? q.2 q.1).map
        (Diagnostic.renumber p.number) := by
  rw [List.filter_filterMap, List.map_filterMap, ← rank_length_second hfull hcore, hfull, hcore]
  refine filterMap_full (f := fun j raw => (t.diagnostic? j raw).filter p.isAboutCore)
    (g := fun i raw => (u.diagnostic? i raw).map (Diagnostic.renumber p.number)) ?_ ?_
    (Nat.le_refl _)
  · intro j raw hmarked
    rw [Option.filter_eq_none_iff]
    intro d hd
    simp [isAboutCore_of_marked hmarked hd]
  · intro j raw hmarked
    have hsame : t.diagnostic? j raw =
        (u.diagnostic? (p.rank j) raw).map (Diagnostic.renumber p.number) := by
      rw [Generation.Task.diagnostic?, Generation.Task.diagnostic?, Generation.Task.treatment_eq,
        Generation.Task.treatment_eq, ← Reading.diagnostic?_renumber, number_rank hmarked, hsymbols,
        hfile]
    rw [← hsame]
    cases hd : t.diagnostic? j raw with
    | none => rfl
    | some d => exact Option.filter_some_pos (isAboutCore_of_marked hmarked hd)

end Symbols

/-- The warnings of the full source are those of the core under their new numbers. -/
theorem notes_second : t.notes = u.notes.map (Note.renumber p.number) := by
  rw [Generation.Task.notes, Generation.Task.notes, List.map_filterMap,
    ← rank_length_second hfull hcore, hfull, hcore]
  refine filterMap_full (f := fun j raw => (Reading.ofLine (Text.trim raw)).note? (j + 1))
    (g := fun i raw => ((Reading.ofLine (Text.trim raw)).note? (i + 1)).map
      (Note.renumber p.number)) ?_ ?_ (Nat.le_refl _)
  · intro j raw hmarked
    exact Reading.note?_of_isIdle (isIdle_of_marked hmarked) (j + 1)
  · intro j raw hmarked
    rw [← Reading.note?_renumber, number_rank hmarked]

end Second

end Padding

/-! ## Programs -/

namespace Assembly

/-- **Idle lines do not matter**. Whether idle lines are put into a source or taken out of it, at
whatever places and however many, the table has the same names in the same order with the same
addresses, both counters end at the same addresses, the load file is the same, and the same words are
emitted for the same lines. Words, diagnostics and warnings of the other lines differ only by the new
numbers of those lines. -/
theorem idle_lines_irrelevant (p : Padding) (symbols : SymbolTable) (file : SourceName)
    (report : Report) (listing load : Bool) :
    let core : Assembly := ⟨symbols, file, report, listing, load, p.core⟩
    let full : Assembly := ⟨symbols, file, report, listing, load, p.full⟩
    full.first.result.symbols = core.first.result.symbols ∧
    full.first.result.counter = core.first.result.counter ∧
    full.second.result.counter = core.second.result.counter ∧
    full.second.result.output.loadText = core.second.result.output.loadText ∧
    full.second.result.output.words =
      core.second.result.output.words.map (Word.renumber p.number) ∧
    (∃ errors errors' : List Diagnostic,
      core.second.result.report.errors = report.errors ++ errors ∧
      full.second.result.report.errors = report.errors ++ errors' ∧
      errors'.filter p.isAboutCore = errors.map (Diagnostic.renumber p.number)) ∧
    ∃ notes : List Note,
      core.second.result.report.warnings = report.warnings ++ notes.map (Note.text file) ∧
      full.second.result.report.warnings =
        report.warnings ++ (notes.map (Note.renumber p.number)).map (Note.text file) := by
  intro core full
  obtain ⟨hsymbols, hcounter⟩ := p.first_reach symbols file (Nat.le_refl p.full.length)
  rw [Padding.rank_length] at hsymbols hcounter
  have hfirst : full.first.result.symbols = core.first.result.symbols := by
    rw [Survey.Task.symbols_result, Survey.Task.symbols_result]
    exact hsymbols
  have hwords : full.second.result.output.words =
      core.second.result.output.words.map (Word.renumber p.number) :=
    Padding.words_second (t := full.second) (u := core.second) rfl rfl hfirst
  refine ⟨hfirst, ?_, ?_, ?_, hwords, ?_, core.second.notes,
    Generation.Task.warnings_result _, ?_⟩
  · rw [Survey.Task.result_eq, Survey.Task.result_eq]
    exact congrArg LocationCounter.mk hcounter
  · have hsecond := Padding.counter_second (t := full.second) (u := core.second) rfl rfl hfirst
      (Nat.le_refl _)
    rw [Padding.rank_length_second (t := full.second) (u := core.second) rfl rfl] at hsecond
    rw [Generation.Task.result_eq, Generation.Task.result_eq]
    exact congrArg LocationCounter.mk hsecond
  · -- a load line does not show the number of its line
    refine congrArg endLines ?_
    rw [Generation.Task.load_result, Generation.Task.load_result, hwords, List.map_map]
    rfl
  · refine ⟨_, _, ?_, ?_, Padding.errors_second (t := full.second) (u := core.second) rfl rfl hfirst
      rfl⟩
    · rw [Generation.Task.report_result]
      exact Generation.Task.errors_reach (Nat.le_refl _)
    · rw [Generation.Task.report_result]
      exact Generation.Task.errors_reach (Nat.le_refl _)
  · rw [Generation.Task.warnings_result,
      Padding.notes_second (p := p) (t := full.second) (u := core.second) rfl rfl]
    rfl

/-- A comment, an unknown statement and a refused origin directive before, between and behind the lines
of a source with a forward reference, a rejected line and a warning. -/
theorem idle_lines_irrelevant_between :
    let p : Padding := ⟨[("; note".toList, true), ("DATA X".toList, false), ("FOO 1".toList, true),
      ("LDR x".toList, false), ("LOC 9x".toList, true), ("X: HLT".toList, false), ([], true)], by decide⟩
    let core : Assembly := ⟨.empty, .input, .empty, false, false, p.core⟩
    let full : Assembly := ⟨.empty, .input, .empty, false, false, p.full⟩
    core.second.result.output.words = [⟨0, 2, "DATA X".toList, 1⟩] ∧
      full.second.result.output.words =
        core.second.result.output.words.map (Word.renumber p.number) ∧
      full.second.result.output.words = [⟨0, 2, "DATA X".toList, 2⟩] ∧
      full.second.result.report.errors.map Diagnostic.kindAndLine =
        [(.instruction, some 3), (.operand, some 4), (.operand, some 5)] := by
  intro p core full
  obtain ⟨-, -, -, -, hwords, -⟩ := idle_lines_irrelevant p .empty .input .empty false false
  exact ⟨by decide, hwords, by decide, by decide⟩

end Assembly

end TwoPass
