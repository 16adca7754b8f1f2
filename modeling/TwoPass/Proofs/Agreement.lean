import TwoPass.Proofs.Resolution

/-!
# When the passes agree

A run without diagnostics and warnings looks as if labels could be trusted: a rejected statement has
left a diagnostic, and a statement that is not encoded because it stands behind a label has left a
warning. One thing leaves no trace. The second pass ends a line at the end marker and says nothing about
what follows, while the first pass reads it like the statement behind any label. Such a line is a
`HiddenMove` if what follows the end marker takes the counter elsewhere.

In a run that reports nothing, hidden moves are all that can separate the passes: the counters agree at
every line exactly if no line but the last hides a move, and then every label is bound to the counter
that the second pass has at the last line carrying it (`Assembly.agreement_of_nothing_reported`).
`Assembly.hidden_move_unreported` is a run that reports nothing and has a label with a wrong address.
-/

namespace TwoPass

/-! ## Runs that report nothing -/

namespace Generation.Task

variable {t : Task} {i : Nat} {raw : Text}

theorem diagnostic?_eq_none (herrors : t.result.report.errors = []) (h : t.lines[i]? = some raw) :
    t.diagnostic? i raw = none := by
  rw [report_result, errors_reach (Nat.le_refl _), List.append_eq_nil_iff,
    List.filterMap_eq_nil_iff] at herrors
  exact herrors.2 (raw, i) (Line.mem_before_length h)

theorem warning?_eq_none (hwarnings : t.result.report.warnings = []) (h : t.lines[i]? = some raw) :
    t.warning? i raw = none := by
  rw [report_result, warnings_reach (Nat.le_refl _), List.append_eq_nil_iff,
    List.filterMap_eq_nil_iff] at hwarnings
  exact hwarnings.2 (raw, i) (Line.mem_before_length h)

/-- If nothing is reported, every statement that allocates a word has it emitted, unless it stands
behind the end marker. -/
theorem emitsFor_of_nothing_reported (herrors : t.result.report.errors = [])
    (hwarnings : t.result.report.warnings = []) {r : Reading}
    (h : (Reading.ofLines t.lines)[i]? = some r) (ha : r.allocates = true)
    (hf : r.isFinish = false) : t.emitsFor i r = true := by
  obtain ⟨raw, hraw, hr⟩ := Reading.ofLines_getElem?_eq_some.mp h
  have hdiagnostic := diagnostic?_eq_none herrors hraw
  have hwarning := warning?_eq_none hwarnings hraw
  cases r with
  | inert => cases ha
  | finish label behind => cases hf
  | labelled label behind =>
    -- the dropped statement would have left a warning
    rw [warning?, treatment_eq, hr, Reading.treatment] at hwarning
    have horigin : behind.bind Statement.origin? = none := Reading.origin?_of_allocates ha
    obtain ⟨address, ho, -⟩ | ⟨warning, -, hsome, ht⟩ | ⟨fault, -, hnot, -⟩ :=
      Treatment.ofBehind_cases t.file (i + 1) (Text.trim raw) label behind
    · rw [horigin] at ho
      cases ho
    · rw [ht] at hwarning
      exact absurd hwarning (hsome ha)
    · exact absurd (ha.symm.trans hnot) Bool.noConfusion
  | bare s =>
    -- the rejected operand would have left a diagnostic
    rw [← Bool.not_eq_false, emitsFor_bare_iff hraw hr ha]
    rintro ⟨fault, hgrown⟩
    rw [reach_succ t hraw, errors_apply] at hgrown
    rw [diagnostic?] at hdiagnostic
    rw [hdiagnostic] at hgrown
    exact List.cons_ne_nil _ _ (List.append_cancel_left hgrown).symm

end Generation.Task

/-! ## Agreement -/

namespace Assembly

/-- The line at a place is headed by the end marker, and what follows the marker would take the second
counter elsewhere: past a word, or to the address of an origin directive. -/
def HiddenMove (a : Assembly) (i : Nat) : Prop :=
  ∃ r, (Reading.ofLines a.lines)[i]? = some r ∧ r.isFinish = true ∧
    r.next (a.counter₂ i) ≠ a.counter₂ i

instance (a : Assembly) (i : Nat) : Decidable (a.HiddenMove i) :=
  decidable_of_iff ((Reading.ofLines a.lines)[i]?.any fun r =>
      r.isFinish && decide (r.next (a.counter₂ i) ≠ a.counter₂ i)) (by
    simp only [Option.any_eq_true, Bool.and_eq_true, decide_eq_true_eq, HiddenMove])

variable {a : Assembly}

/-- A hidden move separates counters that have been together. -/
theorem counter_ne_of_hiddenMove {i : Nat} (h : a.HiddenMove i)
    (heq : a.counter₁ i = a.counter₂ i) : a.counter₁ (i + 1) ≠ a.counter₂ (i + 1) := by
  obtain ⟨r, hr, hfinish, hmoves⟩ := h
  rw [counter₁_succ hr, counter₂_succ hr, if_pos hfinish, heq]
  exact hmoves

/-- If nothing is reported, a line without a hidden move keeps the counters together. -/
theorem counter_eq_succ (herrors : a.second.result.report.errors = [])
    (hwarnings : a.second.result.report.warnings = []) {i : Nat} (hi : i < a.lines.length)
    (hmove : ¬ a.HiddenMove i) (heq : a.counter₁ i = a.counter₂ i) :
    a.counter₁ (i + 1) = a.counter₂ (i + 1) := by
  obtain ⟨r, hr⟩ : ∃ r, (Reading.ofLines a.lines)[i]? = some r :=
    ⟨_, Reading.ofLines_getElem?_eq_some.mpr ⟨_, List.getElem?_eq_getElem hi, rfl⟩⟩
  have hdrift : a.drift i = 0 := Int.sub_eq_zero.mpr heq
  by_cases hf : r.isFinish = true
  · -- the second counter stays, and the first has nowhere to go
    rw [counter₁_succ hr, counter₂_succ hr, if_pos hf, heq]
    refine Decidable.byContradiction ?_
    intro hmoves
    exact hmove ⟨r, hr, hf, hmoves⟩
  · refine Int.sub_eq_zero.mp (?_ : a.drift (i + 1) = 0)
    rw [Bool.not_eq_true] at hf
    cases ho : r.origin? with
    | some address => exact drift_succ_of_origin? hr ho hf
    | none =>
      rw [drift_succ_of_emitsFor hr ho ?_, hdrift]
      intro ha
      exact Generation.Task.emitsFor_of_nothing_reported (t := a.second) herrors hwarnings hr ha hf

/-- If nothing is reported, the counters agree at every line exactly if no line but the last hides a
move. -/
theorem counter_eq_iff (herrors : a.second.result.report.errors = [])
    (hwarnings : a.second.result.report.warnings = []) :
    (∀ i, i < a.lines.length → a.counter₁ i = a.counter₂ i) ↔
      ∀ i, i + 1 < a.lines.length → ¬ a.HiddenMove i := by
  constructor
  · intro heq i hi hmove
    exact counter_ne_of_hiddenMove hmove (heq i (by omega)) (heq (i + 1) hi)
  · intro hmoves i
    induction i with
    | zero =>
      intro _
      rw [counter₁_zero, counter₂_zero]
    | succ i ih =>
      intro hi
      exact counter_eq_succ herrors hwarnings (by omega) (hmoves i hi) (ih (by omega))

/-- **Agreement of the passes**. If the assembly of a text reports neither errors nor warnings, then
the counters agree at every line exactly if no line but the last hides a move behind the end marker. In
that case exactly the labels are bound, each to the counter that the second pass has at the last line
carrying it. -/
theorem agreement_of_nothing_reported (source : Text) (file : SourceName)
    (herrors : (assembleText source file).1.report.errors = [])
    (hwarnings : (assembleText source file).1.report.warnings = []) :
    let a := ofText source file
    ((∀ i, i < a.lines.length → a.counter₁ i = a.counter₂ i) ↔
      ∀ i, i + 1 < a.lines.length → ¬ a.HiddenMove i) ∧
    ((∀ i, i + 1 < a.lines.length → ¬ a.HiddenMove i) →
      ∀ name address, (assembleText source file).1.symbols.resolve? name = some address ↔
        ∃ i, Layout.LastCarrier a.lines name i ∧ a.counter₂ i = address) := by
  intro a
  rw [assembleText_eq] at herrors hwarnings ⊢
  have hiff := counter_eq_iff (a := a) herrors hwarnings
  refine ⟨hiff, ?_⟩
  intro hmoves name address
  have heq := hiff.mpr hmoves
  refine Iff.trans (Survey.Task.resolve?_result_eq_some_iff (t := a.first) rfl) ?_
  constructor
  · rintro ⟨i, hlast, haddress⟩
    exact ⟨i, hlast, (heq i hlast.1.lt_length).symm.trans haddress⟩
  · rintro ⟨i, hlast, haddress⟩
    exact ⟨i, hlast, (heq i hlast.1.lt_length).trans haddress⟩

/-- A text with a label in front of an origin directive, a reference ahead and an end marker that hides
a word on the last line, where it does no harm. -/
theorem agreement_of_hidden_last_line :
    let source := "Start: LOC 6\nDATA Table\nTable:\nDATA 7\nEnd: HLT\n".toList
    let a := ofText source .input
    let run := (assembleText source .input).1
    (run.report.errors = [] ∧ run.report.warnings = []) ∧
      (∀ i, i < a.lines.length → a.counter₁ i = a.counter₂ i) ∧
      ∀ name address, run.symbols.resolve? name = some address ↔
        ∃ i, Layout.LastCarrier a.lines name i ∧ a.counter₂ i = address := by
  intro source a run
  have herrors : run.report.errors = [] := by decide
  have hwarnings : run.report.warnings = [] := by decide
  have hmoves : ∀ i, i + 1 < a.lines.length → ¬ a.HiddenMove i := by
    have hlength : a.lines.length = 5 := by decide
    have hall : ∀ i, i < 4 → ¬ a.HiddenMove i := by decide
    intro i hi
    exact hall i (by omega)
  obtain ⟨hcounters, hsymbols⟩ := agreement_of_nothing_reported source .input herrors hwarnings
  exact ⟨⟨herrors, hwarnings⟩, hcounters.mpr hmoves, hsymbols hmoves⟩

/-- **Silence is not agreement**. Nothing is reported about this text, yet the instruction behind the end
marker has moved the first counter alone, and the label on the next line is bound to an address at which
the second pass never was. -/
theorem hidden_move_unreported :
    let source := "End: HLT\nX:\n".toList
    let a := ofText source .input
    let run := (assembleText source .input).1
    (run.report.errors = [] ∧ run.report.warnings = []) ∧
      (1 < a.lines.length ∧ a.counter₁ 1 = 1 ∧ a.counter₂ 1 = 0) ∧
      Layout.LastCarrier a.lines "X".toList 1 ∧ run.symbols.resolve? "X".toList = some 1 := by
  decide

end Assembly

end TwoPass
