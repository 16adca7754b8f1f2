import TwoPass.Proofs.Binding
import TwoPass.Proofs.Drift

/-!
# From labels to words

What an assembled text has to say about its symbols, from the label on a line to the word of a data
directive that names it.

* The table has the labels of the text and nothing else, and each has the address that the layout
  gives to the last line carrying it (`Binding`).
* A data directive has its value from the finished table, so a name is worth the same before and
  behind its label. A token that is no label is a decimal numeral of the 32-bit range, or the line is
  rejected (`Generation.Task.filter_line_words_of_dataValue`, `Generation.Task.rejects_of_dataValue`).
-/

namespace TwoPass

/-! ## Decimal operands -/

namespace Operand

/-- An operand is accepted exactly if it denotes a number of the 32-bit range. -/
theorem parse_eq_ok_iff {t : Text} {value : Int} :
    parse t = .ok value ↔ literal? t = some value ∧ least ≤ value ∧ value ≤ greatest := by
  rw [parse]
  by_cases hempty : t.isEmpty = true
  · -- the empty text denotes no number either
    obtain rfl := List.isEmpty_iff.mp hempty
    constructor
    · intro h
      cases h
    · rintro ⟨h, -⟩
      cases h
  · rw [if_neg hempty]
    cases literal? t with
    | none => simp
    | some n =>
      by_cases hrange : least ≤ n ∧ n ≤ greatest
      · simp only [if_pos hrange, Except.ok.injEq, Option.some.injEq]
        constructor
        · rintro rfl
          exact ⟨rfl, hrange⟩
        · exact fun h => h.1
      · simp only [if_neg hrange, Option.some.injEq, reduceCtorEq, false_iff]
        rintro ⟨rfl, h⟩
        exact hrange h

/-- A fault has the refused operand. -/
theorem operand_of_parse {t : Text} {fault : Fault} (h : parse t = .error fault) :
    fault.operand = t := by
  rw [parse] at h
  split at h
  · next hempty =>
    cases h
    exact (List.isEmpty_iff.mp hempty).symm
  · split at h
    · cases h
      rfl
    · split at h
      · cases h
      · cases h
        rfl

end Operand

/-! ## Data directives -/

namespace Generation.Task

section Data

variable {t : Task} {i : Nat} {raw : Text} {s : Statement}

theorem treatment_of_data (hr : Reading.ofLine (Text.trim raw) = .bare s)
    (hk : s.keyword? = some .data) :
    t.treatment i raw = .orReject t.file (i + 1) (Text.trim raw)
      ((Treatment.dataValue t.symbols s.tail).map (.emitted · true)) := by
  rw [treatment_eq, hr, Reading.treatment, Treatment.ofBare, hk]
  rfl

/-- A data directive that has a value emits it, at the address that the second counter has there. -/
theorem filter_line_words_of_dataValue (h : t.lines[i]? = some raw)
    (hr : Reading.ofLine (Text.trim raw) = .bare s) (hk : s.keyword? = some .data) {value : Int}
    (hvalue : Treatment.dataValue t.symbols s.tail = .ok value) :
    (t.result.output.words.filter fun w : Word => w.line = i + 1) =
      [⟨(t.reach i).counter.value, value, Text.trim raw, i + 1⟩] := by
  rw [filter_line_words h, word?, treatment_of_data hr hk, hvalue]
  rfl

/-- A data directive without a value emits nothing and is reported. -/
theorem rejects_of_dataValue (h : t.lines[i]? = some raw)
    (hr : Reading.ofLine (Text.trim raw) = .bare s) (hk : s.keyword? = some .data)
    {fault : Operand.Fault} (hfault : Treatment.dataValue t.symbols s.tail = .error fault) :
    (t.result.output.words.filter fun w : Word => w.line = i + 1) = [] ∧
      .rejectedOperand t.file (i + 1) (Text.trim raw) fault ∈ t.result.report.errors := by
  have htreatment : t.treatment i raw =
      .rejected (.rejectedOperand t.file (i + 1) (Text.trim raw) fault) := by
    rw [treatment_of_data hr hk, hfault]
    rfl
  constructor
  · rw [filter_line_words h, word?, htreatment]
    rfl
  · rw [report_result, errors_reach (Nat.le_refl _)]
    refine List.mem_append_right _ (List.mem_filterMap.mpr ⟨(raw, i), ?_, ?_⟩)
    · exact Line.mem_before_length h
    · exact Treatment.diagnostic?_eq_some_iff.mpr htreatment

end Data

end Generation.Task

/-! ## The whole text -/

/-- The words that a run has emitted for the line at a place. -/
def Run.wordsAt (run : Run) (i : Nat) : List Word :=
  run.output.words.filter fun w : Word => w.line = i + 1

namespace Assembly

/-- In an assembled text exactly the labels are bound, each to the layout address of the last line that
carries it. -/
theorem resolve?_ofText_eq_some_iff {source : Text} {file : SourceName} {name : Text}
    {address : Int} :
    (ofText source file).first.result.symbols.resolve? name = some address ↔
      ∃ i, Layout.LastCarrier (Text.textLines source) name i ∧
        Layout.address ((Reading.ofLines (Text.textLines source)).take i) = address := by
  rw [Survey.Task.resolve?_result_eq_some_iff rfl]
  constructor
  · rintro ⟨i, hlast, haddress⟩
    rw [Survey.Task.counter_reach (Nat.le_of_lt hlast.1.lt_length)] at haddress
    exact ⟨i, hlast, haddress⟩
  · rintro ⟨i, hlast, haddress⟩
    refine ⟨i, hlast, ?_⟩
    rw [Survey.Task.counter_reach (Nat.le_of_lt hlast.1.lt_length)]
    exact haddress

/-- In an assembled text the names are the labels, each at its first occurrence. -/
theorem names_ofText {source : Text} {file : SourceName} :
    (ofText source file).first.result.symbols.names =
      (Layout.labels (Reading.ofLines (Text.textLines source))).eraseDups := by
  have hlength : (Reading.ofLines (Text.textLines source)).length =
      (ofText source file).first.lines.length := List.length_map _
  rw [Survey.Task.symbols_result, Survey.Task.names_reach (Nat.le_refl _), ← hlength]
  exact congrArg (fun before => (Layout.labels before).eraseDups) List.take_length

/-- A token that is a label has the value of the label. -/
theorem dataValue_of_lastCarrier {source : Text} {file : SourceName} {tail : Option Text} {j : Nat}
    (hj : Layout.LastCarrier (Text.textLines source) (Treatment.dataToken tail) j) :
    Treatment.dataValue (ofText source file).second.symbols tail =
      .ok (Layout.address ((Reading.ofLines (Text.textLines source)).take j)) := by
  have hbound : (ofText source file).second.symbols.resolve? (Treatment.dataToken tail) =
      some (Layout.address ((Reading.ofLines (Text.textLines source)).take j)) :=
    resolve?_ofText_eq_some_iff.mpr ⟨j, hj, rfl⟩
  rw [Treatment.dataValue, hbound]

/-- A token that is no label is read as an operand. -/
theorem dataValue_of_not_mem_labels {source : Text} {file : SourceName} {tail : Option Text}
    (hfree : Treatment.dataToken tail ∉ Layout.labels (Reading.ofLines (Text.textLines source))) :
    Treatment.dataValue (ofText source file).second.symbols tail =
      Operand.parse (Treatment.dataToken tail) := by
  have hunbound : (ofText source file).second.symbols.resolve? (Treatment.dataToken tail) = none := by
    rw [Option.eq_none_iff_forall_ne_some]
    intro address haddress
    obtain ⟨j, hj, -⟩ := resolve?_ofText_eq_some_iff.mp haddress
    exact hfree (Layout.mem_labels_iff.mpr ⟨j, hj.1⟩)
  rw [Treatment.dataValue, hunbound]

end Assembly

end TwoPass
