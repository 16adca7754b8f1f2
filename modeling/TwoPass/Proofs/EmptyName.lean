import TwoPass.Proofs.Listing
import TwoPass.Proofs.Resolution

/-!
# The empty name

A data directive takes the first token of its operand. If there is none, the token is the empty text
(`Treatment.dataToken_of_stripComment`), and like any other it is looked up among the labels before it is
read as a number. The empty text denotes no number, so a directive without an operand is rejected as long
as the empty text is no label.

It can be one: the label on a line that starts with a lone colon is empty. One such line anywhere in the
text, before or behind the directive, turns the missing operand into the address of that line
(`Assembly.data_without_operand`). `Assembly.lone_colon_as_operand` is a case in point.
-/

namespace TwoPass

/-- A data directive without an operand has the empty token. -/
theorem Treatment.dataToken_of_stripComment {tail : Option Text}
    (h : Line.stripComment (tail.getD []) = []) : dataToken tail = [] := by
  rw [dataToken, h]
  rfl

/-- A data directive that has a value is not reported. -/
theorem Generation.Task.hasErrorAt_of_dataValue {t : Task} {i : Nat} {raw : Text} {s : Statement}
    (hreport : t.report.errors = []) (h : t.lines[i]? = some raw)
    (hr : Reading.ofLine (Text.trim raw) = .bare s) (hk : s.keyword? = some .data) {value : Int}
    (hvalue : Treatment.dataValue t.symbols s.tail = .ok value) :
    t.result.report.hasErrorAt (i + 1) = false := by
  rw [hasErrorAt_result hreport h, diagnostic?, treatment_of_data hr hk, hvalue]
  rfl

namespace Assembly

section Data

variable {source : Text} {file : SourceName} {i : Nat} {raw : Text} {s : Statement}
  (hraw : (Text.textLines source)[i]? = some raw) (hreading : Reading.ofLine (Text.trim raw) = .bare s)
  (hdata : s.keyword? = some .data) (hmissing : Line.stripComment (s.tail.getD []) = [])

include hraw hreading hdata hmissing

/-- If no line carries the empty label, the directive emits nothing and its operand is reported as
missing. -/
theorem rejects_of_not_carries (hfree : ∀ j, ¬ Layout.Carries (Text.textLines source) [] j) :
    (assembleText source file).1.wordsAt i = [] ∧
      .rejectedOperand file (i + 1) (Text.trim raw) .missing ∈
        (assembleText source file).1.report.errors := by
  have htoken := Treatment.dataToken_of_stripComment hmissing
  have hvalue : Treatment.dataValue (ofText source file).second.symbols s.tail = .error .missing := by
    rw [dataValue_of_not_mem_labels, htoken]
    · rfl
    · rw [htoken, Layout.mem_labels_iff]
      rintro ⟨j, hj⟩
      exact hfree j hj
  exact Generation.Task.rejects_of_dataValue hraw hreading hdata hvalue

/-- If a line carries the empty label, the directive emits the address of the last such line, and nothing
is reported about it. -/
theorem emits_of_lastCarrier {j : Nat} (hlast : Layout.LastCarrier (Text.textLines source) [] j) :
    (assembleText source file).1.wordsAt i =
        [⟨(ofText source file).counter₂ i,
          Layout.address ((Reading.ofLines (Text.textLines source)).take j), Text.trim raw, i + 1⟩] ∧
      (assembleText source file).1.report.hasErrorAt (i + 1) = false := by
  rw [← Treatment.dataToken_of_stripComment hmissing] at hlast
  have hvalue : Treatment.dataValue (ofText source file).second.symbols s.tail = .ok _ :=
    dataValue_of_lastCarrier hlast
  exact ⟨Generation.Task.filter_line_words_of_dataValue hraw hreading hdata hvalue,
    Generation.Task.hasErrorAt_of_dataValue rfl hraw hreading hdata hvalue⟩

end Data

/-- **Data directives without an operand**. Let an unlabelled data directive have no operand, or nothing but
a comment. It is rejected, with a missing operand reported for its line and no word emitted, exactly if no
line of the text starts with a lone colon. Otherwise it emits one word, with the address of the last such
line as its value, and nothing is reported for its line. -/
theorem data_without_operand (source : Text) (file : SourceName) :
    let lines := Text.textLines source
    let run := (assembleText source file).1
    ∀ i raw s, lines[i]? = some raw → Reading.ofLine (Text.trim raw) = .bare s →
      s.keyword? = some .data → Line.stripComment (s.tail.getD []) = [] →
      ((run.wordsAt i = [] ∧
          .rejectedOperand file (i + 1) (Text.trim raw) .missing ∈ run.report.errors) ↔
        ∀ j, ¬ Layout.Carries lines [] j) ∧
      ((∃ j, Layout.Carries lines [] j) → ∃ j, Layout.LastCarrier lines [] j ∧
        run.wordsAt i = [⟨(ofText source file).counter₂ i,
          Layout.address ((Reading.ofLines lines).take j), Text.trim raw, i + 1⟩] ∧
        run.report.hasErrorAt (i + 1) = false) := by
  intro lines run i raw s hraw hreading hdata hmissing
  refine ⟨⟨?_, rejects_of_not_carries hraw hreading hdata hmissing⟩, ?_⟩
  · rintro ⟨hwords, -⟩ j hcarries
    obtain ⟨k, hlast⟩ := hcarries.exists_lastCarrier
    rw [(emits_of_lastCarrier hraw hreading hdata hmissing hlast).1] at hwords
    exact List.cons_ne_nil _ _ hwords
  · rintro ⟨j, hcarries⟩
    obtain ⟨k, hlast⟩ := hcarries.exists_lastCarrier
    exact ⟨k, hlast, emits_of_lastCarrier hraw hreading hdata hmissing hlast⟩

/-- A directive with nothing but a comment, among other labels. -/
theorem data_without_operand_commented :
    let source := "X:\nDATA ; none\nEnd:\n".toList
    let lines := Text.textLines source
    let run := (assembleText source .input).1
    (lines[1]? = some "DATA ; none".toList ∧ (∀ j, ¬ Layout.Carries lines [] j)) ∧
      run.wordsAt 1 = [] ∧
      .rejectedOperand .input 2 "DATA ; none".toList .missing ∈ run.report.errors := by
  intro source lines run
  have hline : lines[1]? = some "DATA ; none".toList := by decide
  have hreading : Reading.ofLine (Text.trim "DATA ; none".toList) =
      .bare ⟨"DATA".toList, some "; none".toList⟩ := by decide
  have hfree : ∀ j, ¬ Layout.Carries lines [] j := by
    have hlabels : [] ∉ Layout.labels (Reading.ofLines lines) := by decide
    exact fun j hj => hlabels (Layout.mem_labels_iff.mpr ⟨j, hj⟩)
  obtain ⟨hrejected, -⟩ := data_without_operand source .input 1 _ _ hline hreading (by decide) (by decide)
  exact ⟨⟨hline, hfree⟩, hrejected.mpr hfree⟩

/-- **A lone colon as an operand**. The directive has no operand, yet a word is emitted for it and nothing
is reported, because the line before it has bound the empty name. -/
theorem lone_colon_as_operand :
    let source := "LOC 5\n:\nDATA\n".toList
    let run := (assembleText source .input).1
    (Text.textLines source)[2]? = some "DATA".toList ∧
      Layout.Carries (Text.textLines source) [] 1 ∧ run.report.errors = [] ∧
      run.output.words = [⟨5, 5, "DATA".toList, 3⟩] := by
  decide

end Assembly

end TwoPass
