import Mathlib.Logic.Basic
import TwoPass.Proofs.Trace

/-!
# One outcome for each line

The second pass does one of two things with a line. It **accepts** it: one line goes to the listing
and no diagnostic is recorded (`Generation.Accepted`). Or it **rejects** it: one diagnostic is
recorded that blames the line, and counter, output, warnings and streams stay as they were
(`Generation.Rejected`). Failure is atomic because a treatment is settled before the state is touched:
a handler that had emitted something and then failed would have no treatment of its own.

Since each part of the output is the list of what the lines have added, what follows for a whole run
needs no further induction: listing lines and diagnostics together are as many as the lines, and
diagnostics and words come in the order of the lines (`Generation.Task.one_outcome_per_line`).
-/

namespace TwoPass

namespace Diagnostic

/-- The diagnostic is about an operand or a head token that is no keyword, and it names the file, the
line number and the text of the given line. -/
def Blames (file : SourceName) (number : Nat) (line : Text) (d : Diagnostic) : Prop :=
  ((∃ text, d.subject = .operand text) ∨ ∃ token, d.subject = .instruction token) ∧
    (∃ column, d.location = some ⟨file, number, column⟩) ∧ d.sourceLine = some line

/-- Both diagnostics have a place, and the first one's line is above the second one's. -/
def Precedes (d d' : Diagnostic) : Prop :=
  ∃ l l' : Location, d.location = some l ∧ d'.location = some l' ∧ l.line < l'.line

theorem blames_rejectedOperand (file : SourceName) (number : Nat) (line : Text)
    (fault : Operand.Fault) : (rejectedOperand file number line fault).Blames file number line :=
  ⟨.inl ⟨fault.operand, rfl⟩, ⟨0, rfl⟩, rfl⟩

theorem blames_unknownInstruction (file : SourceName) (number : Nat) (line token : Text) :
    (unknownInstruction token (some ⟨file, number, 1⟩) (some line)).Blames file number line :=
  ⟨.inr ⟨token, rfl⟩, ⟨1, rfl⟩, rfl⟩

theorem Blames.precedes {file file' : SourceName} {number number' : Nat} {line line' : Text}
    {d d' : Diagnostic} (h : d.Blames file number line) (h' : d'.Blames file' number' line')
    (hlt : number < number') : d.Precedes d' := by
  obtain ⟨-, ⟨column, hplace⟩, -⟩ := h
  obtain ⟨-, ⟨column', hplace'⟩, -⟩ := h'
  exact ⟨_, _, hplace, hplace', Int.ofNat_lt.mpr hlt⟩

end Diagnostic

/-- A line is rejected with a diagnostic that blames it. -/
theorem Reading.blames_of_treatment {r : Reading} {symbols : SymbolTable} {file : SourceName}
    {number : Nat} {line : Text} {d : Diagnostic}
    (h : r.treatment symbols file number line = .rejected d) : d.Blames file number line := by
  cases r with
  | inert => cases h
  | finish label behind => cases h
  | bare s =>
    rw [treatment] at h
    obtain ⟨_, -, ht⟩ | ⟨_, -, -, ht⟩ | ⟨-, ht⟩ | ⟨-, ht⟩ | ⟨fault, -, -, ht⟩ :=
      Treatment.ofBare_cases symbols file number line s
    · rw [ht] at h
      cases h
    · rw [ht] at h
      cases h
    · rw [ht] at h
      cases h
    · rw [ht] at h
      obtain rfl := Treatment.rejected.inj h
      exact Diagnostic.blames_unknownInstruction file number line s.head
    · rw [ht] at h
      obtain rfl := Treatment.rejected.inj h
      exact Diagnostic.blames_rejectedOperand file number line fault
  | labelled label behind =>
    rw [treatment] at h
    obtain ⟨_, -, ht⟩ | ⟨_, -, -, ht⟩ | ⟨fault, -, -, ht⟩ :=
      Treatment.ofBehind_cases file number line label behind
    · rw [ht] at h
      cases h
    · rw [ht] at h
      cases h
    · rw [ht] at h
      obtain rfl := Treatment.rejected.inj h
      exact Diagnostic.blames_rejectedOperand file number line fault

namespace Generation

/-! ## One line -/

/-- A line was accepted: the listing has one line more, and no diagnostic was recorded. -/
def Accepted (g g' : Generation) : Prop :=
  (∃ text, g'.output.listing = g.output.listing ++ [text]) ∧ g'.report.errors = g.report.errors

/-- A line was rejected: one diagnostic that blames it was recorded, and counter, words, listing, load
lines, warnings and streams are as before. -/
def Rejected (file : SourceName) (number : Nat) (line : Text) (g g' : Generation) : Prop :=
  (∃ d : Diagnostic, d.Blames file number line ∧ g'.report.errors = g.report.errors ++ [d]) ∧
    g'.counter = g.counter ∧ g'.output = g.output ∧ g'.report.warnings = g.report.warnings ∧
    g'.listingStream = g.listingStream ∧ g'.loadStream = g.loadStream

theorem Accepted.not_rejected {g g' : Generation} (h : Accepted g g') {file : SourceName}
    {number : Nat} {line : Text} : ¬ Rejected file number line g g' := by
  rintro ⟨⟨d, -, herrors⟩, -⟩
  rw [h.2] at herrors
  exact List.cons_ne_nil d [] (List.self_eq_append_right.mp herrors)

/-- A treatment that rejects with a blaming diagnostic rejects the line; every other one accepts it. -/
theorem accepted_or_rejected_apply (g : Generation) {file : SourceName} {number : Nat} {line : Text}
    {t : Treatment} (hblames : ∀ d, t = .rejected d → d.Blames file number line) :
    Accepted g (g.apply file number line t) ∨
      Rejected file number line g (g.apply file number line t) := by
  cases t with
  | rejected d =>
    refine .inr ⟨⟨d, hblames d rfl, ?_⟩, rfl, rfl, rfl, rfl, rfl⟩
    rw [errors_apply]
    rfl
  | listed warning =>
    refine .inl ⟨⟨line, ?_⟩, ?_⟩
    · rw [listing_apply]
      rfl
    · rw [errors_apply]
      exact List.append_nil _
  | moved address =>
    refine .inl ⟨⟨' ' :: line, ?_⟩, ?_⟩
    · rw [listing_apply]
      rfl
    · rw [errors_apply]
      exact List.append_nil _
  | emitted value advances =>
    refine .inl ⟨⟨Word.listingText ⟨g.counter.value, value, line, number⟩, ?_⟩, ?_⟩
    · rw [listing_apply]
      rfl
    · rw [errors_apply]
      exact List.append_nil _

namespace Task

variable {t : Task}

theorem blames_of_diagnostic? {i : Nat} {raw : Text} {d : Diagnostic}
    (h : t.diagnostic? i raw = some d) : d.Blames t.file (i + 1) (Text.trim raw) := by
  rw [diagnostic?, treatment_eq] at h
  exact Reading.blames_of_treatment (Treatment.diagnostic?_eq_some_iff.mp h)

/-- **Every line has exactly one outcome**: it is accepted or rejected, and not both. -/
theorem accepted_xor_rejected {i : Nat} {raw : Text} (h : t.lines[i]? = some raw) :
    Xor (Accepted (t.reach i) (t.reach (i + 1)))
      (Rejected t.file (i + 1) (Text.trim raw) (t.reach i) (t.reach (i + 1))) := by
  rw [reach_succ t h]
  have hblames : ∀ d, t.treatment i raw = .rejected d →
      d.Blames t.file (i + 1) (Text.trim raw) := by
    intro d hd
    exact blames_of_diagnostic? (Treatment.diagnostic?_eq_some_iff.mpr hd)
  rcases accepted_or_rejected_apply (t.reach i) hblames with ha | hr
  · exact .inl ⟨ha, ha.not_rejected⟩
  · exact .inr ⟨hr, fun ha => ha.not_rejected hr⟩

/-- A load line is written for each word and for nothing else. -/
theorem words_load_reach_succ {i : Nat} {raw : Text} (h : t.lines[i]? = some raw) :
    (t.reach (i + 1)).output.words = (t.reach i).output.words ++ (t.word? i raw).toList ∧
      (t.reach (i + 1)).output.load =
        (t.reach i).output.load ++ ((t.word? i raw).map Word.loadText).toList := by
  rw [reach_succ t h, words_apply, load_apply]
  exact ⟨rfl, rfl⟩

/-! ## The whole run -/

/-- A line adds to the listing exactly if it adds no diagnostic. -/
theorem isSome_listingLine? (i : Nat) (raw : Text) :
    (t.listingLine? i raw).isSome = !(t.diagnostic? i raw).isSome := by
  unfold listingLine? diagnostic?
  cases t.treatment i raw <;> rfl

/-- Listing lines and diagnostics together are as many as the lines. -/
theorem length_listing_add_length_errors :
    t.result.output.listing.length +
        ((Line.before t.lines t.lines.length).filterMap fun p => t.diagnostic? p.2 p.1).length =
      t.lines.length := by
  have hlisting := listing_reach (t := t) (Nat.le_refl t.lines.length)
  -- count the lines by whether they add a diagnostic
  have hsplit := List.length_eq_countP_add_countP
    (fun p : Text × Nat => (t.diagnostic? p.2 p.1).isSome)
    (l := Line.before t.lines t.lines.length)
  have hlength : (Line.before t.lines t.lines.length).length = t.lines.length := by
    rw [Line.before, List.length_zipIdx, List.take_length]
  rw [output_result, hlisting, List.length_filterMap_eq_countP, List.length_filterMap_eq_countP]
  simp only [isSome_listingLine?]
  simp only [hlength, decide_not, Bool.decide_eq_true] at hsplit
  omega

/-- The diagnostics come in the order of the lines. -/
theorem pairwise_precedes_errors :
    ((Line.before t.lines t.lines.length).filterMap fun p => t.diagnostic? p.2 p.1).Pairwise
      Diagnostic.Precedes := by
  rw [List.pairwise_filterMap]
  refine (Line.pairwise_before t.lines t.lines.length).imp ?_
  intro p q hlt d hd d' hd'
  exact (blames_of_diagnostic? hd).precedes (blames_of_diagnostic? hd') (Nat.succ_lt_succ hlt)

theorem line_source_of_word? {i : Nat} {raw : Text} {w : Word} (h : t.word? i raw = some w) :
    w.line = i + 1 ∧ w.source = Text.trim raw := by
  obtain ⟨value, advances, -, rfl⟩ := Treatment.word?_eq_some_iff.mp h
  exact ⟨rfl, rfl⟩

/-- The words come in the order of the lines. -/
theorem pairwise_line_words {i : Nat} (hi : i ≤ t.lines.length) :
    (t.reach i).output.words.Pairwise fun w w' => w.line < w'.line := by
  rw [words_reach hi, List.pairwise_filterMap]
  refine (Line.pairwise_before t.lines i).imp ?_
  intro p q hlt w hw w' hw'
  rw [(line_source_of_word? hw).1, (line_source_of_word? hw').1]
  omega

/-- The words of a given line, out of those that a line adds: all of them or none. -/
theorem filter_line_word? {i j : Nat} {raw : Text} :
    ((t.word? j raw).toList.filter fun w : Word => w.line = i + 1) =
      if j = i then (t.word? j raw).toList else [] := by
  cases hw : t.word? j raw with
  | none => simp
  | some w =>
    have hline : w.line = j + 1 := (line_source_of_word? hw).1
    by_cases hj : j = i
    · simp [hline, hj]
    · rw [if_neg hj, List.filter_eq_nil_iff]
      intro w' hw'
      obtain rfl := List.mem_singleton.mp hw'
      rw [decide_eq_true_eq, hline]
      omega

/-- The words of a line in the output are those that the line has added. -/
theorem filter_line_words {i : Nat} {raw : Text} (h : t.lines[i]? = some raw) :
    (t.result.output.words.filter fun w : Word => w.line = i + 1) = (t.word? i raw).toList := by
  have hreach : ((t.reach t.lines.length).output.words.filter fun w : Word => w.line = i + 1) =
      if i < t.lines.length then (t.word? i raw).toList else [] := by
    refine Line.place_induction
      (P := fun n => ((t.reach n).output.words.filter fun w : Word => w.line = i + 1) =
        if i < n then (t.word? i raw).toList else []) rfl ?_ (Nat.le_refl _)
    intro n raw' hraw' ih
    rw [(words_load_reach_succ hraw').1, List.filter_append, ih, filter_line_word?]
    -- the words of line `i` arrive at place `i` and at no other
    rcases Nat.lt_trichotomy i n with hin | rfl | hin
    · rw [if_pos hin, if_neg (by omega), if_pos (by omega), List.append_nil]
    · obtain rfl := Option.some.inj (h.symm.trans hraw')
      rw [if_neg (Nat.lt_irrefl i), if_pos rfl, if_pos (Nat.lt_succ_self i), List.nil_append]
    · rw [if_neg (by omega), if_neg (by omega), if_neg (by omega), List.append_nil]
  have hlt : i < t.lines.length := (List.getElem?_eq_some_iff.mp h).1
  rw [output_result, hreach, if_pos hlt]

/-- A word in the output was emitted for some line before. -/
theorem exists_line_of_mem_words {i : Nat} (hi : i ≤ t.lines.length) {w : Word}
    (hw : w ∈ (t.reach i).output.words) :
    ∃ j raw, j < i ∧ t.lines[j]? = some raw ∧ t.word? j raw = some w := by
  rw [words_reach hi] at hw
  obtain ⟨⟨raw, j⟩, hmem, hword⟩ := List.mem_filterMap.mp hw
  obtain ⟨hj, hraw⟩ := Line.mem_before.mp hmem
  exact ⟨j, raw, hj, hraw, hword⟩

/-- **One outcome for each line, and failure is atomic**. Every line is accepted or rejected, not
both, and adds a load line exactly if it adds a word. So the listing lines and the diagnostics of the
pass are together as many as the lines; the diagnostics, and likewise the words, come in strictly
increasing line order; and each word has the trimmed text of its line as its source. -/
theorem one_outcome_per_line (t : Task) :
    (∀ i raw, t.lines[i]? = some raw →
      Xor (Accepted (t.reach i) (t.reach (i + 1)))
        (Rejected t.file (i + 1) (Text.trim raw) (t.reach i) (t.reach (i + 1))) ∧
      ∃ word? : Option Word,
        (t.reach (i + 1)).output.words = (t.reach i).output.words ++ word?.toList ∧
        (t.reach (i + 1)).output.load =
          (t.reach i).output.load ++ (word?.map Word.loadText).toList) ∧
    t.result = (t.reach t.lines.length).close ∧
    (∃ errors, t.result.report.errors = t.report.errors ++ errors ∧
      t.result.output.listing.length + errors.length = t.lines.length ∧
      errors.Pairwise Diagnostic.Precedes) ∧
    (t.result.output.words.Pairwise fun w w' => w.line < w'.line) ∧
    ∀ w ∈ t.result.output.words,
      ∃ (i : Nat) (raw : Text),
        t.lines[i]? = some raw ∧ w.line = i + 1 ∧ w.source = Text.trim raw := by
  refine ⟨fun i raw h => ⟨accepted_xor_rejected h, t.word? i raw, words_load_reach_succ h⟩,
    result_eq t, ⟨_, ?_, length_listing_add_length_errors, pairwise_precedes_errors⟩, ?_, ?_⟩
  · rw [report_result]
    exact errors_reach (Nat.le_refl _)
  · rw [output_result]
    exact pairwise_line_words (Nat.le_refl _)
  · intro w hw
    rw [output_result] at hw
    obtain ⟨i, raw, -, hraw, hword⟩ := exists_line_of_mem_words (Nat.le_refl _) hw
    exact ⟨i, raw, hraw, line_source_of_word? hword⟩

/-- A malformed operand behind an accepted line. -/
theorem one_outcome_per_line_malformed :
    let t : Task := ⟨.empty, .input, .empty, false, false, ["DATA 5".toList, " LDR 1,x".toList]⟩
    (∃ d : Diagnostic, d.Blames .input 2 "LDR 1,x".toList ∧ t.result.report.errors = [d]) ∧
      Xor (Accepted (t.reach 1) (t.reach 2))
        (Rejected .input 2 "LDR 1,x".toList (t.reach 1) (t.reach 2)) ∧
      t.result.output.listing.length + t.result.report.errors.length = 2 := by
  intro t
  obtain ⟨hlines, -, ⟨errors, herrors, hlength, -⟩, -⟩ := one_outcome_per_line t
  refine ⟨⟨.rejectedOperand .input 2 "LDR 1,x".toList (.malformed "x".toList), ?_, by decide⟩,
    (hlines 1 _ rfl).1, ?_⟩
  · exact Diagnostic.blames_rejectedOperand ..
  · rw [herrors]
    exact hlength

end Task

end Generation

end TwoPass
