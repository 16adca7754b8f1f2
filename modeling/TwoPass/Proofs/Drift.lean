import TwoPass.Proofs.Outcome
import TwoPass.Session

/-!
# The drift between the passes

Both passes keep a location counter, and labels are worth what they say only while the counters go
together. An `Assembly` is what the two passes share; `Assembly.drift` is by how much the first counter
is ahead of the second on reaching a line.

The first counter follows the layout of the program (`Reading.next`). The second one follows it too,
except in two ways: it moves past a word only if it has emitted one (`Generation.Task.emitsFor`), and
it pays no attention to what stands behind the end marker. `Generation.Task.counter_reach_succ` says
this, and subtracting the two equations gives the law of the drift (`Assembly.drift_law`): an origin
directive removes the drift, a statement that allocates a word which is never emitted adds one to it,
an origin directive behind the end marker moves the first counter alone, and nothing else matters.
-/

namespace TwoPass

/-! ## The second counter -/

namespace Generation.Task

variable {t : Task}

/-- Does the second pass emit a word for the statement on a line? What stands behind a label or the
end marker has no word of its own, even if the line has one. -/
def emitsFor (t : Task) (i : Nat) (r : Reading) : Bool :=
  r.label?.isNone && decide ((t.reach (i + 1)).output.words ≠ (t.reach i).output.words)

theorem emitsFor_eq {i : Nat} {raw : Text} (h : t.lines[i]? = some raw) (r : Reading) :
    t.emitsFor i r = (r.label?.isNone && (t.word? i raw).isSome) := by
  rw [emitsFor, (words_load_reach_succ h).1]
  cases t.word? i raw with
  | none => simp
  | some word => simp

/-- An unlabelled statement that allocates a word has it emitted, or its operand is rejected. -/
theorem emitsFor_bare_iff {i : Nat} {raw : Text} {s : Statement} (h : t.lines[i]? = some raw)
    (hr : Reading.ofLine (Text.trim raw) = .bare s) (ha : s.allocates = true) :
    t.emitsFor i (.bare s) = false ↔
      ∃ fault, (t.reach (i + 1)).report.errors =
        (t.reach i).report.errors ++ [.rejectedOperand t.file (i + 1) (Text.trim raw) fault] := by
  have htreatment : t.treatment i raw =
      .ofBare t.symbols t.file (i + 1) (Text.trim raw) s := by
    rw [treatment_eq, hr]
    rfl
  rw [emitsFor_eq h, reach_succ t h, errors_apply, word?]
  obtain ⟨address, ho, -⟩ | ⟨value, -, -, ht⟩ | ⟨hk, -⟩ | ⟨hk, -⟩ | ⟨fault, -, -, ht⟩ :=
    Treatment.ofBare_cases t.symbols t.file (i + 1) (Text.trim raw) s
  · rw [Statement.allocates_of_origin? ho] at ha
    cases ha
  · -- the word is emitted and no diagnostic is recorded
    rw [htreatment, ht]
    simp [Reading.label?, Treatment.word?, Treatment.diagnostic?]
  · rw [Statement.allocates, hk] at ha
    cases ha
  · rw [Statement.allocates, hk] at ha
    cases ha
  · -- no word is emitted, and the diagnostic is about the operand
    rw [htreatment, ht]
    simp [Reading.label?, Treatment.word?, Treatment.diagnostic?]

/-- What is allocated and not emitted stands behind a label or has a rejected operand. -/
theorem emitsFor_eq_false_iff {i : Nat} {r : Reading} (h : (Reading.ofLines t.lines)[i]? = some r)
    (ha : r.allocates = true) :
    t.emitsFor i r = false ↔
      r.label? ≠ none ∨ ∃ raw fault, t.lines[i]? = some raw ∧
        (t.reach (i + 1)).report.errors = (t.reach i).report.errors ++
          [.rejectedOperand t.file (i + 1) (Text.trim raw) fault] := by
  obtain ⟨raw, hraw, hr⟩ := Reading.ofLines_getElem?_eq_some.mp h
  cases r with
  | inert => cases ha
  | labelled label behind => simp [emitsFor, Reading.label?]
  | finish label behind => simp [emitsFor, Reading.label?]
  | bare s =>
    rw [emitsFor_bare_iff hraw hr ha]
    constructor
    · rintro ⟨fault, herrors⟩
      exact .inr ⟨raw, fault, hraw, herrors⟩
    · rintro (hlabel | ⟨raw', fault, hraw', herrors⟩)
      · exact absurd rfl hlabel
      · obtain rfl := Option.some.inj (hraw.symm.trans hraw')
        exact ⟨fault, herrors⟩

theorem isFinish_of_emitsFor {i : Nat} {r : Reading} (h : t.emitsFor i r = true) :
    r.isFinish = false := by
  cases r with
  | finish label behind => cases h
  | inert | bare _ | labelled _ _ => rfl

/-- **The second counter**. The end marker leaves it alone, whatever follows. Else it goes to the
address of an origin directive, past the word of a statement for which one is emitted, and nowhere
on any other line. -/
theorem counter_reach_succ {i : Nat} {r : Reading} (h : (Reading.ofLines t.lines)[i]? = some r) :
    (t.reach (i + 1)).counter.value =
      if r.isFinish then (t.reach i).counter.value
      else
        match r.origin? with
        | some address => address
        | none =>
          if r.allocates && t.emitsFor i r then (t.reach i).counter.value + 1
          else (t.reach i).counter.value := by
  obtain ⟨raw, hraw, rfl⟩ := Reading.ofLines_getElem?_eq_some.mp h
  rw [reach_succ t hraw, counter_apply, emitsFor_eq hraw, word?, treatment_eq]
  cases hr : Reading.ofLine (Text.trim raw) with
  | inert => rfl
  | finish label behind => rfl
  | labelled label behind =>
    obtain ⟨address, ho, ht⟩ | ⟨warning, ho, -, ht⟩ | ⟨fault, ho, -, ht⟩ :=
      Treatment.ofBehind_cases t.file (i + 1) (Text.trim raw) label behind
    · simp [ht, ho, Treatment.next]
    · simp [ht, ho, Treatment.next]
    · simp [ht, ho, Treatment.next]
  | bare s =>
    obtain ⟨address, ho, ht⟩ | ⟨value, ho, ha, ht⟩ | ⟨hk, ht⟩ | ⟨hk, ht⟩ | ⟨fault, ho, -, ht⟩ :=
      Treatment.ofBare_cases t.symbols t.file (i + 1) (Text.trim raw) s
    · simp [ht, ho, Treatment.next]
    · simp [ht, ho, ha, Treatment.next, Treatment.word?]
    · -- the end marker is never read as a bare statement
      exact absurd hk (Reading.keyword?_of_ofLine_bare hr)
    · simp [ht, Statement.origin?, hk, Treatment.next, Treatment.word?]
    · simp [ht, ho, Treatment.next, Treatment.word?]

end Generation.Task

/-! ## Both passes -/

/-- What both passes over a source are given. The second pass gets the table that the first one
builds. -/
structure Assembly where
  /-- the symbols bound before the first pass -/
  symbols : SymbolTable
  /-- the name of the source -/
  file : SourceName
  /-- the diagnostics and warnings recorded before the second pass -/
  report : Report
  /-- is a listing stream open? -/
  listing : Bool
  /-- is a load stream open? -/
  load : Bool
  /-- the source lines -/
  lines : List Text

namespace Assembly

variable (a : Assembly)

/-- The first pass. -/
def first : Survey.Task := ⟨a.symbols, a.file, a.lines⟩

/-- The second pass, over the table of the first. -/
def second : Generation.Task :=
  ⟨a.first.result.symbols, a.file, a.report, a.listing, a.load, a.lines⟩

/-- The counter of the first pass on reaching a line. -/
def counter₁ (i : Nat) : Int := (a.first.reach i).counter.value

/-- The counter of the second pass on reaching a line. -/
def counter₂ (i : Nat) : Int := (a.second.reach i).counter.value

/-- By how much the first counter is ahead of the second on reaching a line. -/
def drift (i : Nat) : Int := a.counter₁ i - a.counter₂ i

@[simp] theorem counter₁_zero : a.counter₁ 0 = 0 := rfl

@[simp] theorem counter₂_zero : a.counter₂ 0 = 0 := rfl

/-- The assembly of a text starts with nothing bound and nothing reported, and writes no files. -/
def ofText (source : Text) (file : SourceName) : Assembly :=
  ⟨.empty, file, .empty, false, false, Text.textLines source⟩

theorem assembleText_eq (source : Text) (file : SourceName) :
    (assembleText source file).1 =
      ⟨(ofText source file).first.result.symbols, (ofText source file).second.result.report,
        (ofText source file).second.result.output⟩ := rfl

variable {a}

theorem counter₁_succ {i : Nat} {r : Reading} (h : (Reading.ofLines a.lines)[i]? = some r) :
    a.counter₁ (i + 1) = r.next (a.counter₁ i) :=
  Survey.Task.counter_reach_succ (t := a.first) h

theorem counter₂_succ {i : Nat} {r : Reading} (h : (Reading.ofLines a.lines)[i]? = some r) :
    a.counter₂ (i + 1) =
      if r.isFinish then a.counter₂ i
      else
        match r.origin? with
        | some address => address
        | none =>
          if r.allocates && a.second.emitsFor i r then a.counter₂ i + 1 else a.counter₂ i :=
  Generation.Task.counter_reach_succ (t := a.second) h

/-! ### One line -/

section Line

variable {i : Nat} {r : Reading}

/-- An origin directive, unless it stands behind the end marker, brings the counters together. -/
theorem drift_succ_of_origin? (h : (Reading.ofLines a.lines)[i]? = some r) {address : Int}
    (ho : r.origin? = some address) (hf : r.isFinish = false) : a.drift (i + 1) = 0 := by
  rw [drift, counter₁_succ h, counter₂_succ h, Reading.next, ho, hf]
  exact Int.sub_self address

/-- Behind the end marker an origin directive moves the first counter alone. -/
theorem drift_succ_of_finish_origin? (h : (Reading.ofLines a.lines)[i]? = some r) {address : Int}
    (ho : r.origin? = some address) (hf : r.isFinish = true) :
    a.drift (i + 1) = address - a.counter₂ i := by
  rw [drift, counter₁_succ h, counter₂_succ h, Reading.next, ho, hf]
  rfl

/-- A word that is allocated and not emitted is one step of drift. -/
theorem drift_succ_of_not_emitsFor (h : (Reading.ofLines a.lines)[i]? = some r)
    (ha : r.allocates = true) (he : a.second.emitsFor i r = false) :
    a.drift (i + 1) = a.drift i + 1 := by
  rw [drift, counter₁_succ h, counter₂_succ h, Reading.next, Reading.origin?_of_allocates ha, ha, he,
    drift]
  simp only [if_true, Bool.and_false, Bool.false_eq_true, if_false, ite_self]
  omega

/-- Every other line leaves the drift as it is. -/
theorem drift_succ_of_emitsFor (h : (Reading.ofLines a.lines)[i]? = some r)
    (ho : r.origin? = none) (he : r.allocates = true → a.second.emitsFor i r = true) :
    a.drift (i + 1) = a.drift i := by
  rw [drift, counter₁_succ h, counter₂_succ h, Reading.next, ho, drift]
  by_cases ha : r.allocates = true
  · -- a statement with a word of its own does not stand behind the end marker
    have hf : r.isFinish = false := Generation.Task.isFinish_of_emitsFor (he ha)
    simp only [ha, he ha, hf, if_true, Bool.and_self, Bool.false_eq_true, if_false]
    omega
  · simp [ha]

end Line

/-- **The law of the drift**. The passes start together. An origin directive whose operand is accepted
brings the counters together, unless it stands behind the end marker; there it moves the first counter
alone. A statement that allocates a word for which the second pass emits none adds one to the drift;
such a statement stands behind a label or the end marker, or its operand is rejected. Every other line
leaves the drift as it is. -/
theorem drift_law (a : Assembly) :
    a.drift 0 = 0 ∧
    ∀ i r, (Reading.ofLines a.lines)[i]? = some r →
      (∀ address, r.origin? = some address → r.isFinish = false → a.drift (i + 1) = 0) ∧
      (∀ address, r.origin? = some address → r.isFinish = true →
        a.drift (i + 1) = address - a.counter₂ i) ∧
      (r.allocates = true → a.second.emitsFor i r = false → a.drift (i + 1) = a.drift i + 1) ∧
      (r.origin? = none → (r.allocates = true → a.second.emitsFor i r = true) →
        a.drift (i + 1) = a.drift i) ∧
      (r.allocates = true → (a.second.emitsFor i r = false ↔
        r.label? ≠ none ∨ ∃ raw fault, a.lines[i]? = some raw ∧
          (a.second.reach (i + 1)).report.errors = (a.second.reach i).report.errors ++
            [.rejectedOperand a.file (i + 1) (Text.trim raw) fault])) := by
  refine ⟨by simp [drift], ?_⟩
  intro i r h
  refine ⟨fun address ho hf => drift_succ_of_origin? h ho hf,
    fun address ho hf => drift_succ_of_finish_origin? h ho hf,
    fun ha he => drift_succ_of_not_emitsFor h ha he,
    fun ho he => drift_succ_of_emitsFor h ho he,
    fun ha => ?_⟩
  exact Generation.Task.emitsFor_eq_false_iff (t := a.second) h ha

/-- Drift from a statement behind a label, removed by an origin directive and brought back by one behind
the end marker. -/
theorem drift_law_origin_behind_end :
    let a := ofText "A: DATA 5\nLOC 8\nEnd: LOC 9\n".toList .input
    a.drift 1 = a.drift 0 + 1 ∧ a.drift 2 = 0 ∧ a.drift 3 = 9 - a.counter₂ 2 := by
  intro a
  obtain ⟨-, hline⟩ := drift_law a
  refine ⟨?_, ?_, ?_⟩
  · exact (hline 0 _ rfl).2.2.1 (by decide) (by decide)
  · exact (hline 1 _ rfl).1 8 (by decide) (by decide)
  · exact (hline 2 _ rfl).2.1 9 (by decide) (by decide)

end Assembly

end TwoPass
