import TwoPass.Proofs.Drift

/-!
# Where the words go

The address of a word is the location counter of the second pass when the word is emitted. The counter
depends on everything before, failing lines included, but what matters of it is little: the last line
on which the pass set the counter (`Layout.lastReset`), and how many words have been emitted since for
data directives and instructions (`Generation.Task.allocatedBetween`). Words of the end marker take up
no room, and what stands behind the end marker is not carried out.

`Generation.Task.counter_reach` says this of the counter on reaching any line, by one induction over
the places; addresses of words and the counter at the end of the input are instances
(`Generation.Task.address_law`).
-/

namespace TwoPass

/-! ## Lines that set the counter -/

/-- Where the second pass sets its counter on a line, if it does: at the address of an origin directive
whose operand is accepted, without a label or behind one, but not behind the end marker. -/
def Reading.reset? (r : Reading) : Option Int := if r.isFinish then none else r.origin?

namespace Layout

/-- A line that sets the counter. -/
structure Reset where
  /-- the number of the line; zero stands for the start of the pass -/
  number : Nat
  /-- the counter behind it -/
  address : Int
  deriving DecidableEq

/-- The last line before a place that sets the counter. If there is none, the counter was set to zero
at the start of the pass. -/
def lastReset (lines : List Text) (i : Nat) : Reset :=
  ((Line.before lines i).reverse.findSome? fun p =>
    (Reading.ofLine (Text.trim p.1)).reset?.map (Reset.mk (p.2 + 1))).getD ⟨0, 0⟩

theorem lastReset_zero (lines : List Text) : lastReset lines 0 = ⟨0, 0⟩ := by
  simp [lastReset, Line.before]

theorem lastReset_succ {lines : List Text} {i : Nat} {raw : Text} (h : lines[i]? = some raw) :
    lastReset lines (i + 1) =
      match (Reading.ofLine (Text.trim raw)).reset? with
      | some address => ⟨i + 1, address⟩
      | none => lastReset lines i := by
  rw [lastReset, lastReset, Line.before_succ h, List.reverse_concat, List.findSome?_cons]
  cases (Reading.ofLine (Text.trim raw)).reset? with
  | some address => rfl
  | none => rfl

/-- The last line that sets the counter stands before the place. -/
theorem number_lastReset_le {lines : List Text} {i : Nat} (hi : i ≤ lines.length) :
    (lastReset lines i).number ≤ i := by
  refine Line.place_induction (P := fun i => (lastReset lines i).number ≤ i) ?_ ?_ hi
  · exact Nat.le_of_eq (congrArg Reset.number (lastReset_zero lines))
  · intro j raw hraw ih
    rw [lastReset_succ hraw]
    cases (Reading.ofLine (Text.trim raw)).reset? with
    | some address => exact Nat.le_refl (j + 1)
    | none => exact Nat.le_succ_of_le ih

end Layout

/-! ## Words that take up room -/

/-- Was the word emitted for a data directive or an instruction? -/
def Word.isAllocated (w : Word) : Bool :=
  match Reading.ofLine w.source with
  | .bare s => s.allocates
  | .inert | .labelled .. | .finish .. => false

namespace Generation.Task

/-- The number of words that the pass emits for data directives and instructions on the lines behind
the one number and up to the other. -/
def allocatedBetween (t : Task) (number number' : Nat) : Nat :=
  t.result.output.words.countP fun w : Word =>
    decide ((number : Int) < w.line ∧ w.line ≤ number') && w.isAllocated

/-- The address that a word gets at a place, by the law: that of the last line before which sets the
counter, and one more for each word that takes up room on the lines from there on. -/
def lawfulAddress (t : Task) (i : Nat) : Int :=
  let reset := Layout.lastReset t.lines i
  reset.address + t.allocatedBetween reset.number i

variable {t : Task} {i : Nat} {raw : Text}

theorem allocatedBetween_self (number : Nat) : t.allocatedBetween number number = 0 := by
  rw [allocatedBetween, List.countP_eq_zero]
  intro w _
  rw [Bool.and_eq_true, decide_eq_true_eq]
  omega

/-- One more line adds the word that was emitted for it, if it takes up room. -/
theorem allocatedBetween_succ (h : t.lines[i]? = some raw) {number : Nat} (hnumber : number ≤ i) :
    t.allocatedBetween number (i + 1) =
      t.allocatedBetween number i + (t.word? i raw).toList.countP Word.isAllocated := by
  rw [← filter_line_words h, List.countP_filter, allocatedBetween, allocatedBetween]
  -- a word of the lines up to `i + 1` is one of the lines up to `i`, or one of line `i + 1`
  induction t.result.output.words with
  | nil => rfl
  | cons w words ih =>
    rw [List.countP_cons, List.countP_cons, List.countP_cons, ih]
    cases w.isAllocated with
    | false => simp
    | true =>
      simp only [Bool.and_true, Bool.true_and, decide_eq_true_eq]
      grind

/-- The word of a line takes up room exactly if the counter moves past it. -/
theorem countP_isAllocated_word? (h : t.lines[i]? = some raw) :
    (t.word? i raw).toList.countP Word.isAllocated =
      if (Reading.ofLine (Text.trim raw)).allocates &&
        t.emitsFor i (Reading.ofLine (Text.trim raw)) then 1 else 0 := by
  rw [emitsFor_eq h]
  cases hword : t.word? i raw with
  | none => simp
  | some w =>
    have hsource : w.source = Text.trim raw := (line_source_of_word? hword).2
    rw [Option.toList_some, List.countP_singleton, Word.isAllocated, hsource]
    cases Reading.ofLine (Text.trim raw) with
    | inert => rfl
    | bare s => simp
    | labelled label behind => simp
    | finish label behind => simp

/-- **The second counter in closed form**. -/
theorem counter_reach (hi : i ≤ t.lines.length) : (t.reach i).counter.value = t.lawfulAddress i := by
  refine Line.place_induction
    (P := fun i => (t.reach i).counter.value = t.lawfulAddress i) ?_ ?_ hi
  · rw [lawfulAddress, Layout.lastReset_zero, allocatedBetween_self]
    rfl
  · intro i raw hraw ih
    have hr := Reading.ofLines_getElem?_eq_some.mpr ⟨raw, hraw, rfl⟩
    have hlt : i < t.lines.length := (List.getElem?_eq_some_iff.mp hraw).1
    have hbefore : (Layout.lastReset t.lines i).number ≤ i :=
      Layout.number_lastReset_le (Nat.le_of_lt hlt)
    rw [counter_reach_succ hr, lawfulAddress, Layout.lastReset_succ hraw, Reading.reset?]
    by_cases hf : (Reading.ofLine (Text.trim raw)).isFinish = true
    · -- the end marker sets nothing, and its word takes up no room
      have hword := countP_isAllocated_word? hraw
      have hemits : t.emitsFor i (Reading.ofLine (Text.trim raw)) = false := by
        rw [← Bool.not_eq_true]
        intro hemits
        rw [isFinish_of_emitsFor hemits] at hf
        cases hf
      rw [hemits, Bool.and_false] at hword
      rw [if_pos hf, if_pos hf, allocatedBetween_succ hraw hbefore, hword, ih]
      rfl
    · rw [if_neg hf, if_neg hf]
      cases (Reading.ofLine (Text.trim raw)).origin? with
      | some address =>
        simp only [allocatedBetween_self]
        omega
      | none =>
        simp only [allocatedBetween_succ hraw hbefore, countP_isAllocated_word? hraw, ih,
          lawfulAddress]
        split
        · rw [Int.natCast_add, Int.add_assoc]
          rfl
        · rfl

/-- **The law of addresses**. Every word stands at the operand of the last origin directive that the
second pass carried out before it, or zero if there was none, and from there one further for each word
that was emitted in between for a data directive or an instruction. The counter at the end of the input
follows the same law. -/
theorem address_law (t : Task) :
    (∀ w ∈ t.result.output.words, ∃ i : Nat, i < t.lines.length ∧ w.line = i + 1 ∧
      w.address = t.lawfulAddress i) ∧
    t.result.counter.value = t.lawfulAddress t.lines.length := by
  constructor
  · intro w hw
    rw [output_result] at hw
    obtain ⟨i, raw, hi, hraw, hword⟩ := exists_line_of_mem_words (Nat.le_refl _) hw
    obtain ⟨value, advances, -, rfl⟩ := Treatment.word?_eq_some_iff.mp hword
    exact ⟨i, hi, rfl, counter_reach (Nat.le_of_lt hi)⟩
  · rw [result_eq]
    exact counter_reach (Nat.le_refl _)

/-- A word behind a rejected line and an end marker with an origin directive behind it. -/
theorem address_law_behind_end :
    let lines := ["A: LOC 5", "HLT", "DATA x", "End: LOC 9", "DATA 7"].map String.toList
    let t : Task := ⟨.empty, .input, .empty, false, false, lines⟩
    let w : Word := ⟨6, 7, "DATA 7".toList, 5⟩
    w ∈ t.result.output.words ∧ Layout.lastReset lines 4 = ⟨1, 5⟩ ∧ t.allocatedBetween 1 4 = 1 ∧
      w.address = t.lawfulAddress 4 ∧ t.result.counter.value = t.lawfulAddress 5 := by
  intro lines t w
  have hw : w ∈ t.result.output.words := by decide
  obtain ⟨hwords, hend⟩ := address_law t
  obtain ⟨i, -, hline, haddress⟩ := hwords w hw
  obtain rfl : i = 4 := by
    have hfive : (5 : Int) = i + 1 := hline
    omega
  exact ⟨hw, by decide, by decide, haddress, hend⟩

end Generation.Task

end TwoPass
