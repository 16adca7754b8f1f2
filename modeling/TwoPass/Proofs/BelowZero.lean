import TwoPass.Proofs.Addressing
import TwoPass.Proofs.Resolution

/-!
# Addresses below zero

An origin directive takes any operand of the signed 32-bit range, so it can set the location counter
below zero. There is no other way down: both passes start at zero, and any other line leaves the counter
where it is or moves it up by one. An address is therefore negative only as long as the words behind a
negative origin have not made up for it.

* For a symbol, what counts is how the first pass reads the lines before the label: the last origin
  directive, behind whatever label it stands, and the statements since then that allocate a word
  (`Layout.address_neg_iff`).
* For a word, it is what the second pass has done: the last origin directive that it carried out, and the
  words emitted since then that take up room (`Generation.Task.lawfulAddress_neg_iff`).

Both conditions are met by an origin directive with a negative operand and by nothing else, so a text
without one has no negative address (`Assembly.negative_addresses`).
-/

namespace TwoPass

/-! ## The first pass -/

namespace Layout

/-- The operand of the last origin directive on the given lines. -/
def lastOrigin? (before : List Reading) : Option Int := before.reverse.findSome? Reading.origin?

/-- The number of statements that allocate a word behind the last origin directive. -/
def allocatedSince (before : List Reading) : Nat :=
  (before.reverse.takeWhile fun r => r.origin?.isNone).countP Reading.allocates

theorem address_eq (before : List Reading) :
    address before = (lastOrigin? before).getD 0 + allocatedSince before := rfl

/-- The last origin directive stands on one of the lines. -/
theorem exists_mem_of_lastOrigin? {before : List Reading} {address : Int}
    (h : lastOrigin? before = some address) : ∃ r ∈ before, r.origin? = some address := by
  obtain ⟨r, hr, horigin⟩ := List.exists_of_findSome?_eq_some h
  exact ⟨r, List.mem_reverse.mp hr, horigin⟩

/-- **Negative in the layout**: the last origin directive has an operand `-n`, and fewer than `n` words
have been allocated since. -/
theorem address_neg_iff {before : List Reading} :
    address before < 0 ↔
      ∃ n : Nat, lastOrigin? before = some (-(n : Int)) ∧ allocatedSince before < n := by
  rw [address_eq]
  constructor
  · intro hneg
    cases horigin : lastOrigin? before with
    | none =>
      rw [horigin, Option.getD_none] at hneg
      omega
    | some address =>
      rw [horigin, Option.getD_some] at hneg
      refine ⟨address.natAbs, ?_, by omega⟩
      rw [Option.some.injEq]
      omega
  · rintro ⟨n, horigin, hfew⟩
    rw [horigin, Option.getD_some]
    omega

/-! ## The second pass -/

/-- A counter that was set below zero was set by an origin directive on one of the lines. -/
theorem exists_mem_of_lastReset {lines : List Text} {i : Nat} {address : Int}
    (h : (lastReset lines i).address = address) (hneg : address < 0) :
    ∃ r ∈ Reading.ofLines lines, r.origin? = some address := by
  cases hfound : (Line.before lines i).reverse.findSome? fun p =>
      (Reading.ofLine (Text.trim p.1)).reset?.map (Reset.mk (p.2 + 1)) with
  | none =>
    -- no line has set the counter, which is then at zero
    rw [lastReset, hfound] at h
    exact absurd h (Int.ne_of_gt hneg)
  | some reset =>
    rw [lastReset, hfound, Option.getD_some] at h
    obtain ⟨⟨raw, j⟩, hmem, hset⟩ := List.exists_of_findSome?_eq_some hfound
    obtain ⟨operand, hoperand, rfl⟩ := Option.map_eq_some_iff.mp hset
    obtain ⟨-, hraw⟩ := Line.mem_before.mp (List.mem_reverse.mp hmem)
    refine ⟨_, List.mem_map.mpr ⟨raw, List.mem_of_getElem? hraw, rfl⟩, ?_⟩
    unfold Reading.reset? at hoperand
    split at hoperand
    · cases hoperand
    · rw [hoperand]
      exact congrArg some h

end Layout

/-- **Negative in the second pass**: the counter was last set to some `-n`, and fewer than `n` words that
take up room have been emitted since. -/
theorem Generation.Task.lawfulAddress_neg_iff {t : Task} {i : Nat} :
    t.lawfulAddress i < 0 ↔
      ∃ n : Nat, (Layout.lastReset t.lines i).address = -(n : Int) ∧
        t.allocatedBetween (Layout.lastReset t.lines i).number i < n := by
  rw [lawfulAddress]
  constructor
  · intro hneg
    exact ⟨(Layout.lastReset t.lines i).address.natAbs, by omega, by omega⟩
  · rintro ⟨n, hreset, hfew⟩
    rw [hreset]
    omega

/-! ## The whole text -/

namespace Assembly

/-- A symbol is worth the layout address of the last line that carries it. -/
theorem exists_lastCarrier_of_mem_entries {source : Text} {file : SourceName} {entry : Text × Int}
    (h : entry ∈ (assembleText source file).1.symbols.entries) :
    ∃ i, Layout.LastCarrier (Text.textLines source) entry.1 i ∧
      entry.2 = Layout.address ((Reading.ofLines (Text.textLines source)).take i) := by
  rw [assembleText_eq] at h
  obtain ⟨i, hlast, haddress⟩ := resolve?_ofText_eq_some_iff.mp (SymbolTable.resolve?_eq_some_iff.mpr h)
  exact ⟨i, hlast, haddress.symm⟩

/-- A word stands where the law of addresses puts it. -/
theorem exists_place_of_mem_words {source : Text} {file : SourceName} {w : Word}
    (h : w ∈ (assembleText source file).1.output.words) :
    ∃ i : Nat, i < (Text.textLines source).length ∧ w.line = i + 1 ∧
      w.address = (ofText source file).second.lawfulAddress i := by
  rw [assembleText_eq, Generation.Task.output_result] at h
  obtain ⟨i, raw, hi, hraw, hword⟩ := Generation.Task.exists_line_of_mem_words (Nat.le_refl _) h
  obtain ⟨value, advances, -, rfl⟩ := Treatment.word?_eq_some_iff.mp hword
  exact ⟨i, hi, rfl, Generation.Task.counter_reach (Nat.le_of_lt hi)⟩

/-- **Addresses below zero**. A symbol has a negative address exactly if the last origin directive whose
operand is accepted, before the last line that carries the label, has an operand `-n`, and fewer than `n`
statements in between allocate a word. A word has a negative address exactly if the last origin directive
that the second pass carried out before it has an operand `-n`, and fewer than `n` words have been emitted
in between for data directives and instructions. If no accepted operand of an origin directive is
negative, no address is. -/
theorem negative_addresses (source : Text) (file : SourceName) :
    let lines := Text.textLines source
    let run := (assembleText source file).1
    (∀ entry ∈ run.symbols.entries, ∃ i, Layout.LastCarrier lines entry.1 i ∧
      let before := (Reading.ofLines lines).take i
      (entry.2 < 0 ↔ ∃ n : Nat,
        Layout.lastOrigin? before = some (-(n : Int)) ∧ Layout.allocatedSince before < n)) ∧
    (∀ w ∈ run.output.words, ∃ i : Nat, i < lines.length ∧ w.line = i + 1 ∧
      let reset := Layout.lastReset lines i
      (w.address < 0 ↔ ∃ n : Nat, reset.address = -(n : Int) ∧
        (ofText source file).second.allocatedBetween reset.number i < n)) ∧
    ((∀ r ∈ Reading.ofLines lines, ∀ address, r.origin? = some address → 0 ≤ address) →
      (∀ entry ∈ run.symbols.entries, 0 ≤ entry.2) ∧ ∀ w ∈ run.output.words, 0 ≤ w.address) := by
  intro lines run
  refine ⟨?_, ?_, ?_⟩
  · intro entry hentry
    obtain ⟨i, hlast, haddress⟩ := exists_lastCarrier_of_mem_entries hentry
    refine ⟨i, hlast, ?_⟩
    rw [haddress]
    exact Layout.address_neg_iff
  · intro w hw
    obtain ⟨i, hi, hline, haddress⟩ := exists_place_of_mem_words hw
    refine ⟨i, hi, hline, ?_⟩
    rw [haddress]
    exact Generation.Task.lawfulAddress_neg_iff
  · intro horigins
    constructor
    · intro entry hentry
      obtain ⟨i, -, haddress⟩ := exists_lastCarrier_of_mem_entries hentry
      rw [haddress, ← Int.not_lt, Layout.address_neg_iff]
      rintro ⟨n, horigin, hfew⟩
      obtain ⟨r, hr, hr'⟩ := Layout.exists_mem_of_lastOrigin? horigin
      have hnonneg := horigins r (List.mem_of_mem_take hr) _ hr'
      omega
    · intro w hw
      obtain ⟨i, -, -, haddress⟩ := exists_place_of_mem_words hw
      rw [haddress, ← Int.not_lt, Generation.Task.lawfulAddress_neg_iff]
      rintro ⟨n, hreset, hfew⟩
      obtain ⟨r, hr, hr'⟩ := Layout.exists_mem_of_lastReset hreset (by omega)
      have hnonneg := horigins r hr _ hr'
      omega

/-- A label and a word right behind a negative origin, and a label and a word one step up. -/
theorem negative_addresses_climbing :
    let source := "LOC -1\nA:\nHLT\nB:\nHLT\n".toList
    let lines := Text.textLines source
    let run := (assembleText source .input).1
    (("A".toList, -1) ∈ run.symbols.entries ∧ ("B".toList, 0) ∈ run.symbols.entries ∧
      ⟨0, 0, "HLT".toList, 5⟩ ∈ run.output.words) ∧
    (∃ i, Layout.LastCarrier lines "A".toList i ∧ ∃ n : Nat,
      Layout.lastOrigin? ((Reading.ofLines lines).take i) = some (-(n : Int)) ∧
        Layout.allocatedSince ((Reading.ofLines lines).take i) < n) ∧
    ∃ i : Nat, i < lines.length ∧ (5 : Int) = i + 1 ∧
      ¬ ∃ n : Nat, (Layout.lastReset lines i).address = -(n : Int) ∧
        (ofText source .input).second.allocatedBetween (Layout.lastReset lines i).number i < n := by
  intro source lines run
  have hA : ("A".toList, -1) ∈ run.symbols.entries := by decide
  have hB : ("B".toList, 0) ∈ run.symbols.entries := by decide
  have hword : (⟨0, 0, "HLT".toList, 5⟩ : Word) ∈ run.output.words := by decide
  obtain ⟨hsymbols, hwords, -⟩ := negative_addresses source .input
  obtain ⟨i, hlast, hneg⟩ := hsymbols _ hA
  obtain ⟨j, hj, hline, hzero⟩ := hwords _ hword
  exact ⟨⟨hA, hB, hword⟩, ⟨i, hlast, hneg.mp (by decide)⟩,
    j, hj, hline, fun h => absurd (hzero.mpr h) (Int.lt_irrefl 0)⟩

/-- **An origin can be negative**. Nothing is reported about this text, yet the label and the word behind
the origin directive stand at the address `-1`. -/
theorem origin_below_zero :
    let run := (assembleText "LOC -1\nX:\nHLT\n".toList .input).1
    (run.report.errors = [] ∧ run.report.warnings = []) ∧
      (run.symbols.entries = [("X".toList, -1)] ∧ ¬ ∀ entry ∈ run.symbols.entries, 0 ≤ entry.2) ∧
      (run.output.words = [⟨-1, 0, "HLT".toList, 3⟩] ∧ ¬ ∀ w ∈ run.output.words, 0 ≤ w.address) := by
  intro run
  have hentries : run.symbols.entries = [("X".toList, -1)] := by decide
  have hwords : run.output.words = [⟨-1, 0, "HLT".toList, 3⟩] := by decide
  refine ⟨by decide, ⟨hentries, ?_⟩, ⟨hwords, ?_⟩⟩
  · rw [hentries]
    simp
  · rw [hwords]
    simp

end Assembly

end TwoPass
