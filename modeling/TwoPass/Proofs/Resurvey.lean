import TwoPass.Proofs.History

/-!
# The first pass over symbols that are there already

The first pass may start with a table that holds symbols, left by an earlier pass or bound by hand. Such a
table is a list that only grows: the names it has stay where they are, and behind them come the labels it
did not have, in the order of their first lines (`Survey.Task.exists_added`).

What a name resolves to is decided by its last line. On the way there the pass may bind it to other
addresses, and a second pass over the same lines does so again, so the two passes differ in between. At the
end they agree: the address of a label is the counter at its last line, which does not depend on the table,
and a name that is no label is left alone. Since a table is determined by its names and what they resolve to
(`SymbolTable.eq_of_names_of_resolve?`), the second pass leaves the table as it found it.
-/

namespace TwoPass

/-! ## What determines a table -/

namespace SymbolTable

theorem entries_eq_map (s : SymbolTable) :
    s.entries = s.names.map fun name => (name, (s.resolve? name).getD 0) := by
  rw [names, List.map_map]
  calc s.entries
    _ = s.entries.map id := (List.map_id _).symm
    _ = s.entries.map ((fun name => (name, (s.resolve? name).getD 0)) ∘ Prod.fst) := by
      refine List.map_congr_left fun entry hentry => ?_
      rw [Function.comp_apply, resolve?_eq_some_iff.mpr hentry]
      rfl

/-- A table is determined by its names, in order, and what they resolve to. -/
theorem eq_of_names_of_resolve? {s s' : SymbolTable} (hnames : s.names = s'.names)
    (hresolve : ∀ name, s.resolve? name = s'.resolve? name) : s = s' := by
  have hentries : s.entries = s'.entries := by
    rw [entries_eq_map s, entries_eq_map s', hnames]
    simp only [hresolve]
  obtain ⟨entries, _⟩ := s
  obtain ⟨entries', _⟩ := s'
  cases hentries
  rfl

/-- Where the names end with those that were added, a new name is added behind them. -/
theorem names_define_of_append {s : SymbolTable} {name : Text} (address : Int) {old added : List Text}
    (h : s.names = old ++ added) :
    (s.define name address).names =
      if name ∈ old then old ++ added
      else old ++ (if name ∈ added then added else added ++ [name]) := by
  rw [names_define, h]
  by_cases hold : name ∈ old
  · simp [hold]
  · by_cases hadded : name ∈ added
    · simp [hadded]
    · simp [hold, hadded]

end SymbolTable

namespace Survey.Task

variable {t : Task}

/-! ## Old names and new ones -/

/-- The line at a place carries a label that the table did not have when the pass began. -/
def Brings (t : Task) (name : Text) (i : Nat) : Prop :=
  name ∉ t.symbols.names ∧ Layout.Carries t.lines name i

theorem brings_lt_succ_iff {i k : Nat} {raw name : Text} (h : t.lines[i]? = some raw) :
    t.Brings name k ∧ k < i + 1 ↔
      (t.Brings name k ∧ k < i) ∨
        (name ∉ t.symbols.names ∧ (Reading.ofLine (Text.trim raw)).label? = some name) ∧ k = i := by
  have hr := Reading.ofLines_getElem?_eq_some.mpr ⟨raw, h, rfl⟩
  rw [Nat.lt_succ_iff_lt_or_eq, and_or_left]
  refine or_congr_right (and_congr_left ?_)
  rintro rfl
  exact and_congr_right fun _ => Layout.carries_iff hr

/-- **The table grows at its end**. On reaching a line, the names are the old ones and then the new labels
on the lines before it, in the order of their first lines. -/
theorem exists_added_reach {i : Nat} (hi : i ≤ t.lines.length) :
    ∃ added, (t.reach i).symbols.names = t.symbols.names ++ added ∧
      FirstOccurrences (fun name k => t.Brings name k ∧ k < i) added := by
  refine Line.place_induction (P := fun i => ∃ added,
    (t.reach i).symbols.names = t.symbols.names ++ added ∧
      FirstOccurrences (fun name k => t.Brings name k ∧ k < i) added) ?_ ?_ hi
  · refine ⟨[], (List.append_nil _).symm, List.nodup_nil, ?_, List.Pairwise.nil⟩
    simp
  · rintro i raw hraw ⟨added, hnames, hadded⟩
    have hr := Reading.ofLines_getElem?_eq_some.mpr ⟨raw, hraw, rfl⟩
    have hsymbols := symbols_reach_succ (t := t) hr
    cases hlabel : (Reading.ofLine (Text.trim raw)).label? with
    | none =>
      simp only [hlabel] at hsymbols
      rw [hsymbols]
      refine ⟨added, hnames, hadded.congr fun name k => ?_⟩
      rw [brings_lt_succ_iff hraw, hlabel, or_iff_left]
      rintro ⟨⟨-, heq⟩, -⟩
      cases heq
    | some label =>
      simp only [hlabel] at hsymbols
      rw [hsymbols, SymbolTable.names_define_of_append _ hnames]
      by_cases hold : label ∈ t.symbols.names
      · rw [if_pos hold]
        refine ⟨added, rfl, hadded.congr fun name k => ?_⟩
        rw [brings_lt_succ_iff hraw, hlabel, or_iff_left]
        rintro ⟨⟨hnew, heq⟩, -⟩
        cases heq
        exact hnew hold
      · rw [if_neg hold]
        refine ⟨_, rfl, hadded.concat (fun name k hk => hk.2) fun name k => ?_⟩
        rw [brings_lt_succ_iff hraw, hlabel]
        refine or_congr_right (and_congr_left fun _ => ?_)
        constructor
        · rintro ⟨-, heq⟩
          exact (Option.some.inj heq).symm
        · rintro rfl
          exact ⟨hold, rfl⟩

/-- The names after the pass. -/
theorem exists_added (t : Task) :
    ∃ added, t.result.symbols.names = t.symbols.names ++ added ∧ FirstOccurrences t.Brings added := by
  obtain ⟨added, hnames, hadded⟩ := exists_added_reach (t := t) (Nat.le_refl _)
  rw [symbols_result]
  refine ⟨added, hnames, hadded.congr fun name i => ?_⟩
  exact ⟨fun h => ⟨h, h.2.lt_length⟩, And.left⟩

/-- All labels are bound after the pass. -/
theorem mem_names_of_carries {name : Text} {i : Nat} (h : Layout.Carries t.lines name i) :
    name ∈ t.result.symbols.names := by
  obtain ⟨added, hnames, hadded⟩ := t.exists_added
  rw [hnames, List.mem_append]
  by_cases hold : name ∈ t.symbols.names
  · exact .inl hold
  · exact .inr ((hadded.mem_iff name).mpr ⟨i, hold, h⟩)

/-! ## The same lines again -/

/-- The pass over the same lines, with the table that the first one left. -/
def again (t : Task) (file : SourceName) : Task := ⟨t.result.symbols, file, t.lines⟩

/-- The second pass finds all labels bound, so it adds none. -/
theorem names_again (t : Task) (file : SourceName) :
    (t.again file).result.symbols.names = t.result.symbols.names := by
  obtain ⟨added, hnames, hadded⟩ := (t.again file).exists_added
  have hnil : added = [] := by
    refine List.eq_nil_iff_forall_not_mem.mpr fun name hname => ?_
    obtain ⟨i, hnew, hcarries⟩ := (hadded.mem_iff name).mp hname
    exact hnew (mem_names_of_carries (t := t) hcarries)
  rw [hnames, hnil, List.append_nil]
  rfl

theorem symbols_again (t : Task) (file : SourceName) :
    (t.again file).result.symbols = t.result.symbols := by
  refine SymbolTable.eq_of_names_of_resolve? (names_again t file) fun name => ?_
  by_cases hcarried : ∃ i, Layout.Carries t.lines name i
  · -- both passes end with the address of the last line
    obtain ⟨i, hi⟩ := hcarried
    obtain ⟨j, hj⟩ := hi.exists_lastCarrier
    have hcounter : ((t.again file).reach j).counter = (t.reach j).counter :=
      counter_walk_congr file t.file (t.lines.take j) 1 1 rfl
    rw [resolve?_result_of_lastCarrier (t := t) hj, ← hcounter]
    exact resolve?_result_of_lastCarrier (t := t.again file) hj
  · exact resolve?_result_of_not_carries (t := t.again file) (not_exists.mp hcarried)

end Survey.Task

/-- **The first pass over an existing table**. Where the counter ends does not depend on the table. A name
that no line carries resolves as before, and a label to the address of its last line. The names of the table
come first, as they were, and then the labels that are new, in the order of their first lines. A second pass
over the same lines leaves the table exactly as it is. -/
theorem Survey.run_over_table (symbols symbols' : SymbolTable) (file file' : SourceName)
    (lines : List Text) :
    (run symbols file lines).counter = (run symbols' file' lines).counter ∧
    (∀ name, (∀ i, ¬ Layout.Carries lines name i) →
      (run symbols file lines).symbols.resolve? name = symbols.resolve? name) ∧
    (∀ name i, Layout.LastCarrier lines name i →
      (run symbols file lines).symbols.resolve? name =
        some (Layout.address ((Reading.ofLines lines).take i))) ∧
    (∃ added, (run symbols file lines).symbols.names = symbols.names ++ added ∧
      FirstOccurrences (fun name i => name ∉ symbols.names ∧ Layout.Carries lines name i) added) ∧
    (run (run symbols file lines).symbols file' lines).symbols = (run symbols file lines).symbols := by
  let t : Task := ⟨symbols, file, lines⟩
  refine ⟨counter_walk_congr file file' lines 1 1 rfl, fun name h => ?_, fun name i h => ?_,
    t.exists_added, t.symbols_again file'⟩
  · exact Task.resolve?_result_of_not_carries (t := t) h
  · rw [← Task.counter_reach (t := t) (Nat.le_of_lt h.1.lt_length)]
    exact Task.resolve?_result_of_lastCarrier (t := t) h

/-- A table with a name that is no label and one that two lines bind to different addresses. -/
theorem Survey.run_over_table_stale :
    let symbols := (SymbolTable.empty.define "OLD".toList 7).define "X".toList 9
    let lines := ["LOC 5".toList, "X: HLT".toList, "B:".toList, "X:".toList]
    let first := run symbols .input lines
    (∀ i, ¬ Layout.Carries lines "OLD".toList i) ∧ first.symbols.resolve? "OLD".toList = some 7 ∧
    Layout.LastCarrier lines "X".toList 3 ∧ first.symbols.resolve? "X".toList = some 6 ∧
    first.symbols.names = ["OLD".toList, "X".toList, "B".toList] ∧
    first.counter = (run .empty .input lines).counter ∧
    (run first.symbols .input lines).symbols = first.symbols := by
  intro symbols lines first
  have hold : ∀ i, ¬ Layout.Carries lines "OLD".toList i := by
    have hbelow : ∀ i, i < 4 → ¬ Layout.Carries lines "OLD".toList i := by decide
    exact fun i hi => hbelow i hi.lt_length hi
  have hlast : Layout.LastCarrier lines "X".toList 3 := by decide
  have hnames : first.symbols.names = ["OLD".toList, "X".toList, "B".toList] := by decide
  obtain ⟨hcounter, hkept, hbound, -, hagain⟩ := run_over_table symbols .empty .input .input lines
  exact ⟨hold, hkept _ hold, hlast, hbound _ 3 hlast, hnames, hcounter, hagain⟩

end TwoPass
