import Mathlib.Data.List.Forall2
import TwoPass.Proofs.Gist

/-!
# The layout does not see the addresses of symbols

A data directive may name a symbol, and whether it is accepted depends on whether the name is bound. So
the table does reach the counter, since a line that is rejected takes up no room. But only its names do:
two runs of the second pass over tables with the same names and any addresses whatsoever stay in step.

What a line takes from the table is said once. Unless it is an unlabelled data directive that names a
symbol (`Reading.symbol?`), both runs treat it alike, and if it is one, both emit a word, each the
address in its own table (`Reading.treatment_relabelled`). The counters agree by induction over the
places, and everything else is compared place by place: diagnostics and warnings are the same, and the
words, with their lines in listing and load file, differ in their values at most (`Word.Relabelled`,
`Line.Relabelled`).
-/

namespace TwoPass

/-! ## What a line takes from the table -/

namespace SymbolTable

/-- Both tables bind the same names, to whatever addresses. -/
def SameNames (symbols symbols' : SymbolTable) : Prop :=
  ∀ name, name ∈ symbols.names ↔ name ∈ symbols'.names

theorem contains_iff_mem_names {symbols : SymbolTable} {name : Text} :
    symbols.contains name = true ↔ name ∈ symbols.names := by
  simp [contains, resolve?, names]

theorem contains_eq_false_iff {symbols : SymbolTable} {name : Text} :
    symbols.contains name = false ↔ symbols.resolve? name = none := by
  rw [contains, Option.isSome_eq_false_iff, Option.isNone_iff_eq_none]

theorem SameNames.contains_eq {symbols symbols' : SymbolTable} (h : symbols.SameNames symbols')
    (name : Text) : symbols.contains name = symbols'.contains name := by
  rw [Bool.eq_iff_iff, contains_iff_mem_names, contains_iff_mem_names]
  exact h name

end SymbolTable

namespace Reading

/-- The symbol that a line names: the line is an unlabelled data directive, and the token of its operand
is bound. -/
def symbol? (symbols : SymbolTable) : Reading → Option Text
  | bare s =>
    if s.keyword? = some .data ∧ symbols.contains (Treatment.dataToken s.tail) = true then
      some (Treatment.dataToken s.tail)
    else none
  | inert | labelled .. | finish .. => none

variable {symbols symbols' : SymbolTable}

theorem symbol?_eq_some_iff {r : Reading} {token : Text} :
    r.symbol? symbols = some token ↔
      ∃ s, r = bare s ∧ s.keyword? = some .data ∧ Treatment.dataToken s.tail = token ∧
        symbols.contains token = true := by
  cases r with
  | inert => simp [symbol?]
  | labelled label behind => simp [symbol?]
  | finish label behind => simp [symbol?]
  | bare s =>
    simp only [symbol?, Option.ite_none_right_eq_some, Option.some.injEq, bare.injEq]
    constructor
    · rintro ⟨⟨hdata, hbound⟩, rfl⟩
      exact ⟨s, rfl, hdata, rfl, hbound⟩
    · rintro ⟨_, rfl, hdata, rfl, hbound⟩
      exact ⟨⟨hdata, hbound⟩, rfl⟩

theorem symbol?_congr (h : symbols.SameNames symbols') (r : Reading) :
    r.symbol? symbols = r.symbol? symbols' := by
  cases r with
  | bare s => rw [symbol?, symbol?, h.contains_eq]
  | inert | labelled _ _ | finish _ _ => rfl

/-- A line that names a symbol emits its address. -/
theorem treatment_of_symbol? {r : Reading} {token : Text} (h : r.symbol? symbols = some token)
    (file : SourceName) (number : Nat) (line : Text) :
    ∃ address, symbols.resolve? token = some address ∧
      r.treatment symbols file number line = .emitted address true := by
  obtain ⟨s, rfl, hdata, rfl, hbound⟩ := symbol?_eq_some_iff.mp h
  obtain ⟨address, haddress⟩ := Option.isSome_iff_exists.mp hbound
  refine ⟨address, haddress, ?_⟩
  simp [Treatment.ofBare, hdata, Treatment.ofKeyword, Treatment.dataValue, haddress, Except.map,
    Treatment.orReject]

/-- A line that names no symbol is treated alike over all tables with the same names. -/
theorem treatment_congr_of_symbol? (hnames : symbols.SameNames symbols') {r : Reading}
    (h : r.symbol? symbols = none) (file : SourceName) (number : Nat) (line : Text) :
    r.treatment symbols file number line = r.treatment symbols' file number line := by
  cases r with
  | inert => rfl
  | labelled label behind => rfl
  | finish label behind => rfl
  | bare s =>
    rw [treatment, treatment, Treatment.ofBare, Treatment.ofBare]
    rcases hkeyword : s.keyword? with _ | _ | _ | _ | m
    · rfl
    · rfl
    · -- a data directive whose token neither table binds is read as an operand
      have hfree : symbols.contains (Treatment.dataToken s.tail) = false := by
        simpa [symbol?, hkeyword] using h
      have hunbound := SymbolTable.contains_eq_false_iff.mp hfree
      rw [hnames.contains_eq] at hfree
      have hunbound' := SymbolTable.contains_eq_false_iff.mp hfree
      simp [Treatment.ofKeyword, Treatment.dataValue, hunbound, hunbound']
    · rfl
    · rfl

/-- **What a line takes from the table**. Over two tables with the same names it is treated alike, or it
names a symbol and emits the address of each table. -/
theorem treatment_relabelled (h : symbols.SameNames symbols') (r : Reading) (file : SourceName)
    (number : Nat) (line : Text) :
    (r.symbol? symbols = none ∧
      r.treatment symbols file number line = r.treatment symbols' file number line) ∨
    ∃ token address address', r.symbol? symbols = some token ∧
      symbols.resolve? token = some address ∧ symbols'.resolve? token = some address' ∧
      r.treatment symbols file number line = .emitted address true ∧
      r.treatment symbols' file number line = .emitted address' true := by
  cases hsymbol : r.symbol? symbols with
  | none => exact .inl ⟨rfl, treatment_congr_of_symbol? h hsymbol file number line⟩
  | some token =>
    obtain ⟨address, haddress, ht⟩ := treatment_of_symbol? hsymbol file number line
    obtain ⟨address', haddress', ht'⟩ :=
      treatment_of_symbol? (symbol?_congr h r ▸ hsymbol) file number line
    exact .inr ⟨token, address, address', rfl, haddress, haddress', ht, ht'⟩

end Reading

/-! ## Words and lines that differ in a value at most -/

/-- Two words for one line over two tables. They have the same address, source and line number. If the
line names a symbol, each has the address of its own table as its value; else the values are the same
as well. -/
structure Word.Relabelled (symbols symbols' : SymbolTable) (w w' : Word) : Prop where
  /-- the address -/
  address : w.address = w'.address
  /-- the source -/
  source : w.source = w'.source
  /-- the line number -/
  line : w.line = w'.line
  /-- the value, if the line names no symbol -/
  value : (Reading.ofLine w.source).symbol? symbols = none → w.value = w'.value
  /-- the values, if the line names a symbol -/
  values : ∀ token, (Reading.ofLine w.source).symbol? symbols = some token →
    symbols.resolve? token = some w.value ∧ symbols'.resolve? token = some w'.value

/-- Two lines of a listing over two tables. They are the same, or they show two words for a line that
names a symbol. -/
def Line.Relabelled (symbols symbols' : SymbolTable) (shown shown' : Text) : Prop :=
  shown = shown' ∨
    ∃ w w' : Word, w.Relabelled symbols symbols' w' ∧
      (Reading.ofLine w.source).symbol? symbols ≠ none ∧
      shown = w.listingText ∧ shown' = w'.listingText

namespace Word

variable {symbols symbols' : SymbolTable} {line : Text}

/-- A word for a line that names no symbol stays as it is. -/
theorem relabelled_of_none (h : (Reading.ofLine line).symbol? symbols = none)
    (address value : Int) (number : Nat) :
    Word.Relabelled symbols symbols' ⟨address, value, line, number⟩
      ⟨address, value, line, number⟩ where
  address := rfl
  source := rfl
  line := rfl
  value _ := rfl
  values token htoken := by
    rw [h] at htoken
    cases htoken

/-- The words for a line that names a symbol are its addresses. -/
theorem relabelled_of_some {token : Text} {value value' : Int}
    (h : (Reading.ofLine line).symbol? symbols = some token)
    (hvalue : symbols.resolve? token = some value)
    (hvalue' : symbols'.resolve? token = some value') (address : Int) (number : Nat) :
    Word.Relabelled symbols symbols' ⟨address, value, line, number⟩
      ⟨address, value', line, number⟩ where
  address := rfl
  source := rfl
  line := rfl
  value hnone := by
    rw [h] at hnone
    cases hnone
  values token' htoken' := by
    obtain rfl := Option.some.inj (h.symm.trans htoken')
    exact ⟨hvalue, hvalue'⟩

/-- Words that differ in their values at most lie at the same spots. -/
theorem map_eq_of_relabelled {words words' : List Word}
    (h : List.Forall₂ (Word.Relabelled symbols symbols') words words') :
    (words.map fun w => (w.address, w.source, w.line)) =
      words'.map fun w => (w.address, w.source, w.line) := by
  induction h with
  | nil => rfl
  | cons hword _ ih =>
    rw [List.map_cons, List.map_cons, ih, hword.address, hword.source, hword.line]

end Word

/-! ## Two runs of the second pass -/

/-- What two passes gather from the same lines is related item by item. -/
theorem Line.forall₂_filterMap_before {α : Type} {R : α → α → Prop} {lines : List Text}
    {item? item?' : Nat → Text → Option α}
    (h : ∀ i raw, i ≤ lines.length → Option.Rel R (item? i raw) (item?' i raw)) :
    List.Forall₂ R ((before lines lines.length).filterMap fun p => item? p.2 p.1)
      ((before lines lines.length).filterMap fun p => item?' p.2 p.1) := by
  refine List.rel_filterMap (R := fun p q => p = q ∧ p.2 ≤ lines.length) ?_ ?_
  · rintro ⟨raw, i⟩ _ ⟨rfl, hi⟩
    exact h i raw hi
  · refine List.forall₂_same.mpr fun p hp => ⟨rfl, ?_⟩
    exact Nat.le_of_lt (mem_before.mp hp).1

namespace Generation.Task

variable (t : Task) (symbols : SymbolTable)

/-- The same pass over another table. -/
def withSymbols : Task := { t with symbols := symbols }

variable {t symbols}

section Relabelled

variable (h : t.symbols.SameNames symbols)

include h

theorem treatment_withSymbols (i : Nat) (raw : Text) :
    ((Reading.ofLine (Text.trim raw)).symbol? t.symbols = none ∧
      t.treatment i raw = (t.withSymbols symbols).treatment i raw) ∨
    ∃ token address address', (Reading.ofLine (Text.trim raw)).symbol? t.symbols = some token ∧
      t.symbols.resolve? token = some address ∧ symbols.resolve? token = some address' ∧
      t.treatment i raw = .emitted address true ∧
      (t.withSymbols symbols).treatment i raw = .emitted address' true := by
  rw [treatment_eq, treatment_eq]
  exact Reading.treatment_relabelled h _ t.file (i + 1) (Text.trim raw)

/-- A line moves both counters alike. -/
theorem counter_withSymbols_succ {i : Nat} {raw : Text} (hraw : t.lines[i]? = some raw)
    (ih : (t.reach i).counter = ((t.withSymbols symbols).reach i).counter) :
    (t.reach (i + 1)).counter = ((t.withSymbols symbols).reach (i + 1)).counter := by
  refine congrArg LocationCounter.mk ?_
  have hraw' : (t.withSymbols symbols).lines[i]? = some raw := hraw
  rw [reach_succ t hraw, reach_succ _ hraw', counter_apply, counter_apply, ← ih]
  obtain ⟨-, ht⟩ | ⟨_, _, _, -, -, -, ht, ht'⟩ := treatment_withSymbols h i raw
  · rw [ht]
  · rw [ht, ht']
    rfl

/-- **The counters stay in step**. -/
theorem counter_withSymbols {i : Nat} (hi : i ≤ t.lines.length) :
    (t.reach i).counter = ((t.withSymbols symbols).reach i).counter :=
  Line.place_induction
    (P := fun i => (t.reach i).counter = ((t.withSymbols symbols).reach i).counter) rfl
    (fun _ _ hraw ih => counter_withSymbols_succ h hraw ih) hi

theorem diagnostic?_withSymbols (i : Nat) (raw : Text) :
    t.diagnostic? i raw = (t.withSymbols symbols).diagnostic? i raw := by
  obtain ⟨-, ht⟩ | ⟨_, _, _, -, -, -, ht, ht'⟩ := treatment_withSymbols h i raw
  · rw [diagnostic?, diagnostic?, ht]
  · rw [diagnostic?, diagnostic?, ht, ht']
    rfl

theorem warning?_withSymbols (i : Nat) (raw : Text) :
    t.warning? i raw = (t.withSymbols symbols).warning? i raw := by
  obtain ⟨-, ht⟩ | ⟨_, _, _, -, -, -, ht, ht'⟩ := treatment_withSymbols h i raw
  · rw [warning?, warning?, ht]
  · rw [warning?, warning?, ht, ht']
    rfl

/-- The words of a line over two tables differ in their values at most. -/
theorem word?_withSymbols {i : Nat} (hi : i ≤ t.lines.length) (raw : Text) :
    Option.Rel (Word.Relabelled t.symbols symbols) (t.word? i raw)
      ((t.withSymbols symbols).word? i raw) := by
  rw [word?, word?, ← counter_withSymbols h hi]
  obtain ⟨hsymbol, ht⟩ | ⟨token, _, _, hsymbol, haddress, haddress', ht, ht'⟩ :=
    treatment_withSymbols h i raw
  · rw [← ht]
    cases ht : t.treatment i raw with
    | emitted value advances => exact .some (Word.relabelled_of_none hsymbol _ _ _)
    | listed warning => exact .none
    | moved address => exact .none
    | rejected d => exact .none
  · rw [ht, ht']
    exact .some (Word.relabelled_of_some hsymbol haddress haddress' _ _)

/-- The lines of a listing over two tables differ in the values of words at most. -/
theorem listingLine?_withSymbols {i : Nat} (hi : i ≤ t.lines.length) (raw : Text) :
    Option.Rel (Line.Relabelled t.symbols symbols) (t.listingLine? i raw)
      ((t.withSymbols symbols).listingLine? i raw) := by
  rw [listingLine?, listingLine?, ← counter_withSymbols h hi]
  obtain ⟨-, ht⟩ | ⟨token, _, _, hsymbol, haddress, haddress', ht, ht'⟩ :=
    treatment_withSymbols h i raw
  · rw [← ht]
    cases (t.treatment i raw).listingLine? (t.reach i).counter.value (i + 1) (Text.trim raw) with
    | none => exact .none
    | some shown => exact .some (.inl rfl)
  · rw [ht, ht']
    refine .some (.inr ⟨_, _, Word.relabelled_of_some hsymbol haddress haddress' _ _, ?_, rfl, rfl⟩)
    rw [hsymbol]
    exact Option.some_ne_none token

/-- What is recorded does not depend on the addresses. -/
theorem report_withSymbols : t.result.report = (t.withSymbols symbols).result.report := by
  have herrors : t.result.report.errors = (t.withSymbols symbols).result.report.errors := by
    rw [report_result, report_result, errors_reach (Nat.le_refl _), errors_reach (Nat.le_refl _)]
    simp only [diagnostic?_withSymbols h]
    rfl
  have hwarnings : t.result.report.warnings = (t.withSymbols symbols).result.report.warnings := by
    rw [report_result, report_result, warnings_reach (Nat.le_refl _), warnings_reach (Nat.le_refl _)]
    simp only [warning?_withSymbols h]
    rfl
  exact congrArg₂ Report.mk herrors hwarnings

theorem words_withSymbols :
    List.Forall₂ (Word.Relabelled t.symbols symbols) t.result.output.words
      (t.withSymbols symbols).result.output.words := by
  rw [output_result, output_result, words_reach (Nat.le_refl _), words_reach (Nat.le_refl _)]
  exact Line.forall₂_filterMap_before fun i raw hi => word?_withSymbols h hi raw

theorem listing_withSymbols :
    List.Forall₂ (Line.Relabelled t.symbols symbols) t.result.output.listing
      (t.withSymbols symbols).result.output.listing := by
  rw [output_result, output_result, listing_reach (Nat.le_refl _), listing_reach (Nat.le_refl _)]
  exact Line.forall₂_filterMap_before fun i raw hi => listingLine?_withSymbols h hi raw

end Relabelled

/-- A line that names a symbol emits the address of the symbol, and no other word. -/
theorem filter_line_words_of_symbol? {i : Nat} {raw token : Text} (hraw : t.lines[i]? = some raw)
    (hsymbol : (Reading.ofLine (Text.trim raw)).symbol? t.symbols = some token) :
    ∃ address, t.symbols.resolve? token = some address ∧
      (t.result.output.words.filter fun w : Word => w.line = i + 1) =
        [⟨(t.reach i).counter.value, address, Text.trim raw, i + 1⟩] := by
  obtain ⟨address, haddress, ht⟩ :=
    Reading.treatment_of_symbol? hsymbol t.file (i + 1) (Text.trim raw)
  refine ⟨address, haddress, ?_⟩
  rw [filter_line_words hraw, word?, treatment_eq, ht]
  rfl

/-- **The layout ignores the addresses of symbols**. Over two tables with the same names the second pass
has the same counter on reaching every line and at the end, emits words at the same addresses for the
same lines, and records the same diagnostics and warnings. The words differ in their values at most, and
only on unlabelled data directives that name a symbol; such a line always emits the address that the
table of its run has for the symbol. The load files have the load lines of these words, and the listings
differ at most in the lines that show them. -/
theorem layout_ignores_addresses (t : Task) (symbols : SymbolTable)
    (h : t.symbols.SameNames symbols) :
    let u := t.withSymbols symbols
    (∀ i, i ≤ t.lines.length → (t.reach i).counter = (u.reach i).counter) ∧
    t.result.counter = u.result.counter ∧
    (t.result.output.words.map fun w => (w.address, w.source, w.line)) =
      (u.result.output.words.map fun w => (w.address, w.source, w.line)) ∧
    t.result.report = u.result.report ∧
    List.Forall₂ (Word.Relabelled t.symbols symbols) t.result.output.words u.result.output.words ∧
    List.Forall₂ (Line.Relabelled t.symbols symbols) t.result.output.listing
      u.result.output.listing ∧
    t.result.output.load = t.result.output.words.map Word.loadText ∧
    u.result.output.load = u.result.output.words.map Word.loadText ∧
    ∀ (i : Nat) (raw token : Text), t.lines[i]? = some raw →
      (Reading.ofLine (Text.trim raw)).symbol? t.symbols = some token →
      ∃ address address', t.symbols.resolve? token = some address ∧
        symbols.resolve? token = some address' ∧
        (t.result.output.words.filter fun w : Word => w.line = i + 1) =
          [⟨(t.reach i).counter.value, address, Text.trim raw, i + 1⟩] ∧
        (u.result.output.words.filter fun w : Word => w.line = i + 1) =
          [⟨(t.reach i).counter.value, address', Text.trim raw, i + 1⟩] := by
  intro u
  have hwords := words_withSymbols h
  refine ⟨fun i hi => counter_withSymbols h hi, ?_, Word.map_eq_of_relabelled hwords,
    report_withSymbols h, hwords, listing_withSymbols h, load_result t, load_result u, ?_⟩
  · rw [result_eq, result_eq]
    exact counter_withSymbols h (Nat.le_refl _)
  · intro i raw token hraw hsymbol
    obtain ⟨address, haddress, hline⟩ := filter_line_words_of_symbol? hraw hsymbol
    obtain ⟨address', haddress', hline'⟩ := filter_line_words_of_symbol? (t := u) hraw
      (Reading.symbol?_congr h _ ▸ hsymbol)
    have hi : i ≤ t.lines.length := Nat.le_of_lt (List.getElem?_eq_some_iff.mp hraw).1
    rw [← counter_withSymbols h hi] at hline'
    exact ⟨address, address', haddress, haddress', hline, hline'⟩

/-- A name that is bound to different addresses, one that is not bound, and a numeral that is. -/
theorem layout_ignores_addresses_numeral :
    let lines := ["DATA X", "DATA Y", "7: HLT", "DATA 7 ; bound", "LDR 1"].map String.toList
    let symbols := (SymbolTable.empty.define "X".toList 3).define "7".toList 0
    let symbols' := (SymbolTable.empty.define "7".toList (-1)).define "X".toList 3000000000
    let t : Task := ⟨symbols, .input, .empty, false, false, lines⟩
    let u := t.withSymbols symbols'
    (t.reach 4).counter = (u.reach 4).counter ∧ t.result.report = u.result.report ∧
      t.result.report.errors.length = 1 ∧ t.result.report.warnings.length = 1 ∧
      List.Forall₂ (Word.Relabelled symbols symbols') t.result.output.words u.result.output.words ∧
      t.result.output.words.map Word.value = [3, 0, 8192] ∧
      u.result.output.words.map Word.value = [3000000000, -1, 8192] := by
  intro lines symbols symbols' t u
  have hnames : symbols.SameNames symbols' := by
    have hreverse : symbols'.names = symbols.names.reverse := by decide
    intro name
    rw [hreverse, List.mem_reverse]
  obtain ⟨hcounter, -, -, hreport, hwords, -⟩ := layout_ignores_addresses t symbols' hnames
  exact ⟨hcounter 4 (by decide), hreport, by decide, by decide, hwords, by decide, by decide⟩

end Generation.Task

end TwoPass
