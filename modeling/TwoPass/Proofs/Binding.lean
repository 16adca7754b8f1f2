import TwoPass.Proofs.Trace

/-!
# What the first pass binds

The state of the first pass on reaching a line has a closed form in terms of the readings of the lines
before it, without reference to any earlier state.

* The counter is at `Layout.address`: the address of the last origin directive, and from there one word
  for each statement that allocates one (`Survey.Task.counter_reach`).
* The names of the table are those bound before the pass and then the labels, each once and in the
  order of their first occurrence (`Survey.Task.names_reach`).
* A name is bound to the address of the last line that carries it as a label; a name that no line
  carries is bound as it was before the pass (`Survey.Task.resolve?_reach`, and for the whole pass
  `resolve?_result_of_lastCarrier` and `resolve?_result_of_not_carries`).
-/

namespace TwoPass

/-! ## Names of a table -/

namespace SymbolTable

/-- Binding appends a new name and leaves a bound one in its place. -/
theorem map_fst_bind (name : Text) (address : Int) (entries : List (Text × Int)) :
    (bind name address entries).map Prod.fst =
      if name ∈ entries.map Prod.fst then entries.map Prod.fst
      else entries.map Prod.fst ++ [name] := by
  induction entries with
  | nil => rfl
  | cons entry entries ih =>
    rw [bind]
    by_cases he : entry.1 = name
    · simp [he]
    · -- the head stays first, so only the rest of the list can grow
      rw [if_neg he, List.map_cons, ih]
      by_cases hmem : name ∈ entries.map Prod.fst
      · simp [hmem]
      · have hne : name ≠ entry.1 := fun h => he h.symm
        rw [if_neg hmem, List.map_cons, if_neg (by simpa [hne] using hmem)]
        rfl

theorem names_define (s : SymbolTable) (name : Text) (address : Int) :
    (s.define name address).names =
      if name ∈ s.names then s.names else s.names ++ [name] :=
  map_fst_bind name address s.entries

/-- Since no name is bound twice, a table resolves its bindings. -/
theorem resolve?_eq_some_iff {s : SymbolTable} {name : Text} {address : Int} :
    s.resolve? name = some address ↔ (name, address) ∈ s.entries := by
  obtain ⟨entries, distinct⟩ := s
  simp only [resolve?]
  induction entries with
  | nil => simp
  | cons entry entries ih =>
    obtain ⟨hnew, hrest⟩ := List.nodup_cons.mp distinct
    by_cases he : entry.1 = name
    · obtain ⟨first, bound⟩ := entry
      obtain rfl : first = name := he
      -- the name has no second binding further on
      have hlater : (first, address) ∉ entries := fun h => hnew (List.mem_map.mpr ⟨_, h, rfl⟩)
      simp [hlater, eq_comm]
    · have hother : (name, address) ≠ entry := by
        rintro rfl
        exact he rfl
      simp [he, hother, ih hrest]

end SymbolTable

/-- Adding an element at the end of a list adds it to the list of distinct elements only if it is
new. -/
theorem eraseDups_concat (names : List Text) (name : Text) :
    (names ++ [name]).eraseDups =
      if name ∈ names then names.eraseDups else names.eraseDups ++ [name] := by
  rw [List.eraseDups_append]
  by_cases hmem : name ∈ names
  · simp [hmem, List.removeAll]
  · simp [hmem, List.removeAll, List.eraseDups_cons]

theorem eraseDups_of_nodup {names : List Text} (h : names.Nodup) : names.eraseDups = names := by
  induction names with
  | nil => rfl
  | cons name names ih =>
    obtain ⟨hnew, hrest⟩ := List.nodup_cons.mp h
    have hfilter : (names.filter fun n => !n == name) = names := by
      refine List.filter_eq_self.mpr ?_
      intro n hn
      simpa using fun heq : n = name => hnew (heq ▸ hn)
    rw [List.eraseDups_cons, hfilter, ih hrest]

/-! ## The layout of the lines before a place -/

namespace Layout

/-- The address behind the given lines: that of the last origin directive, or zero if there is none,
and one more for each statement after it that allocates a word. -/
def address (before : List Reading) : Int :=
  (before.reverse.findSome? Reading.origin?).getD 0 +
    (before.reverse.takeWhile fun r => r.origin?.isNone).countP Reading.allocates

/-- The labels on the given lines, in order. -/
def labels (before : List Reading) : List Text := before.filterMap Reading.label?

theorem address_concat (before : List Reading) (r : Reading) :
    address (before ++ [r]) = r.next (address before) := by
  rw [address, address, Reading.next, List.reverse_concat, List.findSome?_cons]
  cases ho : r.origin? with
  | some n =>
    -- an origin directive makes whatever stands before it irrelevant
    simp [ho]
  | none =>
    by_cases ha : r.allocates = true
    · simp [ho, ha, Int.add_assoc]
    · simp [ho, ha]

theorem labels_concat (before : List Reading) (r : Reading) :
    labels (before ++ [r]) = labels before ++ r.label?.toList := by
  rw [labels, List.filterMap_append]
  cases r <;> rfl

/-- The line at a place carries a label: it is not inert, and its first token is the name with a
colon. -/
def Carries (lines : List Text) (name : Text) (i : Nat) : Prop :=
  ∃ raw, lines[i]? = some raw ∧ Line.isInert (Text.trim raw) = false ∧
    Line.firstToken? (Text.trim raw) = some (name ++ [':'])

/-- The line at a place is the last one to carry a label. -/
def LastCarrier (lines : List Text) (name : Text) (i : Nat) : Prop :=
  Carries lines name i ∧ ∀ j, i < j → ¬ Carries lines name j

/-- A line carries a label exactly if its reading has it. -/
theorem carries_iff_exists {lines : List Text} {name : Text} {i : Nat} :
    Carries lines name i ↔
      ∃ r, (Reading.ofLines lines)[i]? = some r ∧ r.label? = some name := by
  constructor
  · rintro ⟨raw, hraw, hline⟩
    exact ⟨_, Reading.ofLines_getElem?_eq_some.mpr ⟨raw, hraw, rfl⟩,
      Reading.label?_ofLine_eq_some_iff.mpr hline⟩
  · rintro ⟨r, hr, hlabel⟩
    obtain ⟨raw, hraw, rfl⟩ := Reading.ofLines_getElem?_eq_some.mp hr
    exact ⟨raw, hraw, Reading.label?_ofLine_eq_some_iff.mp hlabel⟩

theorem carries_iff {lines : List Text} {name : Text} {i : Nat} {r : Reading}
    (h : (Reading.ofLines lines)[i]? = some r) : Carries lines name i ↔ r.label? = some name := by
  simp [carries_iff_exists, h]

theorem mem_labels_iff {lines : List Text} {name : Text} :
    name ∈ labels (Reading.ofLines lines) ↔ ∃ i, Carries lines name i := by
  rw [labels, List.mem_filterMap]
  constructor
  · rintro ⟨r, hmem, hlabel⟩
    obtain ⟨i, hr⟩ := List.mem_iff_getElem?.mp hmem
    exact ⟨i, carries_iff_exists.mpr ⟨r, hr, hlabel⟩⟩
  · rintro ⟨i, hcarries⟩
    obtain ⟨r, hr, hlabel⟩ := carries_iff_exists.mp hcarries
    exact ⟨r, List.mem_of_getElem? hr, hlabel⟩

theorem Carries.lt_length {lines : List Text} {name : Text} {i : Nat} (h : Carries lines name i) :
    i < lines.length := by
  obtain ⟨raw, hraw, -⟩ := h
  exact (List.getElem?_eq_some_iff.mp hraw).1

instance (lines : List Text) (name : Text) (i : Nat) : Decidable (Carries lines name i) :=
  decidable_of_iff ((Reading.ofLines lines)[i]?.bind Reading.label? = some name) (by
    rw [Option.bind_eq_some_iff, carries_iff_exists])

/-- Only the lines of the text have to be looked at. -/
instance (lines : List Text) (name : Text) (i : Nat) : Decidable (LastCarrier lines name i) :=
  decidable_of_iff (Carries lines name i ∧ ∀ j, j < lines.length → i < j → ¬ Carries lines name j) (by
    refine and_congr_right fun _ => ?_
    constructor
    · intro hlast j hj hcarries
      exact hlast j hcarries.lt_length hj hcarries
    · intro hlast j _ hj
      exact hlast j hj)

/-- A label on some line has a last line. -/
theorem Carries.exists_lastCarrier {lines : List Text} {name : Text} {i : Nat}
    (h : Carries lines name i) : ∃ j, LastCarrier lines name j := by
  by_cases hlater : ∃ k, i < k ∧ Carries lines name k
  · obtain ⟨k, hk, hcarries⟩ := hlater
    have hlt := hcarries.lt_length
    exact hcarries.exists_lastCarrier
  · exact ⟨i, h, fun k hk hcarries => hlater ⟨k, hk, hcarries⟩⟩
termination_by lines.length - i

/-- A label has at most one last line. -/
theorem LastCarrier.unique {lines : List Text} {name : Text} {i j : Nat}
    (hi : LastCarrier lines name i) (hj : LastCarrier lines name j) : i = j := by
  rcases Nat.lt_trichotomy i j with h | h | h
  · exact absurd hj.1 (hi.2 j h)
  · exact h
  · exact absurd hi.1 (hj.2 i h)

end Layout

/-! ## The state of the first pass -/

namespace Survey.Task

variable {t : Task}

theorem take_ofLines_succ {lines : List Text} {i : Nat} {raw : Text} (h : lines[i]? = some raw) :
    (Reading.ofLines lines).take (i + 1) =
      (Reading.ofLines lines).take i ++ [.ofLine (Text.trim raw)] := by
  have hr : (Reading.ofLines lines)[i]? = some (.ofLine (Text.trim raw)) :=
    Reading.ofLines_getElem?_eq_some.mpr ⟨raw, h, rfl⟩
  rw [List.take_add_one, hr]
  rfl

/-- **The first counter in closed form**. -/
theorem counter_reach {i : Nat} (hi : i ≤ t.lines.length) :
    (t.reach i).counter.value = Layout.address ((Reading.ofLines t.lines).take i) := by
  refine Line.place_induction (P := fun i => (t.reach i).counter.value =
    Layout.address ((Reading.ofLines t.lines).take i)) rfl ?_ hi
  intro j raw hraw ih
  have hr := Reading.ofLines_getElem?_eq_some.mpr ⟨raw, hraw, rfl⟩
  rw [counter_reach_succ hr, ih, take_ofLines_succ hraw, Layout.address_concat]

/-- **The names in closed form**: first the old ones, then the labels, each at its first occurrence. -/
theorem names_reach {i : Nat} (hi : i ≤ t.lines.length) :
    (t.reach i).symbols.names =
      (t.symbols.names ++ Layout.labels ((Reading.ofLines t.lines).take i)).eraseDups := by
  refine Line.place_induction (P := fun i => (t.reach i).symbols.names =
    (t.symbols.names ++ Layout.labels ((Reading.ofLines t.lines).take i)).eraseDups) ?_ ?_ hi
  · change t.symbols.names = (t.symbols.names ++ []).eraseDups
    rw [List.append_nil]
    exact (eraseDups_of_nodup t.symbols.distinct).symm
  · intro j raw hraw ih
    have hr := Reading.ofLines_getElem?_eq_some.mpr ⟨raw, hraw, rfl⟩
    rw [symbols_reach_succ hr, take_ofLines_succ hraw, Layout.labels_concat, ← List.append_assoc]
    cases (Reading.ofLine (Text.trim raw)).label? with
    | none =>
      rw [Option.toList_none, List.append_nil]
      exact ih
    | some label =>
      -- the table and the list of distinct labels grow on the same condition
      rw [Option.toList_some, eraseDups_concat, ← ih]
      simp only [SymbolTable.names_define, ih, List.mem_eraseDups]

/-- **The addresses in closed form**. On reaching a line, either no line before it carries the name,
which is then bound as before the pass, or the last of those that do has bound it to the counter that
stood there. -/
theorem resolve?_reach (name : Text) {i : Nat} (hi : i ≤ t.lines.length) :
    ((∀ k, k < i → ¬ Layout.Carries t.lines name k) ∧
      (t.reach i).symbols.resolve? name = t.symbols.resolve? name) ∨
    ∃ j, j < i ∧ Layout.Carries t.lines name j ∧
      (∀ k, j < k → k < i → ¬ Layout.Carries t.lines name k) ∧
      (t.reach i).symbols.resolve? name = some (t.reach j).counter.value := by
  refine Line.place_induction (P := fun i =>
    ((∀ k, k < i → ¬ Layout.Carries t.lines name k) ∧
      (t.reach i).symbols.resolve? name = t.symbols.resolve? name) ∨
    ∃ j, j < i ∧ Layout.Carries t.lines name j ∧
      (∀ k, j < k → k < i → ¬ Layout.Carries t.lines name k) ∧
      (t.reach i).symbols.resolve? name = some (t.reach j).counter.value) ?_ ?_ hi
  · exact .inl ⟨fun k hk => absurd hk (Nat.not_lt_zero k), rfl⟩
  · intro i raw hraw ih
    have hr := Reading.ofLines_getElem?_eq_some.mpr ⟨raw, hraw, rfl⟩
    have hcarries := (Layout.carries_iff hr : Layout.Carries t.lines name i ↔ _)
    have hsymbols := symbols_reach_succ (t := t) hr
    by_cases hlabel : (Reading.ofLine (Text.trim raw)).label? = some name
    · -- the line carries the name itself
      rw [hlabel] at hsymbols
      refine .inr ⟨i, by omega, hcarries.mpr hlabel, ?_, ?_⟩
      · intro k hk hk'
        omega
      · rw [hsymbols, SymbolTable.resolve?_define_self]
    · -- the line leaves the name as it was
      have hkeep : (t.reach (i + 1)).symbols.resolve? name = (t.reach i).symbols.resolve? name := by
        rw [hsymbols]
        cases hother : (Reading.ofLine (Text.trim raw)).label? with
        | none => rfl
        | some other =>
          refine SymbolTable.resolve?_define_of_ne _ _ ?_
          rintro rfl
          exact hlabel hother
      have hnot : ¬ Layout.Carries t.lines name i := fun h => hlabel (hcarries.mp h)
      rw [hkeep]
      rcases ih with ⟨hnone, hold⟩ | ⟨j, hj, hcarry, hlast, hbound⟩
      · refine .inl ⟨?_, hold⟩
        intro k hk
        rcases Nat.lt_succ_iff_lt_or_eq.mp hk with hk | rfl
        · exact hnone k hk
        · exact hnot
      · refine .inr ⟨j, by omega, hcarry, ?_, hbound⟩
        intro k hjk hk
        rcases Nat.lt_succ_iff_lt_or_eq.mp hk with hk | rfl
        · exact hlast k hjk hk
        · exact hnot

/-- After the pass a label is bound to the address of its last line, whatever the table held before. -/
theorem resolve?_result_of_lastCarrier {name : Text} {i : Nat}
    (h : Layout.LastCarrier t.lines name i) :
    t.result.symbols.resolve? name = some (t.reach i).counter.value := by
  rw [symbols_result]
  rcases resolve?_reach (t := t) name (Nat.le_refl _) with ⟨hnone, -⟩ | ⟨j, -, hcarry, hlast, hbound⟩
  · exact absurd h.1 (hnone i h.1.lt_length)
  · have hlast' : Layout.LastCarrier t.lines name j :=
      ⟨hcarry, fun k hk hc => hlast k hk hc.lt_length hc⟩
    rw [hbound, h.unique hlast']

/-- After the pass a name that no line carries is bound as it was before. -/
theorem resolve?_result_of_not_carries {name : Text} (h : ∀ i, ¬ Layout.Carries t.lines name i) :
    t.result.symbols.resolve? name = t.symbols.resolve? name := by
  rw [symbols_result]
  rcases resolve?_reach (t := t) name (Nat.le_refl _) with ⟨-, hold⟩ | ⟨j, -, hcarry, -⟩
  · exact hold
  · exact absurd hcarry (h j)

/-- After a pass over an empty table, exactly the labels are bound, each to the counter at the last
line that carries it. -/
theorem resolve?_result_eq_some_iff (hempty : t.symbols = .empty) {name : Text} {address : Int} :
    t.result.symbols.resolve? name = some address ↔
      ∃ i, Layout.LastCarrier t.lines name i ∧ (t.reach i).counter.value = address := by
  by_cases hcarried : ∃ i, Layout.Carries t.lines name i
  · obtain ⟨i, hi⟩ := hcarried
    obtain ⟨j, hj⟩ := hi.exists_lastCarrier
    rw [resolve?_result_of_lastCarrier hj]
    constructor
    · intro h
      exact ⟨j, hj, Option.some.inj h⟩
    · rintro ⟨i, hi, rfl⟩
      rw [hi.unique hj]
  · -- no line carries the name, and the table did not have it before
    rw [resolve?_result_of_not_carries (not_exists.mp hcarried), hempty]
    constructor
    · intro h
      cases h
    · rintro ⟨i, hi, -⟩
      exact absurd ⟨i, hi.1⟩ hcarried

end Survey.Task

end TwoPass
