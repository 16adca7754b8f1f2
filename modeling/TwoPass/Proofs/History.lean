import Mathlib.Data.Set.Card
import TwoPass.Proofs.Binding
import TwoPass.Proofs.Relabelling

/-!
# The history of a symbol table

A table can be changed in two ways: a name is bound to an address, or everything is forgotten. What a
fresh table shows after any history of changes is said here without the table, in terms of the places of
the history alone.

* A change *defines* a name if it binds it and the table is not cleared later (`Defines`). A name resolves
  to the address of the last change that defines it.
* The names come in the order of the first changes that define them, each once (`FirstOccurrences`): a
  table grows at its end, and only by names that are new (`FirstOccurrences.concat`).
* A change *replaces* an address if it binds a name that stands bound to a different one (`Replaces`). The
  log has one event for each change that does, in their order (`Records`).

Each of the three is carried from a history to the history with one more change, and `replay_shows` puts
them together by induction. The log needs the first of them: whether a change is worth an event depends on
what the table resolves before it.
-/

namespace TwoPass

/-! ## Places of a list with one more element -/

section Concat

variable {α : Type} {l : List α} {i : Nat} {a b : α}

theorem getElem?_concat_ne_some (h : l.length < i) : (l ++ [a])[i]? ≠ some b := by
  intro hsome
  have hlt := (List.getElem?_eq_some_iff.mp hsome).1
  rw [List.length_append, List.length_singleton] at hlt
  omega

theorem getElem?_concat_eq_some_iff :
    (l ++ [a])[i]? = some b ↔ l[i]? = some b ∨ a = b ∧ i = l.length := by
  rcases Nat.lt_trichotomy i l.length with hi | rfl | hi
  · simp [List.getElem?_append_left hi, Nat.ne_of_lt hi]
  · simp
  · simp [getElem?_concat_ne_some hi, List.getElem?_eq_none (Nat.le_of_lt hi), Nat.ne_of_gt hi]

end Concat

/-! ## Names in the order of their first occurrence -/

/-- The names are those that occur at some place, each once, in the order of their first occurrences. -/
structure FirstOccurrences (occurs : Text → Nat → Prop) (names : List Text) : Prop where
  /-- no name is there twice -/
  nodup : names.Nodup
  /-- the names are those that occur -/
  mem_iff : ∀ name, name ∈ names ↔ ∃ i, occurs name i
  /-- a name occurs before any later one does -/
  inOrder : names.Pairwise fun name later => ∃ i, occurs name i ∧ ∀ j, occurs later j → i < j

namespace FirstOccurrences

variable {occurs occurs' : Text → Nat → Prop} {names : List Text}

theorem congr (h : FirstOccurrences occurs names)
    (hoccurs : ∀ name i, occurs' name i ↔ occurs name i) : FirstOccurrences occurs' names := by
  have heq : occurs' = occurs := funext fun name => funext fun i => propext (hoccurs name i)
  rw [heq]
  exact h

/-- **One more occurrence**, behind all others, adds a name at the end if it is new and nothing if it is
not. -/
theorem concat (h : FirstOccurrences occurs names) {new : Text} {place : Nat}
    (hbehind : ∀ name i, occurs name i → i < place)
    (hoccurs : ∀ name i, occurs' name i ↔ occurs name i ∨ name = new ∧ i = place) :
    FirstOccurrences occurs' (if new ∈ names then names else names ++ [new]) := by
  have hmem : ∀ name, (∃ i, occurs' name i) ↔ name ∈ names ∨ name = new := by
    intro name
    simp [hoccurs, h.mem_iff, exists_or]
  -- the new occurrence is too late to come before an old one
  have hkept : names.Pairwise fun name later => ∃ i, occurs' name i ∧ ∀ j, occurs' later j → i < j := by
    refine h.inOrder.imp ?_
    rintro name later ⟨i, hi, hfirst⟩
    refine ⟨i, (hoccurs name i).mpr (.inl hi), fun j hj => ?_⟩
    rcases (hoccurs later j).mp hj with hj | ⟨-, rfl⟩
    · exact hfirst j hj
    · exact hbehind name i hi
  by_cases hnew : new ∈ names
  · rw [if_pos hnew]
    refine ⟨h.nodup, fun name => ?_, hkept⟩
    rw [hmem]
    exact ⟨.inl, fun hname => hname.elim id fun heq => heq ▸ hnew⟩
  · rw [if_neg hnew]
    refine ⟨?_, fun name => ?_, List.pairwise_append.mpr ⟨hkept, List.pairwise_singleton .., ?_⟩⟩
    · exact List.nodup_append.mpr ⟨h.nodup, List.nodup_singleton new, fun name hname later hlater heq =>
        hnew (List.mem_singleton.mp hlater ▸ heq ▸ hname)⟩
    · rw [hmem, List.mem_append, List.mem_singleton]
    · intro name hname later hlater
      obtain rfl := List.mem_singleton.mp hlater
      obtain ⟨i, hi⟩ := (h.mem_iff name).mp hname
      refine ⟨i, (hoccurs name i).mpr (.inl hi), fun j hj => ?_⟩
      rcases (hoccurs later j).mp hj with hj | ⟨-, rfl⟩
      · exact absurd ((h.mem_iff later).mpr ⟨j, hj⟩) hnew
      · exact hbehind name i hi

end FirstOccurrences

namespace SymbolTable

/-! ## Changes -/

/-- A change of a table. -/
inductive Change where
  /-- bind a name to an address -/
  | define (name : Text) (address : Int)
  /-- forget all bindings -/
  | clear
  deriving DecidableEq

/-- Change a table, and note what is worth an event. -/
def change (s : SymbolTable) : Change → SymbolTable × List Event
  | .define name address => s.defineNoting name address
  | .clear => (empty, [])

/-- A fresh table after a history of changes, and the log of their events. -/
def replay (history : List Change) : SymbolTable × List Event :=
  history.foldl (fun (s, log) c => ((s.change c).1, log ++ (s.change c).2)) (empty, [])

theorem replay_concat (history : List Change) (c : Change) :
    replay (history ++ [c]) =
      (((replay history).1.change c).1, (replay history).2 ++ ((replay history).1.change c).2) := by
  rw [replay, List.foldl_concat]
  rfl

/-! ## What a history defines -/

section Defines

variable (history : List Change)

/-- The change at a place binds the name to the address, and the table is not cleared after it. -/
def Defines (name : Text) (address : Int) (i : Nat) : Prop :=
  history[i]? = some (.define name address) ∧ ∀ j, i < j → history[j]? ≠ some .clear

/-- The change at a place is the last to define the name, and it binds it to the address. -/
def LastDefines (name : Text) (address : Int) (i : Nat) : Prop :=
  Defines history name address i ∧ ∀ j, i < j → ∀ other, history[j]? ≠ some (.define name other)

/-- The change at a place binds the name to the new address while it stands bound to the old one, which is
different. -/
def Replaces (i : Nat) (name : Text) (old new : Int) : Prop :=
  history[i]? = some (.define name new) ∧ (∃ j, LastDefines (history.take i) name old j) ∧ old ≠ new

/-- The log has an event for each change that replaces an address and no others, in the order of the
changes: it is a list of events that can be dated that way. -/
def Records (log : List Event) : Prop :=
  ∃ dated : List (Nat × Event), dated.map Prod.snd = log ∧ (dated.Pairwise fun p q => p.1 < q.1) ∧
    ∀ i event, (i, event) ∈ dated ↔
      ∃ name old new, Replaces history i name old new ∧ event = .redefined name old new

end Defines

variable {history : List Change} {name other : Text} {address new : Int} {i : Nat}

theorem Defines.lt_length (h : Defines history name address i) : i < history.length :=
  (List.getElem?_eq_some_iff.mp h.1).1

/-! ### One more change -/

/-- Nothing is defined after a clear. -/
theorem not_defines_concat_clear : ¬ Defines (history ++ [Change.clear]) name address i := by
  rintro ⟨hi, hclear⟩
  rcases getElem?_concat_eq_some_iff.mp hi with hi | ⟨hi, -⟩
  · have hlt : i < history.length := (List.getElem?_eq_some_iff.mp hi).1
    exact hclear history.length hlt List.getElem?_concat_length
  · cases hi

/-- A change that binds a name keeps what was defined and defines that name at its own place. -/
theorem defines_concat_define :
    Defines (history ++ [Change.define other new]) name address i ↔
      Defines history name address i ∨ (name = other ∧ address = new) ∧ i = history.length := by
  constructor
  · rintro ⟨hi, hclear⟩
    rcases getElem?_concat_eq_some_iff.mp hi with hi | ⟨hchange, hlast⟩
    · refine .inl ⟨hi, fun j hj h => hclear j hj ?_⟩
      exact getElem?_concat_eq_some_iff.mpr (.inl h)
    · cases hchange
      exact .inr ⟨⟨rfl, rfl⟩, hlast⟩
  · rintro (⟨hi, hclear⟩ | ⟨⟨rfl, rfl⟩, rfl⟩)
    · refine ⟨getElem?_concat_eq_some_iff.mpr (.inl hi), fun j hj h => ?_⟩
      rcases getElem?_concat_eq_some_iff.mp h with h | ⟨h, -⟩
      · exact hclear j hj h
      · cases h
    · exact ⟨getElem?_concat_eq_some_iff.mpr (.inr ⟨rfl, rfl⟩), fun j hj => getElem?_concat_ne_some hj⟩

theorem lastDefines_concat_define_self :
    LastDefines (history ++ [Change.define name new]) name address i ↔
      address = new ∧ i = history.length := by
  rw [LastDefines, defines_concat_define]
  constructor
  · rintro ⟨hi | ⟨⟨-, rfl⟩, rfl⟩, hlast⟩
    · exact absurd List.getElem?_concat_length (hlast history.length hi.lt_length new)
    · exact ⟨rfl, rfl⟩
  · rintro ⟨rfl, rfl⟩
    exact ⟨.inr ⟨⟨rfl, rfl⟩, rfl⟩, fun j hj other => getElem?_concat_ne_some hj⟩

theorem lastDefines_concat_define_of_ne (hne : name ≠ other) :
    LastDefines (history ++ [Change.define other new]) name address i ↔
      LastDefines history name address i := by
  have hbinds : ∀ (j : Nat) (a : Int),
      (history ++ [Change.define other new])[j]? = some (Change.define name a) ↔
        history[j]? = some (Change.define name a) := by
    intro j a
    simp [getElem?_concat_eq_some_iff, hne.symm]
  simp only [LastDefines, defines_concat_define, hne, false_and, or_false, ne_eq, hbinds]

theorem replaces_concat {c : Change} {old : Int} :
    Replaces (history ++ [c]) i name old new ↔
      Replaces history i name old new ∨
        i = history.length ∧ c = .define name new ∧ (∃ j, LastDefines history name old j) ∧ old ≠ new := by
  rw [Replaces, getElem?_concat_eq_some_iff]
  constructor
  · rintro ⟨hi | ⟨rfl, rfl⟩, hlast, hne⟩
    · have hlt : i < history.length := (List.getElem?_eq_some_iff.mp hi).1
      rw [List.take_append_of_le_length (Nat.le_of_lt hlt)] at hlast
      exact .inl ⟨hi, hlast, hne⟩
    · rw [List.take_left] at hlast
      exact .inr ⟨rfl, rfl, hlast, hne⟩
  · rintro (⟨hi, hlast, hne⟩ | ⟨rfl, rfl, hlast, hne⟩)
    · have hlt : i < history.length := (List.getElem?_eq_some_iff.mp hi).1
      rw [List.take_append_of_le_length (Nat.le_of_lt hlt)]
      exact ⟨.inl hi, hlast, hne⟩
    · rw [List.take_left]
      exact ⟨.inr ⟨rfl, rfl⟩, hlast, hne⟩

/-! ## What a table shows of its history -/

/-- The table resolves each name to the address of the last change that defines it. -/
def Resolves (history : List Change) (s : SymbolTable) : Prop :=
  ∀ name address, s.resolve? name = some address ↔ ∃ i, LastDefines history name address i

theorem redefinition?_eq_some_iff {s : SymbolTable} {old : Int} :
    s.redefinition? name new = some old ↔ s.resolve? name = some old ∧ old ≠ new := by
  rw [redefinition?, Option.filter_eq_some_iff, bne_iff_ne]

variable {s : SymbolTable} {log : List Event}

theorem Resolves.change (h : Resolves history s) (c : Change) :
    Resolves (history ++ [c]) (s.change c).1 := by
  intro name address
  cases c with
  | clear =>
    constructor
    · intro hbound
      cases hbound
    · rintro ⟨i, hi⟩
      exact absurd hi.1 not_defines_concat_clear
  | define other new =>
    change (s.define other new).resolve? name = some address ↔ _
    by_cases hname : name = other
    · subst hname
      simp [resolve?_define_self, lastDefines_concat_define_self, eq_comm]
    · rw [resolve?_define_of_ne s new hname, h name address]
      simp only [lastDefines_concat_define_of_ne hname]

/-- A change is worth an event exactly if it replaces an address. -/
theorem mem_change_iff (h : Resolves history s) {c : Change} {event : Event} :
    event ∈ (s.change c).2 ↔
      ∃ name old new, (c = .define name new ∧ (∃ j, LastDefines history name old j) ∧ old ≠ new) ∧
        event = .redefined name old new := by
  cases c with
  | clear => simp [SymbolTable.change]
  | define other address =>
    change event ∈ ((s.redefinition? other address).map (Event.redefined other · address)).toList ↔ _
    rw [Option.mem_toList, Option.map_eq_some_iff]
    simp only [redefinition?_eq_some_iff, h other]
    constructor
    · rintro ⟨old, hreplaced, rfl⟩
      exact ⟨other, old, address, ⟨rfl, hreplaced⟩, rfl⟩
    · rintro ⟨name, old, new, ⟨hc, hreplaced⟩, rfl⟩
      cases hc
      exact ⟨old, hreplaced, rfl⟩

/-- A change is worth one event at most. -/
theorem pairwise_change (s : SymbolTable) (c : Change) {R : Event → Event → Prop} :
    (s.change c).2.Pairwise R := by
  cases c with
  | clear => exact List.Pairwise.nil
  | define name address =>
    change ((s.redefinition? name address).map (Event.redefined name · address)).toList.Pairwise R
    cases s.redefinition? name address with
    | none => exact List.Pairwise.nil
    | some old => exact List.pairwise_singleton ..

theorem Records.change (hlog : Records history log) (h : Resolves history s) (c : Change) :
    Records (history ++ [c]) (log ++ (s.change c).2) := by
  obtain ⟨dated, rfl, hinOrder, hmem⟩ := hlog
  refine ⟨dated ++ (s.change c).2.map (history.length, ·), ?_, ?_, fun i event => ?_⟩
  · simp
  · refine List.pairwise_append.mpr ⟨hinOrder, List.pairwise_map.mpr (pairwise_change s c), ?_⟩
    -- what is dated already is dated before the end of the history
    rintro ⟨i, event⟩ hold p hp
    obtain ⟨_, _, rfl⟩ := List.mem_map.mp hp
    obtain ⟨_, _, _, hreplaces, -⟩ := (hmem i event).mp hold
    exact (List.getElem?_eq_some_iff.mp hreplaces.1).1
  · have hnew : (i, event) ∈ (s.change c).2.map (history.length, ·) ↔
        i = history.length ∧ event ∈ (s.change c).2 := by
      simp [eq_comm, and_comm]
    rw [List.mem_append, hmem, hnew, mem_change_iff h]
    simp only [replaces_concat]
    constructor
    · rintro (⟨name, old, new, hold, rfl⟩ | ⟨rfl, name, old, new, hreplaced, rfl⟩)
      · exact ⟨name, old, new, .inl hold, rfl⟩
      · exact ⟨name, old, new, .inr ⟨rfl, hreplaced⟩, rfl⟩
    · rintro ⟨name, old, new, hold | ⟨rfl, hreplaced⟩, rfl⟩
      · exact .inl ⟨name, old, new, hold, rfl⟩
      · exact .inr ⟨rfl, name, old, new, hreplaced, rfl⟩

/-- The names of the table are those that the history defines, in order. -/
def Lists (history : List Change) (s : SymbolTable) : Prop :=
  FirstOccurrences (fun name i => ∃ address, Defines history name address i) s.names

theorem Lists.change (h : Lists history s) (c : Change) :
    Lists (history ++ [c]) (s.change c).1 := by
  cases c with
  | clear =>
    refine ⟨List.nodup_nil, fun name => ?_, List.Pairwise.nil⟩
    simp [not_defines_concat_clear, SymbolTable.change, names, empty]
  | define other new =>
    have hbehind : ∀ name i, (∃ address, Defines history name address i) → i < history.length := by
      rintro name i ⟨address, hi⟩
      exact hi.lt_length
    have hoccurs : ∀ name i, (∃ address, Defines (history ++ [Change.define other new]) name address i) ↔
        (∃ address, Defines history name address i) ∨ name = other ∧ i = history.length := by
      intro name i
      simp [defines_concat_define, exists_or]
    change FirstOccurrences _ (s.define other new).names
    rw [names_define]
    exact h.concat hbehind hoccurs

/-- What a fresh table shows of its history. -/
theorem replay_shows (history : List Change) :
    Resolves history (replay history).1 ∧ Lists history (replay history).1 ∧
      Records history (replay history).2 := by
  induction history using List.reverseRecOn with
  | nil =>
    refine ⟨?_, ⟨List.nodup_nil, ?_, List.Pairwise.nil⟩, [], rfl, List.Pairwise.nil, ?_⟩
    · simp [Resolves, replay, empty, resolve?, LastDefines, Defines]
    · simp [replay, empty, names, Defines]
    · simp [Replaces]
  | append_singleton history c ih =>
    obtain ⟨hresolves, hlists, hrecords⟩ := ih
    rw [replay_concat]
    exact ⟨hresolves.change c, hlists.change c, hrecords.change hresolves c⟩

/-- **A table is its history**. After any history of changes of a fresh table, a name resolves to the
address of the last change that defines it, and to nothing if no change does. The names that are contained
are those that some change defines. They are iterated over in the order of the first changes that define
them, each once, and they are counted without repetition. The log tells of the changes that bind a name
which is bound to a different address. -/
theorem refines_history (history : List Change) :
    (∀ name address, (replay history).1.resolve? name = some address ↔
      ∃ i, LastDefines history name address i) ∧
    (∀ name, (replay history).1.resolve? name = none ↔ ¬ ∃ i address, Defines history name address i) ∧
    (∀ name, (replay history).1.contains name = true ↔ ∃ i address, Defines history name address i) ∧
    FirstOccurrences (fun name i => ∃ address, Defines history name address i)
      (replay history).1.names ∧
    (replay history).1.size = Set.ncard {name | ∃ i address, Defines history name address i} ∧
    Records history (replay history).2 := by
  obtain ⟨hresolves, hlists, hrecords⟩ := replay_shows history
  have hcontains : ∀ name, (replay history).1.contains name = true ↔
      ∃ i address, Defines history name address i :=
    fun name => contains_iff_mem_names.trans (hlists.mem_iff name)
  refine ⟨hresolves, fun name => ?_, hcontains, hlists, ?_, hrecords⟩
  · rw [← hcontains, ← contains_eq_false_iff, Bool.not_eq_true]
  · have hnames : {name | ∃ i address, Defines history name address i} =
        ((replay history).1.names.toFinset : Set Text) := by
      ext name
      simpa using (hlists.mem_iff name).symm
    rw [hnames, Set.ncard_coe_finset, List.toFinset_card_of_nodup hlists.nodup, names, List.length_map]
    rfl

-- an address of zero is replaced like any other, and a binding to the same address replaces nothing
example :
    let a := "A".toList
    let b := "B".toList
    let shown := replay [.define a 0, .define b 1, .define a 2, .clear, .define b 5, .define a 7,
      .define b 5, .define b 0]
    shown.1.entries = [(b, 0), (a, 7)] ∧ shown.2 = [.redefined a 0 2, .redefined b 5 0] := by
  decide

end SymbolTable

end TwoPass
