import TwoPass.Event
import TwoPass.Text.Quoted

/-!
# Symbols and the location counter

The symbol table binds label names to addresses. Names are case-sensitive and each occurs once; they
are kept in the order in which they were first bound, and a later binding of a name replaces its
address without moving it. `redefinition?` gives the address that a binding is about to replace by a
different one; such a binding is worth an event (`defineNoting`).
-/

namespace TwoPass

/-- Label names with their addresses, in order of first binding. -/
structure SymbolTable where
  /-- the bindings -/
  entries : List (Text × Int)
  /-- no name is bound twice -/
  distinct : (entries.map Prod.fst).Nodup
  deriving DecidableEq

namespace SymbolTable

/-- The table without symbols. -/
def empty : SymbolTable := ⟨[], List.nodup_nil⟩

instance : Inhabited SymbolTable := ⟨empty⟩

/-- The bound names in order of first binding. -/
def names (s : SymbolTable) : List Text := s.entries.map Prod.fst

/-- The number of bound names. -/
def size (s : SymbolTable) : Nat := s.entries.length

/-- The address bound to a name. -/
def resolve? (s : SymbolTable) (name : Text) : Option Int :=
  (s.entries.find? fun e => e.1 == name).map Prod.snd

/-- Is the name bound? -/
def contains (s : SymbolTable) (name : Text) : Bool := (s.resolve? name).isSome

/-! ## Binding -/

/-- Replace the address of a name where it is bound, and append it where it is not. -/
def bind (name : Text) (address : Int) : List (Text × Int) → List (Text × Int)
  | [] => [(name, address)]
  | entry :: entries =>
    if entry.1 = name then (name, address) :: entries else entry :: bind name address entries

/-- Binding adds no name but the given one. -/
theorem mem_names_bind {name : Text} {address : Int} {entries : List (Text × Int)} {n : Text}
    (h : n ∈ (bind name address entries).map Prod.fst) :
    n = name ∨ n ∈ entries.map Prod.fst := by
  induction entries with
  | nil => simpa [bind] using h
  | cons entry entries ih =>
    rw [bind] at h
    split at h
    · next he => simpa [he] using h
    · rcases List.mem_cons.mp h with h | h
      · exact Or.inr (List.mem_cons.mpr (Or.inl h))
      · exact (ih h).imp id (List.mem_cons_of_mem _)

/-- Binding keeps names distinct. -/
theorem nodup_names_bind (name : Text) (address : Int) {entries : List (Text × Int)}
    (h : (entries.map Prod.fst).Nodup) : ((bind name address entries).map Prod.fst).Nodup := by
  induction entries with
  | nil => simp [bind]
  | cons entry entries ih =>
    rw [List.map_cons, List.nodup_cons] at h
    rw [bind]
    split
    · next he => rw [List.map_cons, List.nodup_cons, ← he]; exact h
    · next he =>
      rw [List.map_cons, List.nodup_cons]
      refine ⟨fun hm => ?_, ih h.2⟩
      rcases mem_names_bind hm with hm | hm
      · exact he hm
      · exact h.1 hm

/-- Bind a name to an address. -/
def define (s : SymbolTable) (name : Text) (address : Int) : SymbolTable :=
  ⟨bind name address s.entries, nodup_names_bind name address s.distinct⟩

/-- The address that binding the name would replace by a different one. -/
def redefinition? (s : SymbolTable) (name : Text) (address : Int) : Option Int :=
  (s.resolve? name).filter (· != address)

/-- Bind a name to an address and note the replacement of a different one. -/
def defineNoting (s : SymbolTable) (name : Text) (address : Int) : SymbolTable × List Event :=
  (s.define name address,
    ((s.redefinition? name address).map (Event.redefined name · address)).toList)

/-- A name resolves to the address it was last bound to. -/
theorem resolve?_define_self (s : SymbolTable) (name : Text) (address : Int) :
    (s.define name address).resolve? name = some address := by
  obtain ⟨entries, _⟩ := s
  simp only [resolve?, define]
  induction entries with
  | nil => simp [bind]
  | cons entry entries ih =>
    rw [bind]
    split
    · simp
    · next he => simp [he]; simpa using ih ((List.nodup_cons.mp (by assumption)).2)

/-- Binding a name leaves the others alone. -/
theorem resolve?_define_of_ne (s : SymbolTable) {name other : Text} (address : Int)
    (h : other ≠ name) : (s.define name address).resolve? other = s.resolve? other := by
  obtain ⟨entries, _⟩ := s
  simp only [resolve?, define]
  induction entries with
  | nil => simp [bind, Ne.symm h]
  | cons entry entries ih =>
    rw [bind]
    split
    · next he => simp [he, Ne.symm h]
    · by_cases ho : entry.1 = other
      · simp [ho]
      · simp [ho]; simpa using ih ((List.nodup_cons.mp (by assumption)).2)

/-! ## Descriptions -/

/-- The table written out with quoted names. -/
def describe (s : SymbolTable) : Text :=
  let entry (e : Text × Int) : Text := Text.quoted e.1 ++ ": ".toList ++ Numeral.decimal e.2
  "SymbolTable(".toList ++ ['\x7b'] ++ Text.join ", ".toList (s.entries.map entry) ++
    ['\x7d', ')']

end SymbolTable

/-- The address of the next word. -/
structure LocationCounter where
  /-- the address -/
  value : Int
  deriving DecidableEq

namespace LocationCounter

/-- The counter at the start of a pass. -/
def start : LocationCounter := ⟨0⟩

/-- Step past one word. -/
def advance (c : LocationCounter) : LocationCounter := ⟨c.value + 1⟩

/-- The counter written out. -/
def describe (c : LocationCounter) : Text :=
  "LocationCounter(".toList ++ Numeral.decimal c.value ++ [')']

end LocationCounter

end TwoPass
