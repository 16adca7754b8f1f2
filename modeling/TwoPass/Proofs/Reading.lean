import TwoPass.Pass.Generation
import TwoPass.Pass.Survey

/-!
# How both passes read a line

The two passes take a line apart in different orders. The first peels the label and looks at what is
left (`Line.peel`); the second looks at the head of the line, because it has to recognise the end
marker before it looks for labels. A `Reading` is what they agree on:

* `inert`: blanks or a comment;
* `bare`: a statement without a label;
* `labelled`: a label, with the statement behind it if there is one;
* `finish`: the end marker, which is a label too, with the statement behind it.

What the first pass notes of a line and how the second pass treats it are functions of its reading
(`Sketch.ofLine_eq`, `Treatment.ofLine_eq`). Everything that relates the passes is therefore a case
distinction over four readings, and the two ways of taking a line apart are compared only here.
-/

namespace TwoPass

/-! ## Keywords at the head of a statement -/

namespace Keyword

/-- A token that names a keyword is spelled like it, up to letter case. -/
theorem map_toUpper_of_ofToken? {token : Text} {k : Keyword} (h : ofToken? token = some k) :
    token.map Char.toUpper = k.name := by
  have hname : (k.name == token.map Char.toUpper) = true := by
    exact List.find?_some (p := fun k : Keyword => k.name == token.map Char.toUpper) h
  exact (beq_iff_eq.mp hname).symm

/-- No other character has the colon as its upper case. -/
theorem eq_colon_of_toUpper {c : Char} (h : c.toUpper = ':') : c = ':' := by
  unfold Char.toUpper at h
  split at h
  · next hc =>
    -- a lower-case letter goes to a capital one, and the colon is none
    have hlow : 97 ≤ c.val.toNat := UInt32.le_iff_toNat_le.mp hc.1
    have hhigh : c.val.toNat ≤ 122 := UInt32.le_iff_toNat_le.mp hc.2
    have hval := congrArg (fun d : Char => d.val.toNat) h
    simp only [UInt32.toNat_add, UInt32.reduceSub, Char.reduceVal, UInt32.reduceToNat] at hval
    omega
  · exact h

/-- The end marker ends in a colon, so it is a label as well. -/
theorem getLast?_of_ofToken?_finish {token : Text} (h : ofToken? token = some .finish) :
    token.getLast? = some ':' := by
  have hlast : (token.map Char.toUpper).getLast? = some ':' := by
    rw [map_toUpper_of_ofToken? h]
    rfl
  rw [List.getLast?_map] at hlast
  obtain ⟨c, hc, hup⟩ := Option.map_eq_some_iff.mp hlast
  rw [hc, eq_colon_of_toUpper hup]

end Keyword

namespace Statement

/-- The keyword that heads the statement. -/
def keyword? (s : Statement) : Option Keyword := Keyword.ofToken? s.head

/-- The address of an origin directive whose operand is accepted. -/
def origin? (s : Statement) : Option Int :=
  if s.keyword? = some .origin then (Treatment.originAddress s.tail).toOption else none

/-- Is the statement headed by an instruction or a data directive? -/
def allocates (s : Statement) : Bool := s.keyword?.any Keyword.allocates

/-- An origin directive allocates no word. -/
theorem allocates_of_origin? {s : Statement} {address : Int} (h : s.origin? = some address) :
    s.allocates = false := by
  rw [origin?] at h
  split at h
  · next hk =>
    rw [allocates, hk]
    rfl
  · cases h

/-- The label of a statement is its head without the colon. -/
theorem dropLast_head_eq_iff {s : Statement} (h : s.isLabel = true) {label : Text} :
    s.head.dropLast = label ↔ s.head = label ++ [':'] := by
  obtain ⟨front, hfront⟩ := List.getLast?_eq_some_iff.mp (beq_iff_eq.mp h)
  rw [hfront, List.dropLast_concat]
  simp

theorem isLabel_of_finish {s : Statement} (h : s.keyword? = some .finish) : s.isLabel = true := by
  rw [isLabel, Keyword.getLast?_of_ofToken?_finish h]
  rfl

end Statement

/-! ## Readings -/

/-- What both passes take a line for. -/
inductive Reading where
  /-- blanks or a comment -/
  | inert
  /-- a statement without a label -/
  | bare (s : Statement)
  /-- a label and the statement behind it -/
  | labelled (label : Text) (behind : Option Statement)
  /-- the end marker, its name as a label, and the statement behind it -/
  | finish (label : Text) (behind : Option Statement)
  deriving DecidableEq

namespace Reading

/-- The reading of a trimmed line. -/
def ofLine (line : Text) : Reading :=
  if Line.isInert line then inert
  else
    match Statement.ofText? line with
    | none => inert
    | some s =>
      if s.keyword? = some .finish then finish s.head.dropLast (s.tail.bind Statement.ofText?)
      else if s.isLabel then labelled s.head.dropLast (s.tail.bind Statement.ofText?)
      else bare s

/-- The label on the line; the end marker counts as one. -/
@[simp] def label? : Reading → Option Text
  | inert | bare _ => none
  | labelled label _ | finish label _ => some label

/-- The statement on the line, behind its label if it has one. -/
def statement? : Reading → Option Statement
  | inert => none
  | bare s => some s
  | labelled _ behind | finish _ behind => behind

/-- Is the line headed by the end marker? -/
@[simp] def isFinish : Reading → Bool
  | finish .. => true
  | _ => false

/-- The address of an origin directive on the line, if it has one whose operand is accepted. -/
def origin? (r : Reading) : Option Int := r.statement?.bind Statement.origin?

/-- Is the statement on the line headed by an instruction or a data directive? -/
def allocates (r : Reading) : Bool := r.statement?.any Statement.allocates

@[simp] theorem origin?_inert : inert.origin? = none := rfl

@[simp] theorem origin?_bare (s : Statement) : (bare s).origin? = s.origin? := rfl

@[simp] theorem origin?_labelled (label : Text) (behind : Option Statement) :
    (labelled label behind).origin? = behind.bind Statement.origin? := rfl

@[simp] theorem origin?_finish (label : Text) (behind : Option Statement) :
    (finish label behind).origin? = behind.bind Statement.origin? := rfl

@[simp] theorem allocates_inert : inert.allocates = false := rfl

@[simp] theorem allocates_bare (s : Statement) : (bare s).allocates = s.allocates := rfl

@[simp] theorem allocates_labelled (label : Text) (behind : Option Statement) :
    (labelled label behind).allocates = behind.any Statement.allocates := rfl

@[simp] theorem allocates_finish (label : Text) (behind : Option Statement) :
    (finish label behind).allocates = behind.any Statement.allocates := rfl

/-- A line with an origin directive allocates no word. -/
theorem origin?_of_allocates {r : Reading} (h : r.allocates = true) : r.origin? = none := by
  rw [origin?]
  rw [allocates] at h
  cases hs : r.statement? with
  | none => rfl
  | some s =>
    cases ho : s.origin? with
    | none => exact ho
    | some address =>
      rw [hs, Option.any_some, Statement.allocates_of_origin? ho] at h
      cases h

/-- The readings of source lines, which are trimmed first. -/
def ofLines (lines : List Text) : List Reading := lines.map fun raw => ofLine (Text.trim raw)

theorem ofLines_getElem?_eq_some {lines : List Text} {i : Nat} {r : Reading} :
    (ofLines lines)[i]? = some r ↔ ∃ raw, lines[i]? = some raw ∧ ofLine (Text.trim raw) = r := by
  rw [ofLines, List.getElem?_map, Option.map_eq_some_iff]

/-- A bare statement is not the end marker. -/
theorem keyword?_of_ofLine_bare {line : Text} {s : Statement} (h : ofLine line = bare s) :
    s.keyword? ≠ some .finish := by
  unfold ofLine at h
  split at h
  · cases h
  · split at h
    · cases h
    · split at h
      · cases h
      · next hfinish =>
        split at h
        · cases h
        · cases h
          exact hfinish

/-- **Labels are first tokens**: a line carries a label exactly if it is not inert and the label with
a colon is its first token. -/
theorem label?_ofLine_eq_some_iff {line label : Text} :
    (ofLine line).label? = some label ↔
      Line.isInert line = false ∧ Line.firstToken? line = some (label ++ [':']) := by
  have hhead : ∀ s : Statement, s.isLabel = true →
      (some s.head.dropLast = some label ↔ s.head = label ++ [':']) := by
    intro s hs
    rw [Option.some.injEq, Statement.dropLast_head_eq_iff hs]
  unfold ofLine
  by_cases hinert : Line.isInert line = true
  · simp [hinert, label?]
  · rw [if_neg hinert, Line.firstToken?]
    rcases hs : Statement.ofText? line with _ | s
    · simp [label?]
    · simp only [Option.map_some, Option.some.injEq, Bool.not_eq_true _ ▸ hinert, true_and]
      by_cases hfinish : s.keyword? = some .finish
      · rw [if_pos hfinish]
        exact hhead s (Statement.isLabel_of_finish hfinish)
      · rw [if_neg hfinish]
        by_cases hlabel : s.isLabel = true
        · rw [if_pos hlabel]
          exact hhead s hlabel
        · rw [if_neg hlabel]
          constructor
          · intro h
            cases h
          · -- an unlabelled head does not end in a colon
            intro h
            refine absurd ?_ hlabel
            rw [Statement.isLabel, h, List.getLast?_concat]
            rfl

end Reading

/-! ## The first pass -/

/-- What the first pass notes of a reading. -/
def Reading.sketch (r : Reading) : Sketch :=
  ⟨r.label?, (r.statement?.map Move.ofStatement).getD .stay⟩

/-- **The first pass sees the reading**: its sketch of a line is a function of the reading. -/
theorem Sketch.ofLine_eq (line : Text) : Sketch.ofLine line = (Reading.ofLine line).sketch := by
  unfold Sketch.ofLine Reading.ofLine
  by_cases hinert : Line.isInert line = true
  · rw [if_pos hinert, if_pos hinert]
    rfl
  · rw [if_neg hinert, if_neg hinert, Line.peel]
    rcases hs : Statement.ofText? line with _ | s
    · rfl
    · by_cases hfinish : s.keyword? = some .finish
      · simp [hfinish, Statement.isLabel_of_finish hfinish, Reading.sketch, Reading.label?,
          Reading.statement?]
      · by_cases hlabel : s.isLabel = true
        · simp [hfinish, hlabel, Reading.sketch, Reading.label?, Reading.statement?]
        · simp [hfinish, hlabel, hs, Reading.sketch, Reading.label?, Reading.statement?]

/-- Both passes accept the operands of the same origin directives. -/
theorem Treatment.toOption_originAddress (tail : Option Text) :
    (originAddress tail).toOption =
      (Operand.parse ((tail.bind Line.firstToken?).getD [])).toOption := by
  cases tail with
  | none => rfl
  | some tail => rfl

/-- Where the first pass takes the counter over a statement: to the address of an origin directive
whose operand is accepted, past one word over a statement that allocates one, and nowhere else. -/
theorem Move.apply_ofStatement (s : Statement) (c : LocationCounter) :
    (Move.ofStatement s).apply c =
      match s.origin? with
      | some address => ⟨address⟩
      | none => if s.allocates then c.advance else c := by
  unfold Statement.origin? Statement.allocates Move.ofStatement Statement.keyword?
  rcases Keyword.ofToken? s.head with _ | _ | _ | _ | m
  · rfl
  · rw [if_pos rfl, Treatment.toOption_originAddress]
    rcases Operand.parse ((s.tail.bind Line.firstToken?).getD []) with fault | address <;> rfl
  · rfl
  · rfl
  · rfl

/-! ## The second pass -/

namespace Treatment

/-- The treatment of the statement behind a label. -/
def ofBehind (file : SourceName) (number : Nat) (line label : Text) : Option Statement → Treatment
  | none => listed none
  | some s =>
    match s.keyword? with
    | none => listed none
    | some .origin => orReject file number line ((originAddress s.tail).map moved)
    | some _ => listed (some (behindLabel file number s.head label))

/-- The treatment of a statement without a label. -/
def ofBare (symbols : SymbolTable) (file : SourceName) (number : Nat) (line : Text)
    (s : Statement) : Treatment :=
  match s.keyword? with
  | none => rejected (.unknownInstruction s.head (some ⟨file, number, 1⟩) (some line))
  | some keyword => orReject file number line (ofKeyword symbols s.tail keyword)

/-- A statement without a label sets the counter, emits a word, or is rejected. The counter moves past
the word of every statement that allocates one. -/
theorem ofBare_cases (symbols : SymbolTable) (file : SourceName) (number : Nat) (line : Text)
    (s : Statement) :
    (∃ address, s.origin? = some address ∧
      ofBare symbols file number line s = moved address) ∨
    (∃ value, s.origin? = none ∧ s.allocates = true ∧
      ofBare symbols file number line s = emitted value true) ∨
    (s.keyword? = some .finish ∧ ofBare symbols file number line s = emitted 0 false) ∨
    (s.keyword? = none ∧ ofBare symbols file number line s =
      rejected (.unknownInstruction s.head (some ⟨file, number, 1⟩) (some line))) ∨
    (∃ fault, s.origin? = none ∧ s.keyword? ≠ none ∧ ofBare symbols file number line s =
      rejected (.rejectedOperand file number line fault)) := by
  unfold ofBare Statement.origin? Statement.allocates
  rcases s.keyword? with _ | _ | _ | _ | m
  · exact .inr (.inr (.inr (.inl ⟨rfl, rfl⟩)))
  · -- an origin directive
    rcases haddress : originAddress s.tail with fault | address
    · refine .inr (.inr (.inr (.inr ⟨fault, ?_⟩)))
      simp [ofKeyword, haddress, Except.map, Except.toOption, orReject]
    · refine .inl ⟨address, ?_⟩
      simp [ofKeyword, haddress, Except.map, Except.toOption, orReject]
  · -- a data directive
    rcases hvalue : dataValue symbols s.tail with fault | value
    · refine .inr (.inr (.inr (.inr ⟨fault, ?_⟩)))
      simp [ofKeyword, hvalue, Except.map, orReject]
    · refine .inr (.inl ⟨value, ?_⟩)
      simp [ofKeyword, hvalue, Except.map, orReject, Keyword.allocates]
  · exact .inr (.inr (.inl ⟨rfl, rfl⟩))
  · -- an instruction
    rcases hvalue : m.encode (s.tail.getD []) with fault | value
    · refine .inr (.inr (.inr (.inr ⟨fault, ?_⟩)))
      simp [ofKeyword, hvalue, Except.map, orReject]
    · refine .inr (.inl ⟨value, ?_⟩)
      simp [ofKeyword, hvalue, Except.map, orReject, Keyword.allocates]

/-- Behind a label nothing is emitted. An origin directive sets the counter or is rejected, and
everything else is listed, with a warning if it would allocate a word. -/
theorem ofBehind_cases (file : SourceName) (number : Nat) (line label : Text)
    (behind : Option Statement) :
    (∃ address, behind.bind Statement.origin? = some address ∧
      ofBehind file number line label behind = moved address) ∨
    (∃ warning, behind.bind Statement.origin? = none ∧
      (behind.any Statement.allocates = true → warning ≠ none) ∧
      ofBehind file number line label behind = listed warning) ∨
    (∃ fault, behind.bind Statement.origin? = none ∧ behind.any Statement.allocates = false ∧
      ofBehind file number line label behind =
        rejected (.rejectedOperand file number line fault)) := by
  rcases behind with _ | s
  · exact .inr (.inl ⟨none, rfl, by simp, rfl⟩)
  · simp only [ofBehind, Option.bind_some, Option.any_some]
    unfold Statement.origin? Statement.allocates
    rcases s.keyword? with _ | _ | _ | _ | m
    · exact .inr (.inl ⟨none, rfl, by simp, rfl⟩)
    · -- an origin directive is the only statement that is carried out
      rcases originAddress s.tail with fault | address
      · refine .inr (.inr ⟨fault, ?_⟩)
        simp [Except.map, Except.toOption, orReject, Keyword.allocates]
      · refine .inl ⟨address, ?_⟩
        simp [Except.map, Except.toOption, orReject]
    all_goals exact .inr (.inl ⟨_, rfl, by simp, rfl⟩)

end Treatment

/-- How the second pass treats a reading. -/
@[simp] def Reading.treatment (symbols : SymbolTable) (file : SourceName) (number : Nat) (line : Text) :
    Reading → Treatment
  | inert => .listed none
  | bare s => .ofBare symbols file number line s
  | labelled label behind => .ofBehind file number line label behind
  | finish .. => .emitted 0 false

/-- **The second pass sees the reading**: its treatment of a line is a function of the reading. -/
theorem Treatment.ofLine_eq (symbols : SymbolTable) (file : SourceName) (number : Nat)
    (line : Text) :
    ofLine symbols file number line =
      (Reading.ofLine line).treatment symbols file number line := by
  unfold ofLine Reading.ofLine
  by_cases hinert : Line.isInert line = true
  · rw [if_pos hinert, if_pos hinert]
    rfl
  · rw [if_neg hinert, if_neg hinert]
    rcases hs : Statement.ofText? line with _ | s
    · rfl
    · change (if s.keyword? = some .finish then _ else _) = _
      by_cases hfinish : s.keyword? = some .finish
      · simp only [if_pos hfinish]
        rfl
      · simp only [if_neg hfinish]
        by_cases hlabel : s.isLabel = true
        · simp only [if_pos hlabel]
          rfl
        · simp only [if_neg hlabel]
          rfl

end TwoPass
