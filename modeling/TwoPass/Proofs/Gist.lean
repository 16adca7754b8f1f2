import TwoPass.Proofs.Drift

/-!
# What the passes use of a line

A reading still has the texts of its line: the letters of the head, the blanks and the comment in the
tail. The passes do not use them all. A `Reading.Gist` keeps what they use:

* of an operand text, what it says as an address, as the operand of a data directive and as operand
  fields (`Operand.Gist`);
* of a statement, its keyword and the gist of its operand, or nothing if it has no keyword;
* of a line, its label and the gist of its statement.

The first pass is a function of the gists (`Reading.next_eq`, `Reading.label?_gist`). The second pass
writes texts to its listing and its report, but what it does apart from that is an `Effect`, and effects
are a function of the gists (`Reading.effect_treatment`). So two sources with the same gists are the same
program: symbols, counters, words, load file, and the kinds and lines of diagnostics agree
(`Survey.Task.reach_congr`, `Generation.Task.words_congr` and its siblings).
-/

namespace TwoPass

/-! ## Diagnostics and warnings without their texts -/

/-- The kinds of things a diagnostic can be about. -/
inductive Subject.Kind where
  /-- nothing in particular -/
  | general
  /-- an operand -/
  | operand
  /-- a head token that is no keyword -/
  | instruction
  /-- a source file -/
  | sourceFile
  deriving DecidableEq

/-- The kind of a subject. -/
def Subject.kind : Subject → Subject.Kind
  | general => .general
  | operand _ => .operand
  | instruction _ => .instruction
  | sourceFile .. => .sourceFile

/-- The kind of a diagnostic and the number of the line it is about. -/
def Diagnostic.kindAndLine (d : Diagnostic) : Subject.Kind × Option Int :=
  (d.subject.kind, d.location.map Location.line)

/-- A statement that is not encoded because it stands behind a label. -/
structure Note where
  /-- the number of its line -/
  number : Nat
  /-- the head of the statement -/
  head : Text
  /-- the label before it -/
  label : Text
  deriving DecidableEq

/-- The warning about it. -/
def Note.text (file : SourceName) (n : Note) : Text :=
  Treatment.behindLabel file n.number n.head n.label

/-- What of an emitted word does not come from the text of its line. -/
def Word.spot (w : Word) : Int × Int × Int := (w.address, w.value, w.line)

/-! ## Gists -/

/-- What an operand text says to the statements that take one. -/
structure Operand.Gist where
  /-- the address it names for an origin directive, if it is accepted -/
  address : Option Int
  /-- the token a data directive looks up or reads -/
  token : Text
  /-- the operand fields of an instruction -/
  fields : List Text
  deriving DecidableEq

/-- The gist of an operand text. -/
def Operand.gist (t : Text) : Operand.Gist where
  address := (parse ((Line.firstToken? t).getD [])).toOption
  token := (Line.firstToken? (Line.stripComment t)).getD []
  fields := fields t

/-- What a statement with a keyword says. -/
structure Statement.Gist where
  /-- its keyword -/
  keyword : Keyword
  /-- its operand -/
  operand : Operand.Gist
  deriving DecidableEq

/-- The gist of a statement, if its head is a keyword. -/
def Statement.gist? (s : Statement) : Option Statement.Gist :=
  s.keyword?.map fun keyword => ⟨keyword, Operand.gist (s.tail.getD [])⟩

/-- What a line says. -/
inductive Reading.Gist where
  /-- nothing -/
  | inert
  /-- a statement without a label -/
  | bare (s : Option Statement.Gist)
  /-- a label and the statement behind it -/
  | labelled (label : Text) (behind : Option Statement.Gist)
  /-- the end marker, its name as a label, and the statement behind it -/
  | finish (label : Text) (behind : Option Statement.Gist)
  deriving DecidableEq

/-- The gist of a reading. -/
def Reading.gist : Reading → Reading.Gist
  | inert => .inert
  | bare s => .bare s.gist?
  | labelled label behind => .labelled label (behind.bind Statement.gist?)
  | finish label behind => .finish label (behind.bind Statement.gist?)

/-- The gists of source lines. -/
def Reading.gists (lines : List Text) : List Reading.Gist :=
  (Reading.ofLines lines).map Reading.gist

/-- The same gists belong to the same number of lines. -/
theorem Reading.length_eq_of_gists {lines lines' : List Text} (h : gists lines = gists lines') :
    lines.length = lines'.length := by
  simpa [gists, ofLines] using congrArg List.length h

/-- The same gists are found at the same places. -/
theorem Reading.gist_eq_of_gists {lines lines' : List Text} (h : gists lines = gists lines')
    {i : Nat} {raw raw' : Text} (hraw : lines[i]? = some raw) (hraw' : lines'[i]? = some raw') :
    (ofLine (Text.trim raw)).gist = (ofLine (Text.trim raw')).gist := by
  have hplace := congrArg (fun gists : List Reading.Gist => gists[i]?) h
  simpa [gists, ofLines, hraw, hraw'] using hplace

/-! ## The first pass -/

namespace Statement.Gist

/-- The address of an origin directive whose operand is accepted. -/
def origin? (g : Statement.Gist) : Option Int :=
  if g.keyword = .origin then g.operand.address else none

/-- Is the statement an instruction or a data directive? -/
def allocates (g : Statement.Gist) : Bool := g.keyword.allocates

end Statement.Gist

/-- The operand of an origin directive is accepted or refused by its gist. -/
theorem Treatment.toOption_originAddress_eq (tail : Option Text) :
    (originAddress tail).toOption = (Operand.gist (tail.getD [])).address := by
  cases tail with
  | none => rfl
  | some tail => rfl

theorem Statement.origin?_gist (s : Statement) : s.origin? = s.gist?.bind Gist.origin? := by
  rw [origin?, gist?, Treatment.toOption_originAddress_eq]
  cases s.keyword? with
  | none => rfl
  | some keyword => simp [Gist.origin?]

theorem Statement.allocates_gist (s : Statement) : s.allocates = s.gist?.any Gist.allocates := by
  rw [allocates, gist?]
  cases s.keyword? with
  | none => rfl
  | some keyword => rfl

namespace Reading.Gist

/-- The label on the line. -/
def label? : Reading.Gist → Option Text
  | inert | bare _ => none
  | labelled label _ | finish label _ => some label

/-- The statement on the line. -/
def statement? : Reading.Gist → Option Statement.Gist
  | inert => none
  | bare s => s
  | labelled _ behind | finish _ behind => behind

/-- The counter of the first pass behind the line. -/
def next (g : Reading.Gist) (counter : Int) : Int :=
  match g.statement?.bind Statement.Gist.origin? with
  | some address => address
  | none => if g.statement?.any Statement.Gist.allocates then counter + 1 else counter

end Reading.Gist

theorem Reading.label?_gist (r : Reading) : r.gist.label? = r.label? := by
  cases r <;> rfl

theorem Reading.statement?_gist (r : Reading) :
    r.gist.statement? = r.statement?.bind Statement.gist? := by
  cases r <;> rfl

/-- **The first pass uses the gist**: where its counter goes is a function of it. -/
theorem Reading.next_eq (r : Reading) (counter : Int) : r.next counter = r.gist.next counter := by
  have horigin : r.origin? = r.gist.statement?.bind Statement.Gist.origin? := by
    rw [origin?, statement?_gist]
    cases r.statement? with
    | none => rfl
    | some s => exact s.origin?_gist
  have hallocates : r.allocates = r.gist.statement?.any Statement.Gist.allocates := by
    rw [allocates, statement?_gist]
    cases r.statement? with
    | none => rfl
    | some s => exact s.allocates_gist
  cases haddress : r.gist.statement?.bind Statement.Gist.origin? with
  | none => simp [Reading.next, Gist.next, horigin, haddress, hallocates]
  | some address => simp [Reading.next, Gist.next, horigin, haddress]

/-! ## The second pass -/

/-- What a treatment does apart from writing texts to the listing and the report. -/
inductive Effect where
  /-- nothing -/
  | listed
  /-- set the counter -/
  | moved (address : Int)
  /-- emit a word; the counter moves past it or stays -/
  | emitted (value : Int) (advances : Bool)
  /-- record a diagnostic of this kind -/
  | rejected (kind : Subject.Kind)
  deriving DecidableEq

namespace Effect

/-- Set the counter, if the address is accepted. -/
def ofAddress : Option Int → Effect
  | some address => moved address
  | none => rejected .operand

/-- Emit a word and move past it, if it has a value. -/
def ofValue : Option Int → Effect
  | some value => emitted value true
  | none => rejected .operand

/-- The counter behind the line. -/
def next (counter : Int) : Effect → Int
  | moved address => address
  | emitted _ true => counter + 1
  | emitted _ false | listed | rejected _ => counter

/-- The word that is emitted for a line when the counter stands at the given address. -/
def word? (address : Int) (number : Nat) (line : Text) : Effect → Option Word
  | emitted value _ => some ⟨address, value, line, number⟩
  | listed | moved _ | rejected _ => none

/-- The kind of the diagnostic that is recorded. -/
def kind? : Effect → Option Subject.Kind
  | rejected kind => some kind
  | listed | moved _ | emitted .. => none

end Effect

namespace Treatment

/-- The effect of a treatment. -/
def effect : Treatment → Effect
  | listed _ => .listed
  | moved address => .moved address
  | emitted value advances => .emitted value advances
  | rejected d => .rejected d.subject.kind

theorem next_effect (t : Treatment) (counter : Int) : t.effect.next counter = t.next counter := by
  rcases t with _ | _ | ⟨_, _ | _⟩ | _ <;> rfl

theorem word?_effect (t : Treatment) (address : Int) (number : Nat) (line : Text) :
    t.effect.word? address number line = t.word? address number line := by
  cases t <;> rfl

theorem kind?_effect (t : Treatment) :
    t.effect.kind? = t.diagnostic?.map fun d => d.subject.kind := by
  cases t <;> rfl

/-- An origin directive is carried out as the gist of its operand says. -/
theorem effect_originAddress (file : SourceName) (number : Nat) (line : Text) (tail : Option Text) :
    (orReject file number line ((originAddress tail).map moved)).effect =
      .ofAddress (Operand.gist (tail.getD [])).address := by
  rw [← toOption_originAddress_eq]
  cases originAddress tail <;> rfl

/-- A statement with a value is emitted, and one without is rejected. -/
theorem effect_value (file : SourceName) (number : Nat) (line : Text)
    (value : Except Operand.Fault Int) :
    (orReject file number line (value.map (emitted · true))).effect = .ofValue value.toOption := by
  cases value <;> rfl

/-- The value of a data directive by the token of its operand. -/
theorem toOption_dataValue (symbols : SymbolTable) (tail : Option Text) :
    (dataValue symbols tail).toOption =
      (symbols.resolve? (dataToken tail)).or (Operand.parse (dataToken tail)).toOption := by
  rw [dataValue]
  cases symbols.resolve? (dataToken tail) <;> rfl

end Treatment

/-- The effect of a statement without a label. -/
def Statement.Gist.effect (symbols : SymbolTable) (g : Statement.Gist) : Effect :=
  match g.keyword with
  | .origin => .ofAddress g.operand.address
  | .data =>
    .ofValue ((symbols.resolve? g.operand.token).or (Operand.parse g.operand.token).toOption)
  | .finish => .emitted 0 false
  | .instruction m => .ofValue (m.format.encodeFields g.operand.fields).toOption

namespace Reading.Gist

/-- The effect of a line. -/
def effect (symbols : SymbolTable) : Reading.Gist → Effect
  | inert => .listed
  | bare none => .rejected .instruction
  | bare (some s) => s.effect symbols
  | labelled _ (some ⟨.origin, operand⟩) => .ofAddress operand.address
  | labelled _ _ => .listed
  | finish .. => .emitted 0 false

/-- The label on the line, if the second pass warns about the statement behind it. -/
def warnedLabel? : Reading.Gist → Option Text
  | labelled label (some s) => if s.keyword = .origin then none else some label
  | _ => none

end Reading.Gist

namespace Reading

variable (r : Reading) (symbols : SymbolTable) (file : SourceName) (number : Nat) (line : Text)

theorem effect_ofBare (s : Statement) :
    (Treatment.ofBare symbols file number line s).effect =
      (Reading.Gist.bare s.gist?).effect symbols := by
  rw [Treatment.ofBare, Statement.gist?]
  rcases s.keyword? with _ | _ | _ | _ | m
  · rfl
  · exact Treatment.effect_originAddress file number line s.tail
  · -- a data directive
    change (Treatment.orReject _ _ _ ((Treatment.dataValue symbols s.tail).map _)).effect = _
    rw [Treatment.effect_value, Treatment.toOption_dataValue]
    rfl
  · rfl
  · -- an instruction
    exact Treatment.effect_value file number line (m.encode (s.tail.getD []))

theorem effect_ofBehind (label : Text) (behind : Option Statement) :
    (Treatment.ofBehind file number line label behind).effect =
      (Reading.Gist.labelled label (behind.bind Statement.gist?)).effect symbols := by
  rcases behind with _ | s
  · rfl
  · rw [Treatment.ofBehind, Option.bind_some, Statement.gist?]
    rcases s.keyword? with _ | _ | _ | _ | m
    · rfl
    · exact Treatment.effect_originAddress file number line s.tail
    all_goals rfl

/-- **The second pass uses the gist**: the effect of its treatment is a function of it and of the
symbols. -/
theorem effect_treatment :
    (r.treatment symbols file number line).effect = r.gist.effect symbols := by
  cases r with
  | inert => rfl
  | finish label behind => rfl
  | bare s => exact effect_ofBare symbols file number line s
  | labelled label behind => exact effect_ofBehind symbols file number line label behind

/-- The statement on the line that the second pass warns about. -/
def note? : Reading → Option Note
  | labelled label (some s) =>
    match s.keyword? with
    | none | some .origin => none
    | some _ => some ⟨number, s.head, label⟩
  | _ => none

theorem warning?_treatment :
    (r.treatment symbols file number line).warning? = (r.note? number).map (Note.text file) := by
  rcases r with _ | s | ⟨label, _ | s⟩ | _
  · rfl
  · obtain ⟨_, -, ht⟩ | ⟨_, -, -, ht⟩ | ⟨-, ht⟩ | ⟨-, ht⟩ | ⟨_, -, -, ht⟩ :=
      Treatment.ofBare_cases symbols file number line s
    all_goals
      rw [treatment, ht]
      rfl
  · rfl
  · simp only [treatment, Treatment.ofBehind, note?]
    rcases s.keyword? with _ | _ | _ | _ | m
    · rfl
    · cases Treatment.originAddress s.tail <;> rfl
    all_goals rfl
  · rfl

/-- Whether there is a warning, and about which label, is a function of the gist. -/
theorem note?_gist :
    (r.note? number).map (fun n => (n.number, n.label)) =
      r.gist.warnedLabel?.map fun label => (number, label) := by
  rcases r with _ | s | ⟨label, _ | s⟩ | _
  · rfl
  · rfl
  · rfl
  · simp only [note?, gist, Option.bind_some, Statement.gist?]
    rcases s.keyword? with _ | _ | _ | _ | m <;> rfl
  · rfl

end Reading

/-! ## Runs of the first pass -/

theorem Survey.Task.reach_congr {t u : Survey.Task} (hsymbols : t.symbols = u.symbols)
    (hgists : Reading.gists t.lines = Reading.gists u.lines) {i : Nat} (hi : i ≤ t.lines.length) :
    (t.reach i).symbols = (u.reach i).symbols ∧
      (t.reach i).counter.value = (u.reach i).counter.value := by
  refine Line.place_induction (P := fun i => (t.reach i).symbols = (u.reach i).symbols ∧
    (t.reach i).counter.value = (u.reach i).counter.value) ⟨hsymbols, rfl⟩ ?_ hi
  intro i raw hraw ⟨ihsymbols, ihcounter⟩
  have hlt : i < u.lines.length := by
    rw [← Reading.length_eq_of_gists hgists]
    exact (List.getElem?_eq_some_iff.mp hraw).1
  have hraw' : u.lines[i]? = some u.lines[i] := List.getElem?_eq_getElem hlt
  have hr := Reading.ofLines_getElem?_eq_some.mpr ⟨raw, hraw, rfl⟩
  have hr' := Reading.ofLines_getElem?_eq_some.mpr ⟨_, hraw', rfl⟩
  have hgist := Reading.gist_eq_of_gists hgists hraw hraw'
  constructor
  · rw [symbols_reach_succ hr, symbols_reach_succ hr', ← Reading.label?_gist, ← Reading.label?_gist,
      hgist, ihsymbols, ihcounter]
  · rw [counter_reach_succ hr, counter_reach_succ hr', Reading.next_eq, Reading.next_eq, hgist,
      ihcounter]

/-! ## Runs of the second pass -/

/-- Two sources of the same length whose lines yield the same items place by place yield the same
list of items. -/
theorem Line.filterMap_before_congr {α : Type} {lines lines' : List Text} {f g : Nat → Text → Option α}
    (hlength : lines.length = lines'.length)
    (h : ∀ i raw raw', lines[i]? = some raw → lines'[i]? = some raw' → f i raw = g i raw') {i : Nat}
    (hi : i ≤ lines.length) :
    ((before lines i).filterMap fun p => f p.2 p.1) =
      (before lines' i).filterMap fun p => g p.2 p.1 := by
  refine place_induction (P := fun i => ((before lines i).filterMap fun p => f p.2 p.1) =
    (before lines' i).filterMap fun p => g p.2 p.1) (by simp [before]) ?_ hi
  intro i raw hraw ih
  have hlt : i < lines'.length := by
    rw [← hlength]
    exact (List.getElem?_eq_some_iff.mp hraw).1
  have hraw' : lines'[i]? = some lines'[i] := List.getElem?_eq_getElem hlt
  rw [before_succ hraw, before_succ hraw', List.filterMap_append, List.filterMap_append, ih]
  simp only [List.filterMap_cons, h i raw _ hraw hraw', List.filterMap_nil]

namespace Generation.Task

variable {t u : Task} {i : Nat} {raw raw' : Text}

/-- The treatment of a line has the effect that its gist says. -/
theorem effect_treatment (t : Task) (i : Nat) (raw : Text) :
    (t.treatment i raw).effect = (Reading.ofLine (Text.trim raw)).gist.effect t.symbols := by
  rw [treatment_eq, Reading.effect_treatment]

theorem word?_eq (t : Task) (i : Nat) (raw : Text) :
    t.word? i raw = ((Reading.ofLine (Text.trim raw)).gist.effect t.symbols).word?
      (t.reach i).counter.value (i + 1) (Text.trim raw) := by
  rw [word?, ← Treatment.word?_effect, effect_treatment]

/-- The counter behind a line is where the effect of the line takes it. -/
theorem counter_reach_succ_effect (h : t.lines[i]? = some raw) :
    (t.reach (i + 1)).counter.value =
      ((Reading.ofLine (Text.trim raw)).gist.effect t.symbols).next (t.reach i).counter.value := by
  rw [reach_succ t h, counter_apply, ← Treatment.next_effect, effect_treatment]

/-- The load lines are those of the words. -/
theorem load_result (t : Task) :
    t.result.output.load = t.result.output.words.map Word.loadText := by
  rw [output_result, load_reach (Nat.le_refl _), words_reach (Nat.le_refl _), List.map_filterMap]

/-- The statements that the pass warns about. -/
def notes (t : Task) : List Note :=
  (Line.before t.lines t.lines.length).filterMap fun p =>
    (Reading.ofLine (Text.trim p.1)).note? (p.2 + 1)

/-- Every warning of the pass is about a statement behind a label. -/
theorem warnings_result (t : Task) :
    t.result.report.warnings = t.report.warnings ++ t.notes.map (Note.text t.file) := by
  rw [report_result, warnings_reach (Nat.le_refl _), notes, List.map_filterMap]
  simp only [warning?, treatment_eq, Reading.warning?_treatment]

section Congr

variable (hsymbols : t.symbols = u.symbols)
  (hgists : Reading.gists t.lines = Reading.gists u.lines)

include hsymbols hgists

theorem counter_reach_congr (hi : i ≤ t.lines.length) :
    (t.reach i).counter.value = (u.reach i).counter.value := by
  refine Line.place_induction
    (P := fun i => (t.reach i).counter.value = (u.reach i).counter.value) rfl ?_ hi
  intro i raw hraw ih
  have hlt : i < u.lines.length := by
    rw [← Reading.length_eq_of_gists hgists]
    exact (List.getElem?_eq_some_iff.mp hraw).1
  have hraw' : u.lines[i]? = some u.lines[i] := List.getElem?_eq_getElem hlt
  rw [counter_reach_succ_effect hraw, counter_reach_succ_effect hraw',
    Reading.gist_eq_of_gists hgists hraw hraw', hsymbols, ih]

/-- The counters at the end agree. -/
theorem counter_congr : t.result.counter.value = u.result.counter.value := by
  rw [result_eq, result_eq, ← Reading.length_eq_of_gists hgists]
  exact counter_reach_congr hsymbols hgists (Nat.le_refl _)

/-- The words agree up to the texts of their lines. -/
theorem words_congr :
    t.result.output.words.map Word.spot = u.result.output.words.map Word.spot := by
  rw [output_result, output_result, words_reach (Nat.le_refl _), words_reach (Nat.le_refl _),
    List.map_filterMap, List.map_filterMap, ← Reading.length_eq_of_gists hgists]
  refine Line.filterMap_before_congr (f := fun i raw => (t.word? i raw).map Word.spot)
    (g := fun i raw => (u.word? i raw).map Word.spot)
    (Reading.length_eq_of_gists hgists) ?_ (Nat.le_refl _)
  intro i raw raw' hraw hraw'
  have hi : i ≤ t.lines.length := Nat.le_of_lt (List.getElem?_eq_some_iff.mp hraw).1
  rw [word?_eq, word?_eq, Reading.gist_eq_of_gists hgists hraw hraw', hsymbols,
    counter_reach_congr hsymbols hgists hi]
  cases (Reading.ofLine (Text.trim raw')).gist.effect u.symbols <;> rfl

/-- The load files agree, since a load line has nothing of the text of its line. -/
theorem load_congr : t.result.output.load = u.result.output.load := by
  have hload : Word.loadText =
      (fun spot : Int × Int × Int => Word.loadText ⟨spot.1, spot.2.1, [], spot.2.2⟩) ∘ Word.spot :=
    rfl
  rw [load_result, load_result, hload, ← List.map_map, ← List.map_map,
    words_congr hsymbols hgists]

/-- The diagnostics agree in kind and line. -/
theorem errors_congr (hreport : t.report = u.report) :
    t.result.report.errors.map Diagnostic.kindAndLine =
      u.result.report.errors.map Diagnostic.kindAndLine := by
  -- a diagnostic blames the line it was recorded for, so its kind is all that is left to compare
  have hitem : ∀ (t : Task) (i : Nat) (raw : Text),
      (t.diagnostic? i raw).map Diagnostic.kindAndLine =
        ((Reading.ofLine (Text.trim raw)).gist.effect t.symbols).kind?.map
          fun kind => (kind, some ((i : Int) + 1)) := by
    intro t i raw
    rw [← effect_treatment, Treatment.kind?_effect]
    cases hd : t.diagnostic? i raw with
    | none =>
      rw [diagnostic?] at hd
      rw [hd]
      rfl
    | some d =>
      obtain ⟨-, ⟨column, hplace⟩, -⟩ := blames_of_diagnostic? hd
      rw [diagnostic?] at hd
      rw [hd, Option.map_some, Option.map_some, Option.map_some, Diagnostic.kindAndLine, hplace]
      rfl
  rw [report_result, report_result, errors_reach (Nat.le_refl _), errors_reach (Nat.le_refl _),
    List.map_append, List.map_append, List.map_filterMap, List.map_filterMap, hreport,
    ← Reading.length_eq_of_gists hgists]
  refine congrArg (u.report.errors.map Diagnostic.kindAndLine ++ ·) ?_
  refine Line.filterMap_before_congr
    (f := fun i raw => (t.diagnostic? i raw).map Diagnostic.kindAndLine)
    (g := fun i raw => (u.diagnostic? i raw).map Diagnostic.kindAndLine)
    (Reading.length_eq_of_gists hgists) ?_ (Nat.le_refl _)
  intro i raw raw' hraw hraw'
  rw [hitem, hitem, Reading.gist_eq_of_gists hgists hraw hraw', hsymbols]

omit hsymbols in
/-- The warnings agree in line and label. -/
theorem notes_congr :
    t.notes.map (fun n => (n.number, n.label)) = u.notes.map fun n => (n.number, n.label) := by
  rw [notes, notes, List.map_filterMap, List.map_filterMap, ← Reading.length_eq_of_gists hgists]
  refine Line.filterMap_before_congr
    (f := fun i raw => ((Reading.ofLine (Text.trim raw)).note? (i + 1)).map
      fun n => (n.number, n.label))
    (g := fun i raw => ((Reading.ofLine (Text.trim raw)).note? (i + 1)).map
      fun n => (n.number, n.label))
    (Reading.length_eq_of_gists hgists) ?_ (Nat.le_refl _)
  intro i raw raw' hraw hraw'
  rw [Reading.note?_gist, Reading.note?_gist, Reading.gist_eq_of_gists hgists hraw hraw']

end Congr

end Generation.Task

end TwoPass
