import Mathlib.Logic.Relation
import TwoPass.Proofs.Gist
import TwoPass.Proofs.Parts

/-!
# Layout does not matter

The same program can be laid out in many ways. `Line.Edit` is one change of layout on one line: of the
blanks at its ends, of the gap behind the head of the line or behind the head of the statement that
follows a label, of the letter case of a keyword, or a comment added at the end; `Line.Reformatted` is
any combination of such changes.

Blanks and comments are removed at different moments by different readers, so this is not one fact but
one for each pair of them. Every edit keeps the gist of the line (`Line.Edit.gist_eq`):

* blanks at the ends and the length of a gap are lost when a statement is taken apart;
* a keyword is found by its upper-case letters;
* a comment is stripped where operands are read (`Operand.gist_append_comment`). An origin directive
  reads its first token as it is, and is safe because a gap comes before the comment. Where nothing
  stood before, the comment is a statement without a keyword.

What follows for a whole program is `Assembly.formatting_irrelevant`.
-/

namespace TwoPass

/-! ## Heads -/

namespace Keyword

theorem ofToken?_congr {token token' : Text}
    (h : token'.map Char.toUpper = token.map Char.toUpper) : ofToken? token' = ofToken? token := by
  rw [ofToken?, ofToken?, h]

/-- A token that starts a comment is no keyword. -/
theorem ofToken?_of_semicolon {token : Text} (h : token.head? = some ';') : ofToken? token = none := by
  cases hk : ofToken? token with
  | none => rfl
  | some k =>
    have hname := congrArg List.head? (map_toUpper_of_ofToken? hk)
    rw [List.head?_map, h] at hname
    have hfree : ∀ k : Keyword, k.name.head? ≠ some ';' := by
      intro k
      cases k with
      | instruction m => cases m <;> decide
      | _ => decide
    exact absurd hname.symm (hfree k)

/-- A blank has no other letter case. -/
theorem toUpper_of_isBlank {c : Char} (h : Text.isBlank c = true) : c.toUpper = c := by
  unfold Char.toUpper
  split
  · next hc =>
    -- the lower-case letters lie between two ranges of blanks
    have hlow : 97 ≤ c.toNat := UInt32.le_iff_toNat_le.mp hc.1
    have hhigh : c.toNat ≤ 122 := UInt32.le_iff_toNat_le.mp hc.2
    simp only [Text.isBlank, Text.inRanges, Text.blankRanges, List.any_cons, List.any_nil,
      Bool.or_eq_true, Bool.and_eq_true, decide_eq_true_eq, Bool.or_false] at h
    omega
  · rfl

/-- A keyword has no blanks in it. -/
theorem isToken_of_ofToken? {token : Text} {k : Keyword} (h : ofToken? token = some k) :
    Text.isToken token = true := by
  have hname := map_toUpper_of_ofToken? h
  have hkeyword : Text.isToken k.name = true := by
    cases k with
    | instruction m => cases m <;> decide
    | _ => decide
  rw [Text.isToken, Bool.and_eq_true, List.all_eq_true]
  constructor
  · cases token with
    | nil =>
      rw [← hname] at hkeyword
      exact hkeyword
    | cons c token => rfl
  · intro c hc
    have hupper : c.toUpper ∈ k.name := hname ▸ List.mem_map_of_mem hc
    cases hblank : Text.isBlank c with
    | false => rfl
    | true =>
      have hnot := Text.not_isBlank_of_isToken hkeyword _ hupper
      rw [toUpper_of_isBlank hblank, hblank] at hnot
      cases hnot

/-- The end marker is the only keyword that is a label. -/
theorem getLast?_of_ofToken? {token : Text} {k : Keyword} (h : ofToken? token = some k)
    (hfinish : k ≠ .finish) : token.getLast? ≠ some ':' := by
  intro hlast
  have hname := congrArg List.getLast? (map_toUpper_of_ofToken? h)
  rw [List.getLast?_map, hlast] at hname
  cases k with
  | finish => exact hfinish rfl
  | instruction m => cases m <;> exact absurd hname (by decide)
  | origin | data => exact absurd hname (by decide)

end Keyword

/-! ## Readings of parts -/

@[simp] theorem Operand.gist_trim (t : Text) : gist (Text.trim t) = gist t := by
  rw [gist, gist, Line.firstToken?_trim, Line.stripComment_trim, fields_trim]

/-- The gist of a statement by its head and what follows it. -/
theorem Statement.bind_gist?_text (p : Line.Parts) :
    (ofText? p.text).bind gist? =
      (Keyword.ofToken? p.token).map (⟨·, Operand.gist p.rest⟩) := by
  rw [ofText?_text, Option.bind_some, gist?, getD_tailOf, Operand.gist_trim]
  rfl

namespace Reading

/-- The reading of a statement that starts its line. -/
def ofStatement (s : Statement) : Reading :=
  if s.keyword? = some .finish then finish s.head.dropLast (s.tail.bind Statement.ofText?)
  else if s.isLabel then labelled s.head.dropLast (s.tail.bind Statement.ofText?)
  else bare s

theorem ofLine_trim (t : Text) : ofLine (Text.trim t) = ofLine t := by
  rw [ofLine, ofLine, Line.isInert_trim, Statement.ofText?_trim]

theorem ofLine_of_isInert {t : Text} (h : Line.isInert t = true) : ofLine t = inert := by
  rw [ofLine, if_pos h]

/-- The reading of a line by its first token and what follows it. -/
theorem ofLine_text (p : Line.Parts) :
    ofLine p.text =
      if p.token.head? = some ';' then inert
      else ofStatement ⟨p.token, Statement.tailOf p.rest⟩ := by
  rw [ofLine, Line.isInert_text, Statement.ofText?_text]
  simp only [beq_iff_eq, ofStatement]

/-- The gist of a line by its first token and what follows it: a statement behind a label, or an
operand. -/
theorem gist_ofStatement_tailOf (token rest : Text) :
    (ofStatement ⟨token, Statement.tailOf rest⟩).gist =
      if Keyword.ofToken? token = some .finish then
        .finish token.dropLast ((Statement.ofText? rest).bind Statement.gist?)
      else if token.getLast? = some ':' then
        .labelled token.dropLast ((Statement.ofText? rest).bind Statement.gist?)
      else .bare ((Keyword.ofToken? token).map (⟨·, Operand.gist rest⟩)) := by
  rw [ofStatement, Statement.bind_tailOf]
  by_cases hfinish : Keyword.ofToken? token = some .finish
  · simp [Statement.keyword?, hfinish, gist]
  · by_cases hlabel : token.getLast? = some ':'
    · simp [Statement.keyword?, Statement.isLabel, hfinish, hlabel, gist]
    · simp [Statement.keyword?, Statement.isLabel, hfinish, hlabel, gist, Statement.gist?]

end Reading

/-! ## Comments -/

namespace Line

/-- What is appended behind a gap belongs to the rest. -/
def Parts.append (p : Parts) {gap : Text} (h : Text.isGap gap = true) (t : Text) : Parts where
  lead := p.lead
  token := p.token
  rest := p.rest ++ (gap ++ t)
  isBlanks_lead := p.isBlanks_lead
  isToken_token := p.isToken_token
  endsToken_rest := by
    have hrest := p.endsToken_rest
    cases hcons : p.rest with
    | nil => exact Text.endsToken_append_of_isGap h t
    | cons c rest =>
      rw [hcons] at hrest
      exact hrest

theorem Parts.text_append (p : Parts) {gap : Text} (h : Text.isGap gap = true) (t : Text) :
    (p.append h t).text = p.text ++ (gap ++ t) := by
  simp [Parts.text, Parts.append]

/-- Behind blanks, a comment is the first token. -/
theorem exists_parts_comment {blanks : Text} (h : Text.isBlanks blanks = true) (comment : Text) :
    ∃ p : Parts, p.text = blanks ++ ';' :: comment ∧ p.token.head? = some ';' := by
  have htrim : (Text.trim (blanks ++ ';' :: comment)).head? = some ';' := by
    have hstart : Text.trimStart (';' :: comment) = ';' :: comment :=
      Text.trimStart_of_not_isBlank comment (by decide)
    rw [Text.trim_append_left h, Text.trim, hstart, ← List.singleton_append, Text.trimEnd_append]
    split
    · rfl
    · rfl
  have hblank : Text.isBlanks (blanks ++ ';' :: comment) = false := by
    rw [← Bool.not_eq_true, ← Text.trim_eq_nil_iff]
    intro hnil
    rw [hnil] at htrim
    cases htrim
  obtain ⟨p, hp⟩ := exists_parts hblank
  refine ⟨p, hp, ?_⟩
  rw [← p.head?_trim_text, hp]
  exact htrim

end Line

section Comment

variable {gap : Text} (hgap : Text.isGap gap = true) (comment : Text)

include hgap

/-- A comment behind a gap is lost on everyone who reads an operand. -/
theorem Operand.gist_append_comment (t : Text) : gist (t ++ (gap ++ ';' :: comment)) = gist t := by
  have hstrip : Line.stripComment (t ++ (gap ++ ';' :: comment)) = Line.stripComment t :=
    Line.stripComment_append t (Text.isBlanks_of_isGap hgap) rfl
  have hfields : fields (t ++ (gap ++ ';' :: comment)) = fields t := by
    rw [fields, fields, hstrip]
  have haddress : (parse ((Line.firstToken? (t ++ (gap ++ ';' :: comment))).getD [])).toOption =
      (parse ((Line.firstToken? t).getD [])).toOption := by
    cases hblank : Text.isBlanks t with
    | false =>
      obtain ⟨p, rfl⟩ := Line.exists_parts hblank
      rw [← p.text_append hgap, Line.firstToken?_text, Line.firstToken?_text]
      rfl
    | true =>
      -- the comment is taken for the operand, and is refused as a missing one is
      have hblanks := Text.isBlanks_append hblank (Text.isBlanks_of_isGap hgap)
      obtain ⟨p, hp, hhead⟩ := Line.exists_parts_comment hblanks comment
      rw [← List.append_assoc, ← hp, Line.firstToken?_text, Line.firstToken?_of_isBlanks hblank]
      obtain ⟨token, htoken⟩ := List.head?_eq_some_iff.mp hhead
      rw [htoken]
      rfl
  rw [gist, gist, hstrip, hfields, haddress]

/-- A comment behind a gap is lost on a statement, and is no statement with a keyword itself. -/
theorem Statement.bind_gist?_append_comment (t : Text) :
    (ofText? (t ++ (gap ++ ';' :: comment))).bind gist? = (ofText? t).bind gist? := by
  cases hblank : Text.isBlanks t with
  | false =>
    obtain ⟨p, rfl⟩ := Line.exists_parts hblank
    rw [← p.text_append hgap, bind_gist?_text, bind_gist?_text]
    simp only [Line.Parts.append, Operand.gist_append_comment hgap]
  | true =>
    have hblanks := Text.isBlanks_append hblank (Text.isBlanks_of_isGap hgap)
    obtain ⟨p, hp, hhead⟩ := Line.exists_parts_comment hblanks comment
    rw [← List.append_assoc, ← hp, bind_gist?_text, Keyword.ofToken?_of_semicolon hhead,
      ofText?_of_isBlanks hblank]
    rfl

/-- A comment behind a gap is lost on a line. -/
theorem Reading.gist_append_comment (t : Text) :
    (ofLine (t ++ (gap ++ ';' :: comment))).gist = (ofLine t).gist := by
  cases hblank : Text.isBlanks t with
  | false =>
    obtain ⟨p, rfl⟩ := Line.exists_parts hblank
    rw [← p.text_append hgap, ofLine_text, ofLine_text]
    change (if p.token.head? = some ';' then inert else _).gist = _
    split
    · rfl
    · -- the same token starts both lines; what follows it is a statement or an operand
      rw [gist_ofStatement_tailOf, gist_ofStatement_tailOf]
      simp only [Line.Parts.append, Statement.bind_gist?_append_comment hgap,
        Operand.gist_append_comment hgap]
  | true =>
    have hblanks := Text.isBlanks_append hblank (Text.isBlanks_of_isGap hgap)
    obtain ⟨p, hp, hhead⟩ := Line.exists_parts_comment hblanks comment
    rw [← List.append_assoc, ← hp, ofLine_text, if_pos hhead,
      ofLine_of_isInert (Line.isInert_of_isBlanks hblank)]

end Comment

/-! ## Edits -/

namespace Line

/-- What can stand before the head of a statement: blanks, or a label between blanks. -/
inductive Opens : Text → Prop where
  /-- the statement comes first on its line -/
  | blanks (blanks : Text) (h : Text.isBlanks blanks = true) : Opens blanks
  /-- the statement stands behind a label -/
  | label (blanks name gap : Text) (h : Text.isBlanks blanks = true)
      (hname : Text.isToken (name ++ [':']) = true) (hgap : Text.isGap gap = true) :
      Opens (blanks ++ ((name ++ [':']) ++ gap))

/-- One change of the layout of a line. -/
inductive Edit : Text → Text → Prop where
  /-- the blanks at the start are added, removed or replaced -/
  | lead (blanks blanks' line : Text) (h : Text.isBlanks blanks = true)
      (h' : Text.isBlanks blanks' = true) : Edit (blanks ++ line) (blanks' ++ line)
  /-- the blanks at the end are added, removed or replaced -/
  | trail (line blanks blanks' : Text) (h : Text.isBlanks blanks = true)
      (h' : Text.isBlanks blanks' = true) : Edit (line ++ blanks) (line ++ blanks')
  /-- the gap behind the head of a statement is replaced by another gap -/
  | gap (opening head gap gap' rest : Text) (hopening : Opens opening)
      (hhead : Text.isToken head = true) (h : Text.isGap gap = true) (h' : Text.isGap gap' = true) :
      Edit (opening ++ (head ++ (gap ++ rest))) (opening ++ (head ++ (gap' ++ rest)))
  /-- a keyword other than the end marker is written with other letter case -/
  | letterCase (opening head head' rest : Text) (keyword : Keyword) (hopening : Opens opening)
      (hkeyword : Keyword.ofToken? head = some keyword) (hfinish : keyword ≠ .finish)
      (hcase : head'.map Char.toUpper = head.map Char.toUpper)
      (hrest : Text.endsToken rest = true) :
      Edit (opening ++ (head ++ rest)) (opening ++ (head' ++ rest))
  /-- a comment is added at the end, behind a gap -/
  | comment (line gap text : Text) (h : Text.isGap gap = true) :
      Edit line (line ++ (gap ++ ';' :: text))

/-- Any combination of changes of the layout of a line. -/
def Reformatted : Text → Text → Prop := Relation.ReflTransGen Edit

/-- Two texts that say the same, whether they are a whole line or stand behind a label. -/
structure Alike (t t' : Text) : Prop where
  /-- as lines -/
  line : (Reading.ofLine t).gist = (Reading.ofLine t').gist
  /-- as statements -/
  statement : (Statement.ofText? t).bind Statement.gist? = (Statement.ofText? t').bind Statement.gist?

/-- What says the same says the same behind blanks and behind a label. -/
theorem Opens.gist_eq {opening : Text} (hopening : Opens opening) {t t' : Text} (h : Alike t t') :
    (Reading.ofLine (opening ++ t)).gist = (Reading.ofLine (opening ++ t')).gist := by
  cases hopening with
  | blanks _ hblanks =>
    have hread : ∀ t, Reading.ofLine (opening ++ t) = Reading.ofLine t := by
      intro t
      rw [← Reading.ofLine_trim, Text.trim_append_left hblanks, Reading.ofLine_trim]
    rw [hread, hread, h.line]
  | label blanks name gap hblanks hname hgap =>
    have hread : ∀ t, (Reading.ofLine (blanks ++ ((name ++ [':']) ++ gap) ++ t)).gist =
        if (name ++ [':']).head? = some ';' then .inert
        else if Keyword.ofToken? (name ++ [':']) = some .finish then
          .finish name ((Statement.ofText? t).bind Statement.gist?)
        else .labelled name ((Statement.ofText? t).bind Statement.gist?) := by
      intro t
      let p : Parts := ⟨blanks, name ++ [':'], gap ++ t, hblanks, hname,
        Text.endsToken_append_of_isGap hgap t⟩
      have hp : p.text = blanks ++ ((name ++ [':']) ++ gap) ++ t := by
        simp [p, Parts.text]
      have hgap' : Statement.ofText? (gap ++ t) = Statement.ofText? t := by
        rw [← Statement.ofText?_trim, Text.trim_append_left (Text.isBlanks_of_isGap hgap),
          Statement.ofText?_trim]
      have hlabel : (name ++ [':']).getLast? = some ':' := List.getLast?_concat
      rw [← hp, Reading.ofLine_text]
      change (if (name ++ [':']).head? = some ';' then Reading.inert else _).gist = _
      split
      · rfl
      · rw [Reading.gist_ofStatement_tailOf]
        change (if Keyword.ofToken? (name ++ [':']) = some .finish then _
          else if (name ++ [':']).getLast? = some ':' then _ else _) = _
        rw [if_pos hlabel, hgap', List.dropLast_concat]
    rw [hread, hread, h.statement]

/-- The length of a gap is not seen. -/
theorem alike_gap {head gap gap' : Text} (rest : Text) (hhead : Text.isToken head = true)
    (h : Text.isGap gap = true) (h' : Text.isGap gap' = true) :
    Alike (head ++ (gap ++ rest)) (head ++ (gap' ++ rest)) := by
  let p : Parts := ⟨[], head, gap ++ rest, rfl, hhead, Text.endsToken_append_of_isGap h rest⟩
  let p' : Parts := ⟨[], head, gap' ++ rest, rfl, hhead, Text.endsToken_append_of_isGap h' rest⟩
  have htail : Statement.tailOf (gap ++ rest) = Statement.tailOf (gap' ++ rest) := by
    rw [Statement.tailOf, Statement.tailOf, Text.trim_append_left (Text.isBlanks_of_isGap h),
      Text.trim_append_left (Text.isBlanks_of_isGap h')]
  constructor
  · change (Reading.ofLine p.text).gist = (Reading.ofLine p'.text).gist
    rw [Reading.ofLine_text, Reading.ofLine_text]
    simp only [p, p', htail]
  · change (Statement.ofText? p.text).bind _ = (Statement.ofText? p'.text).bind _
    rw [Statement.ofText?_text, Statement.ofText?_text]
    simp only [p, p', htail]

/-- The letter case of a keyword is not seen. -/
theorem alike_letterCase {head head' rest : Text} {keyword : Keyword}
    (hkeyword : Keyword.ofToken? head = some keyword) (hfinish : keyword ≠ .finish)
    (hcase : head'.map Char.toUpper = head.map Char.toUpper)
    (hrest : Text.endsToken rest = true) : Alike (head ++ rest) (head' ++ rest) := by
  -- a text that starts with the keyword, in whatever letters, is an unlabelled statement
  have hread : ∀ token, Keyword.ofToken? token = some keyword →
      (Reading.ofLine (token ++ rest)).gist = .bare (some ⟨keyword, Operand.gist rest⟩) ∧
        (Statement.ofText? (token ++ rest)).bind Statement.gist? =
          some ⟨keyword, Operand.gist rest⟩ := by
    intro token htoken
    let p : Parts := ⟨[], token, rest, rfl, Keyword.isToken_of_ofToken? htoken, hrest⟩
    have hsemicolon : token.head? ≠ some ';' := by
      intro hhead
      rw [Keyword.ofToken?_of_semicolon hhead] at htoken
      cases htoken
    constructor
    · change (Reading.ofLine p.text).gist = _
      rw [Reading.ofLine_text, if_neg hsemicolon, Reading.gist_ofStatement_tailOf]
      simp [p, htoken, hfinish, Keyword.getLast?_of_ofToken? htoken hfinish]
    · change (Statement.ofText? p.text).bind _ = _
      rw [Statement.bind_gist?_text]
      simp [p, htoken]
  have hkeyword' : Keyword.ofToken? head' = some keyword := by
    rw [Keyword.ofToken?_congr hcase, hkeyword]
  obtain ⟨hline, hstatement⟩ := hread head hkeyword
  obtain ⟨hline', hstatement'⟩ := hread head' hkeyword'
  exact ⟨hline.trans hline'.symm, hstatement.trans hstatement'.symm⟩

/-- **An edit keeps the gist of its line**. -/
theorem Edit.gist_eq {t t' : Text} (h : Edit t t') :
    (Reading.ofLine t).gist = (Reading.ofLine t').gist := by
  cases h with
  | lead blanks blanks' line h h' =>
    rw [← Reading.ofLine_trim, Text.trim_append_left h, ← Reading.ofLine_trim (blanks' ++ line),
      Text.trim_append_left h']
  | trail line blanks blanks' h h' =>
    rw [← Reading.ofLine_trim, Text.trim_append_right _ h, ← Reading.ofLine_trim (line ++ blanks'),
      Text.trim_append_right _ h']
  | gap opening head gap gap' rest hopening hhead h h' =>
    exact hopening.gist_eq (alike_gap rest hhead h h')
  | letterCase opening head head' rest keyword hopening hkeyword hfinish hcase hrest =>
    exact hopening.gist_eq (alike_letterCase hkeyword hfinish hcase hrest)
  | comment _ gap text h => exact (Reading.gist_append_comment h text t).symm

theorem Reformatted.gist_eq {t t' : Text} (h : Reformatted t t') :
    (Reading.ofLine (Text.trim t)).gist = (Reading.ofLine (Text.trim t')).gist := by
  rw [Reading.ofLine_trim, Reading.ofLine_trim]
  induction h with
  | refl => rfl
  | tail _ hedit ih => exact ih.trans hedit.gist_eq

end Line

/-- Reformatting keeps the gists of a source. -/
theorem Reading.gists_of_reformatted {lines lines' : List Text}
    (h : List.Forall₂ Line.Reformatted lines lines') : gists lines = gists lines' := by
  induction h with
  | nil => rfl
  | cons hline _ ih => exact congrArg₂ List.cons hline.gist_eq ih

/-! ## Programs -/

namespace Assembly

/-- **Layout does not matter**. If every line of a source is laid out anew, both passes do the same as
before: the table has the same names in the same order with the same addresses, the counters end at the
same addresses, the same words are emitted at the same addresses for the same lines, and the load file is
the same. The diagnostics are of the same kinds and about the same lines, and there is a warning about
the same labels on the same lines. -/
theorem formatting_irrelevant (a : Assembly) (lines : List Text)
    (h : List.Forall₂ Line.Reformatted a.lines lines) :
    let b : Assembly := { a with lines := lines }
    b.first.result.symbols = a.first.result.symbols ∧
    b.first.result.counter = a.first.result.counter ∧
    b.second.result.counter = a.second.result.counter ∧
    b.second.result.output.words.map Word.spot = a.second.result.output.words.map Word.spot ∧
    b.second.result.output.loadText = a.second.result.output.loadText ∧
    b.second.result.report.errors.map Diagnostic.kindAndLine =
      a.second.result.report.errors.map Diagnostic.kindAndLine ∧
    ∃ notes notes' : List Note,
      a.second.result.report.warnings = a.report.warnings ++ notes.map (Note.text a.file) ∧
      b.second.result.report.warnings = a.report.warnings ++ notes'.map (Note.text a.file) ∧
      (notes'.map fun n => (n.number, n.label)) = notes.map fun n => (n.number, n.label) := by
  intro b
  have hgists : Reading.gists b.lines = Reading.gists a.lines :=
    (Reading.gists_of_reformatted h).symm
  have hlength : b.lines.length = a.lines.length := Reading.length_eq_of_gists hgists
  obtain ⟨hsymbols, hcounter⟩ := Survey.Task.reach_congr (t := b.first) (u := a.first) rfl hgists
    (Nat.le_refl _)
  have hfirst : b.first.result.symbols = a.first.result.symbols := by
    rw [Survey.Task.symbols_result, Survey.Task.symbols_result, hsymbols]
    exact congrArg (fun i => (a.first.reach i).symbols) hlength
  refine ⟨hfirst, ?_, ?_, ?_, ?_, ?_, a.second.notes, b.second.notes,
    Generation.Task.warnings_result _, Generation.Task.warnings_result _, ?_⟩
  · rw [Survey.Task.result_eq, Survey.Task.result_eq]
    exact congrArg LocationCounter.mk (hcounter.trans
      (congrArg (fun i => (a.first.reach i).counter.value) hlength))
  · exact congrArg LocationCounter.mk (Generation.Task.counter_congr hfirst hgists)
  · exact Generation.Task.words_congr hfirst hgists
  · exact congrArg endLines (Generation.Task.load_congr hfirst hgists)
  · exact Generation.Task.errors_congr hfirst hgists rfl
  · exact Generation.Task.notes_congr hgists

/-- Other letters, another gap and a comment behind a label; a label that gets a comment behind it; a
statement that is rejected either way. -/
theorem formatting_irrelevant_commented :
    let lines := ["Loop: loc 6", "DATA Loop", "X:", "LDR 1,x"].map String.toList
    let lines' := ["Loop: \t LOC 6 ;start", " data Loop", "X: ;LOC 9", "LDR 1,x "].map String.toList
    let a : Assembly := ⟨.empty, .input, .empty, false, false, lines⟩
    let b : Assembly := ⟨.empty, .input, .empty, false, false, lines'⟩
    List.Forall₂ Line.Reformatted lines lines' ∧
      b.first.result.symbols = a.first.result.symbols ∧
      b.second.result.output.words.map Word.spot = a.second.result.output.words.map Word.spot ∧
      a.second.result.output.words.map Word.spot = [(6, 0, 2)] ∧
      b.second.result.report.errors.map Diagnostic.kindAndLine = [(.operand, some 4)] := by
  intro lines lines' a b
  have hfirst : Line.Reformatted "Loop: loc 6".toList "Loop: \t LOC 6 ;start".toList := by
    have hcase := Line.Edit.letterCase ("Loop".toList ++ [':'] ++ [' ']) "loc".toList "LOC".toList
      " 6".toList .origin (.label [] "Loop".toList [' '] rfl rfl rfl) (by decide) (by decide)
      (by decide) (by decide)
    have hgap := Line.Edit.gap [] "Loop:".toList [' '] " \t ".toList "LOC 6".toList (.blanks [] rfl)
      (by decide) (by decide) (by decide)
    have hcomment := Line.Edit.comment "Loop: \t LOC 6".toList [' '] "start".toList (by decide)
    exact ((Relation.ReflTransGen.single hcase).tail hgap).tail hcomment
  have hsecond : Line.Reformatted "DATA Loop".toList " data Loop".toList := by
    have hcase := Line.Edit.letterCase [] "DATA".toList "data".toList " Loop".toList .data
      (.blanks [] rfl) (by decide) (by decide) (by decide) (by decide)
    have hlead := Line.Edit.lead [] [' '] "data Loop".toList (by decide) (by decide)
    exact (Relation.ReflTransGen.single hcase).tail hlead
  have hthird : Line.Reformatted "X:".toList "X: ;LOC 9".toList :=
    .single (.comment "X:".toList [' '] "LOC 9".toList (by decide))
  have hfourth : Line.Reformatted "LDR 1,x".toList "LDR 1,x ".toList :=
    .single (.trail "LDR 1,x".toList [] [' '] (by decide) (by decide))
  have hlines : List.Forall₂ Line.Reformatted lines lines' :=
    .cons hfirst (.cons hsecond (.cons hthird (.cons hfourth .nil)))
  obtain ⟨hsymbols, -, -, hwords, -, herrors, -⟩ := formatting_irrelevant a lines' hlines
  exact ⟨hlines, hsymbols, hwords, by decide, herrors.trans (by decide)⟩

end Assembly

end TwoPass
