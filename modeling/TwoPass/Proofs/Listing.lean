import TwoPass.Proofs.Drift
import TwoPass.Proofs.Lines
import TwoPass.Proofs.Separators

/-!
# The listing as a record

A listing mixes three kinds of lines: source lines as they are, source lines behind a space, and source
lines behind an address and a word. `Listing.Entry.ofText` tells them apart by their first characters
alone and gives back the source and, for a word, its line of the load file. That this is always right
rests on what each kind can start with.

* An origin directive is listed behind a space, and no trimmed line starts with one.
* A word is listed behind two octal numerals (`Listing.Entry.ofText_listingText`).
* A line that is listed as it is has nothing on it, or it is a comment, or its first token ends in a
  colon (`Treatment.opening_of_listed`). So it does not start with an octal numeral, even if a label is
  made of digits.

Hence nothing of an accepted line is lost but the blanks around it, and a listing without gaps can be
assembled in place of its source (`Assembly.listing_lossless`).
-/

namespace TwoPass

/-! ## Octal numerals -/

namespace Numeral

/-- Is the character an octal digit? -/
def isOctalDigit (c : Char) : Bool := '0'.toNat ≤ c.toNat && c.toNat ≤ '7'.toNat

/-- Is the text made of octal digits, at least one? -/
def isOctal (t : Text) : Bool := !t.isEmpty && t.all isOctalDigit

theorem isOctalDigit_digitChar {n : Nat} (h : n < 8) : isOctalDigit n.digitChar = true := by
  have hall : ∀ m, m < 8 → isOctalDigit m.digitChar = true := by decide
  exact hall n h

/-- A number is written with the digits of its base. -/
theorem exists_digitChar_of_mem_toDigits {base n : Nat} (hbase : 1 < base) {c : Char}
    (h : c ∈ Nat.toDigits base n) : ∃ digit < base, c = digit.digitChar := by
  induction n using Nat.strongRecOn with
  | ind n ih =>
    rw [Nat.toDigits_eq_if hbase] at h
    split at h
    · next hlt => exact ⟨n, hlt, List.mem_singleton.mp h⟩
    · next hle =>
      rcases List.mem_append.mp h with h | h
      · exact ih (n / base) (Nat.div_lt_self (by omega) hbase) h
      · exact ⟨n % base, Nat.mod_lt n (by omega), List.mem_singleton.mp h⟩

/-- A number is written with octal digits only. -/
theorem isOctalDigit_of_mem_octal {value : Int} {c : Char} (h : c ∈ octal value) :
    isOctalDigit c = true := by
  rw [octal, padLeft] at h
  rcases List.mem_append.mp h with h | h
  · obtain rfl := List.eq_of_mem_replicate h
    rfl
  · obtain ⟨digit, hdigit, rfl⟩ := exists_digitChar_of_mem_toDigits (by decide) h
    exact isOctalDigit_digitChar hdigit

@[simp] theorem isOctal_octal (value : Int) : isOctal (octal value) = true := by
  have hne : octal value ≠ [] := by
    rw [octal, padLeft]
    exact List.append_ne_nil_of_right_ne_nil _ Nat.toDigits_ne_nil
  rw [isOctal, Bool.and_eq_true, List.all_eq_true]
  exact ⟨by simpa using hne, fun c hc => isOctalDigit_of_mem_octal hc⟩

/-- A numeral has no line break. -/
theorem not_isLineBreak_of_mem_octal {value : Int} {c : Char} (h : c ∈ octal value) :
    Text.isLineBreak c = false := by
  have hdigit := isOctalDigit_of_mem_octal h
  simp only [isOctalDigit, Bool.and_eq_true, decide_eq_true_eq, Char.reduceToNat] at hdigit
  simp only [Text.isLineBreak, Text.inRanges, Text.lineBreakRanges, List.any_cons, List.any_nil,
    Bool.or_eq_false_iff, Bool.and_eq_false_iff, decide_eq_false_iff_not, and_true]
  omega

theorem space_not_mem_octal (value : Int) : ' ' ∉ octal value := by
  intro h
  exact absurd (isOctalDigit_of_mem_octal h) (by decide)

end Numeral

/-! ## The first token -/

namespace Text

/-- A blank ends the leading word, so the word has no space. -/
theorem mem_takeWhile_of_mem_word {t : Text} {c : Char} (h : c ∈ word t) :
    c ∈ t.takeWhile (· != ' ') := by
  induction t with
  | nil => cases h
  | cons d t ih =>
    by_cases hd : isBlank d = true
    · simp [word, hd] at h
    · have hne : d ≠ ' ' := by
        rintro rfl
        exact hd rfl
      rw [word, List.takeWhile_cons_of_pos (by simpa using hd)] at h
      rw [List.takeWhile_cons_of_pos (by simpa using hne)]
      rcases List.mem_cons.mp h with rfl | h
      · exact List.mem_cons_self
      · exact List.mem_cons_of_mem d (ih h)

end Text

/-! ## Reading a listing -/

namespace Listing

/-- What a line of a listing says. -/
structure Entry where
  /-- the line of the load file, if the line has a word -/
  load? : Option Text
  /-- the source line -/
  source : Text
  deriving DecidableEq

/-- Read a line of a listing. Behind a space stands an origin directive. An octal numeral at the start
is the address of a word, the next token is the word, and what follows the space behind that is the
source. Every other line is a source line as it is. -/
def Entry.ofText (t : Text) : Entry :=
  if t.head? = some ' ' then ⟨none, t.tail⟩
  else
    match Text.splitOn ' ' t with
    | first :: second :: behind =>
      if Numeral.isOctal first then
        ⟨some (Text.join [' '] [first, second]), Text.join [' '] behind⟩
      else ⟨none, t⟩
    | _ => ⟨none, t⟩

/-- Read a listing. -/
def read (t : Text) : List Entry := (Text.textLines t).map Entry.ofText

/-- The line of a word is read back as its load line and its source. -/
theorem Entry.ofText_listingText (w : Word) :
    Entry.ofText w.listingText = ⟨some w.loadText, w.source⟩ := by
  have hpieces : Text.splitOn ' ' w.listingText =
      Numeral.octal w.address :: Numeral.octal w.value :: Text.splitOn ' ' w.source := by
    rw [Word.listingText, Word.loadText, List.append_assoc, List.cons_append,
      Text.splitOn_append_cons (Numeral.space_not_mem_octal _),
      Text.splitOn_append_cons (Numeral.space_not_mem_octal _)]
  have hhead : w.listingText.head? ≠ some ' ' := by
    -- a space at the start would make the first piece empty
    intro hspace
    have hfirst := Text.head?_splitOn ' ' w.listingText
    obtain ⟨rest, hrest⟩ := List.head?_eq_some_iff.mp hspace
    rw [hpieces, hrest, List.takeWhile_cons_of_neg (by simp), List.head?_cons] at hfirst
    have hoctal := Numeral.isOctal_octal w.address
    rw [Option.some.inj hfirst] at hoctal
    cases hoctal
  rw [Entry.ofText, if_neg hhead, hpieces]
  simp only [Numeral.isOctal_octal, if_true, Text.join_splitOn]
  simp [Text.join, Word.loadText]

/-- A line whose first token is no octal numeral is read as it is. -/
theorem Entry.ofText_of_not_isOctal {t : Text} (hspace : t.head? ≠ some ' ')
    (hfirst : Numeral.isOctal (t.takeWhile (· != ' ')) = false) : Entry.ofText t = ⟨none, t⟩ := by
  have hhead := Text.head?_splitOn ' ' t
  rw [Entry.ofText, if_neg hspace]
  split
  · next first second behind hpieces =>
    rw [hpieces, List.head?_cons, Option.some.injEq] at hhead
    rw [hhead, hfirst]
    rfl
  · rfl

end Listing

/-! ## What is listed as it is -/

/-- A line that both passes skip has nothing but blanks and a comment. -/
theorem Reading.isInert_of_ofLine {line : Text} (h : ofLine line = inert) :
    Line.isInert line = true := by
  by_cases hinert : Line.isInert line = true
  · exact hinert
  · rw [ofLine, if_neg hinert] at h
    rw [Line.isInert]
    split at h
    · next hnone =>
      rw [Statement.ofText?] at hnone
      cases htrim : Text.trim line with
      | nil => rfl
      | cons c rest =>
        rw [htrim] at hnone
        cases hnone
    · split at h
      · cases h
      · split at h <;> cases h

/-- A line is listed as it is if it is inert or starts with a label. -/
theorem Treatment.opening_of_listed {symbols : SymbolTable} {file : SourceName} {number : Nat}
    {line : Text} {warning : Option Text}
    (h : ofLine symbols file number line = listed warning) :
    Line.isInert line = true ∨ ∃ label, Line.firstToken? line = some (label ++ [':']) := by
  rw [Treatment.ofLine_eq] at h
  cases hr : Reading.ofLine line with
  | inert => exact .inl (Reading.isInert_of_ofLine hr)
  | labelled label behind =>
    have hlabel : (Reading.ofLine line).label? = some label := by
      rw [hr]
      rfl
    exact .inr ⟨label, (Reading.label?_ofLine_eq_some_iff.mp hlabel).2⟩
  | finish label behind =>
    rw [hr] at h
    cases h
  | bare s =>
    -- a statement without a label is never listed as it is
    rw [hr, Reading.treatment] at h
    obtain ⟨_, -, ht⟩ | ⟨_, -, -, ht⟩ | ⟨-, ht⟩ | ⟨-, ht⟩ | ⟨_, -, -, ht⟩ :=
      ofBare_cases symbols file number line s
    all_goals
      rw [ht] at h
      cases h

/-- What is not listed has no word either. -/
theorem Treatment.word?_of_listingLine? {t : Treatment} {address : Int} {number : Nat} {line : Text}
    (h : t.listingLine? address number line = none) : t.word? address number line = none := by
  cases t with
  | rejected d => rfl
  | listed warning => cases h
  | moved address => cases h
  | emitted value advances => cases h

namespace Listing

/-- A trimmed line that is inert or starts with a label is read as it is. -/
theorem Entry.ofText_of_opening {raw : Text}
    (h : Line.isInert (Text.trim raw) = true ∨
      ∃ label, Line.firstToken? (Text.trim raw) = some (label ++ [':'])) :
    Entry.ofText (Text.trim raw) = ⟨none, Text.trim raw⟩ := by
  have hspace : (Text.trim raw).head? ≠ some ' ' := by
    intro hhead
    obtain ⟨rest, hrest⟩ := List.head?_eq_some_iff.mp hhead
    exact absurd (Text.isBlank_of_trim_eq_cons hrest) (by decide)
  refine Entry.ofText_of_not_isOctal hspace ?_
  rcases h with hinert | ⟨label, htoken⟩
  · -- nothing at all, or a semicolon
    rw [Line.isInert, Text.trim_trim] at hinert
    cases ht : Text.trim raw with
    | nil => rfl
    | cons c rest =>
      rw [ht] at hinert
      obtain rfl := beq_iff_eq.mp hinert
      rfl
  · -- the colon belongs to the first token
    have hword : Text.word (Text.trim raw) = label ++ [':'] := by
      rw [Line.firstToken?, Statement.ofText?, Text.trim_trim] at htoken
      cases ht : Text.trim raw with
      | nil =>
        rw [ht] at htoken
        cases htoken
      | cons c rest =>
        rw [ht] at htoken
        exact Option.some.inj htoken
    have hcolon : ':' ∈ (Text.trim raw).takeWhile (· != ' ') := by
      refine Text.mem_takeWhile_of_mem_word ?_
      rw [hword]
      simp
    rw [Numeral.isOctal, Bool.and_eq_false_iff]
    exact .inr (List.all_eq_false.mpr ⟨':', hcolon, by decide⟩)

end Listing

/-! ## The listing of a pass -/

/-- Does the report have a diagnostic for the line of this number? -/
def Report.hasErrorAt (r : Report) (number : Nat) : Bool :=
  r.errors.any fun d => d.location.any fun l => l.line == (number : Int)

/-- The trimmed lines for which the report has no diagnostic. -/
def Report.acceptedLines (r : Report) (lines : List Text) : List Text :=
  lines.zipIdx.filterMap fun p =>
    if r.hasErrorAt (p.2 + 1) then none else some (Text.trim p.1)

/-- Without diagnostics every line is accepted. -/
theorem Report.acceptedLines_of_errors {r : Report} (h : r.errors = []) (lines : List Text) :
    r.acceptedLines lines = lines.map Text.trim := by
  have hnone : ∀ number, r.hasErrorAt number = false := by
    intro number
    rw [hasErrorAt, h]
    rfl
  have hfst : lines.map Text.trim = lines.zipIdx.map (Text.trim ∘ Prod.fst) := by
    rw [← List.map_map, List.zipIdx_map_fst]
  rw [hfst, ← List.filterMap_eq_map]
  refine List.filterMap_congr ?_
  intro p _
  rw [hnone]
  rfl

namespace Generation.Task

variable {t : Task} {i : Nat} {raw : Text}

/-- **What is listed is read back**: the source is the trimmed line, and there is a load line exactly
if a word was emitted. -/
theorem ofText_listingLine? {text : Text} (h : t.listingLine? i raw = some text) :
    Listing.Entry.ofText text = ⟨(t.word? i raw).map Word.loadText, Text.trim raw⟩ := by
  unfold listingLine? at h
  unfold word?
  cases ht : t.treatment i raw with
  | listed warning =>
    rw [ht] at h
    obtain rfl := Option.some.inj h
    exact Listing.Entry.ofText_of_opening (Treatment.opening_of_listed ht)
  | moved address =>
    rw [ht] at h
    obtain rfl := Option.some.inj h
    rfl
  | emitted value advances =>
    rw [ht] at h
    obtain rfl := Option.some.inj h
    exact Listing.Entry.ofText_listingText _
  | rejected d =>
    rw [ht] at h
    cases h

/-- A listed line has the characters of its source line, of octal numerals, and spaces. -/
theorem forall_mem_listingLine? {P : Char → Prop} (hraw : ∀ c ∈ raw, P c)
    (hoctal : ∀ value, ∀ c ∈ Numeral.octal value, P c) (hspace : P ' ') {text : Text}
    (h : t.listingLine? i raw = some text) : ∀ c ∈ text, P c := by
  have htrim : ∀ c ∈ Text.trim raw, P c := fun c hc => hraw c (Text.mem_of_mem_trim hc)
  unfold listingLine? at h
  cases ht : t.treatment i raw with
  | listed warning =>
    rw [ht] at h
    obtain rfl := Option.some.inj h
    exact htrim
  | moved address =>
    rw [ht] at h
    obtain rfl := Option.some.inj h
    exact List.forall_mem_cons.mpr ⟨hspace, htrim⟩
  | emitted value advances =>
    rw [ht] at h
    obtain rfl := Option.some.inj h
    -- two numerals and the line, with a space before each but the first
    refine List.forall_mem_append.mpr ⟨List.forall_mem_append.mpr ⟨hoctal _, ?_⟩, ?_⟩
    · exact List.forall_mem_cons.mpr ⟨hspace, hoctal _⟩
    · exact List.forall_mem_cons.mpr ⟨hspace, htrim⟩
  | rejected d =>
    rw [ht] at h
    cases h

/-- A listed line has no break, if its source line has none. -/
theorem not_isLineBreak_of_listingLine? {text : Text} (h : t.listingLine? i raw = some text)
    (hraw : ∀ c ∈ raw, Text.isLineBreak c = false) : ∀ c ∈ text, Text.isLineBreak c = false :=
  forall_mem_listingLine? hraw (fun _ _ => Numeral.not_isLineBreak_of_mem_octal) rfl h

/-- The report of a pass that starts without one has a diagnostic for a line exactly if the line was
rejected. -/
theorem hasErrorAt_result (hreport : t.report.errors = []) (h : t.lines[i]? = some raw) :
    t.result.report.hasErrorAt (i + 1) = (t.diagnostic? i raw).isSome := by
  have herrors : t.result.report.errors =
      (Line.before t.lines t.lines.length).filterMap fun p => t.diagnostic? p.2 p.1 := by
    rw [report_result, errors_reach (Nat.le_refl _), hreport, List.nil_append]
  rw [Bool.eq_iff_iff, Report.hasErrorAt, List.any_eq_true, Option.isSome_iff_exists, herrors]
  constructor
  · rintro ⟨d, hd, hline⟩
    obtain ⟨⟨raw', j⟩, hmem, hd⟩ := List.mem_filterMap.mp hd
    obtain ⟨-, ⟨column, hplace⟩, -⟩ := blames_of_diagnostic? hd
    rw [hplace, Option.any_some, beq_iff_eq] at hline
    -- the diagnostic blames the line that it was recorded for
    obtain rfl : j = i := by
      simp only at hline
      omega
    obtain rfl := Option.some.inj (h.symm.trans (Line.mem_before.mp hmem).2)
    exact ⟨d, hd⟩
  · rintro ⟨d, hd⟩
    obtain ⟨-, ⟨column, hplace⟩, -⟩ := blames_of_diagnostic? hd
    refine ⟨d, List.mem_filterMap.mpr ⟨(raw, i), Line.mem_before_length h, hd⟩, ?_⟩
    rw [hplace, Option.any_some, beq_iff_eq]

/-- The listing of a pass, read line by line: the sources are the accepted lines. -/
theorem map_source_listing (hreport : t.report.errors = []) :
    (t.result.output.listing.map fun text => (Listing.Entry.ofText text).source) =
      t.result.report.acceptedLines t.lines := by
  have hitem : ∀ p ∈ Line.before t.lines t.lines.length,
      (t.listingLine? p.2 p.1).map (fun text => (Listing.Entry.ofText text).source) =
        if t.result.report.hasErrorAt (p.2 + 1) then none else some (Text.trim p.1) := by
    intro p hp
    rw [hasErrorAt_result hreport (Line.mem_before.mp hp).2]
    have hsome := isSome_listingLine? (t := t) p.2 p.1
    cases htext : t.listingLine? p.2 p.1 with
    | none =>
      rw [htext, Option.isSome_none, Eq.comm, Bool.not_eq_false'] at hsome
      rw [hsome]
      rfl
    | some text =>
      rw [htext, Option.isSome_some, Eq.comm, Bool.not_eq_true'] at hsome
      rw [hsome, Option.map_some, ofText_listingLine? htext]
      rfl
  have hbefore : Line.before t.lines t.lines.length = t.lines.zipIdx := by
    rw [Line.before, List.take_length]
  rw [output_result, listing_reach (Nat.le_refl _), List.map_filterMap, List.filterMap_congr hitem,
    hbefore]
  simp only [Report.acceptedLines, report_result]

/-- The listing of a pass, read line by line: the load lines are those of the load file. -/
theorem filterMap_load_listing :
    (t.result.output.listing.filterMap fun text => (Listing.Entry.ofText text).load?) =
      t.result.output.load := by
  rw [output_result, listing_reach (Nat.le_refl _), load_reach (Nat.le_refl _),
    List.filterMap_filterMap]
  refine List.filterMap_congr ?_
  intro p _
  cases htext : t.listingLine? p.2 p.1 with
  | some text => rw [Option.bind_some, ofText_listingLine? htext]
  | none =>
    have hword : t.word? p.2 p.1 = none := Treatment.word?_of_listingLine? htext
    rw [hword]
    rfl

end Generation.Task

/-! ## Assembling a listing -/

/-- The first pass sees only the trimmed lines. -/
theorem Survey.walk_map_trim (file : SourceName) (number : Nat) (lines : List Text) (s : Survey) :
    walk file number (lines.map Text.trim) s = walk file number lines s := by
  induction lines generalizing number s with
  | nil => rfl
  | cons raw rest ih =>
    rw [List.map_cons, walk, walk, ih, step, Text.trim_trim]
    rfl

/-- The second pass sees only the trimmed lines. -/
theorem Generation.walk_map_trim (symbols : SymbolTable) (file : SourceName) (number : Nat)
    (lines : List Text) (g : Generation) :
    walk symbols file number (lines.map Text.trim) g = walk symbols file number lines g := by
  induction lines generalizing number g with
  | nil => rfl
  | cons raw rest ih =>
    rw [List.map_cons, walk, walk, ih, step, Text.trim_trim]
    rfl

/-- A text whose lines are the trimmed lines of another one is assembled like it. -/
theorem assembleText_of_textLines {source source' : Text} (file : SourceName)
    (h : Text.textLines source' = (Text.textLines source).map Text.trim) :
    assembleText source' file = assembleText source file := by
  simp only [assembleText, h, Survey.run, Generation.run, Survey.walk_map_trim,
    Generation.walk_map_trim, List.length_map]

namespace Assembly

/-- The lines of the listing are told apart again. -/
theorem textLines_listingText (source : Text) (file : SourceName) :
    Text.textLines (assembleText source file).1.output.listingText =
      (ofText source file).second.result.output.listing := by
  refine Text.lines_endLines rfl rfl ?_
  intro text htext
  rw [assembleText_eq] at htext
  simp only [Generation.Task.output_result,
    Generation.Task.listing_reach (Nat.le_refl _)] at htext
  obtain ⟨⟨raw, i⟩, hmem, hline⟩ := List.mem_filterMap.mp htext
  refine Generation.Task.not_isLineBreak_of_listingLine? hline ?_
  exact Text.not_isBreak_of_mem_lines (List.mem_of_getElem? (Line.mem_before.mp hmem).2)

/-- **The listing loses nothing**. The sources read off the listing are, in order, the trimmed lines of
the text for which no diagnostic was recorded, and the load lines read off it are the load file. If
there are no diagnostics, assembling the sources instead of the text gives the same run, and the same
events on the way. -/
theorem listing_lossless (source : Text) (file : SourceName) :
    let run := (assembleText source file).1
    let entries := Listing.read run.output.listingText
    entries.map Listing.Entry.source = run.report.acceptedLines (Text.textLines source) ∧
    endLines (entries.filterMap Listing.Entry.load?) = run.output.loadText ∧
    (run.report.errors = [] →
      assembleText (endLines (entries.map Listing.Entry.source)) file =
        assembleText source file) := by
  intro run entries
  let t := (ofText source file).second
  have hentries : entries = t.result.output.listing.map Listing.Entry.ofText := by
    rw [← textLines_listingText source file]
    rfl
  have hsources : entries.map Listing.Entry.source =
      run.report.acceptedLines (Text.textLines source) := by
    rw [hentries, List.map_map]
    exact Generation.Task.map_source_listing (t := t) rfl
  refine ⟨hsources, ?_, ?_⟩
  · rw [hentries, List.filterMap_map]
    exact congrArg endLines (Generation.Task.filterMap_load_listing (t := t))
  · intro herrors
    refine assembleText_of_textLines file ?_
    rw [hsources, Report.acceptedLines_of_errors herrors]
    refine Text.textLines_endLines_of_trim (t := source) ?_
    intro line hline
    obtain ⟨raw, hraw, rfl⟩ := List.mem_map.mp hline
    exact ⟨raw, hraw, rfl⟩

/-- A label of octal digits, a comment that looks like a word, and blanks of several kinds. -/
theorem listing_lossless_digits :
    let source := "\t12: LOC 6 \n; 000000 000000 x\n\n DATA\t12\r\nEnd:".toList
    let run := (assembleText source .input).1
    let sources := (Listing.read run.output.listingText).map Listing.Entry.source
    run.report.errors = [] ∧
      sources = ["12: LOC 6".toList, "; 000000 000000 x".toList, [], "DATA\t12".toList,
        "End:".toList] ∧
      assembleText (endLines sources) .input = assembleText source .input := by
  intro source run sources
  have herrors : run.report.errors = [] := by decide
  obtain ⟨hsources, -, hagain⟩ := listing_lossless source .input
  exact ⟨herrors, hsources.trans (by decide), hagain herrors⟩

end Assembly

end TwoPass
