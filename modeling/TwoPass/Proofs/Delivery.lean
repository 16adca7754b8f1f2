import TwoPass.Proofs.Files
import TwoPass.Proofs.Interruption
import TwoPass.Proofs.Listing
import TwoPass.Proofs.Parts
import TwoPass.Session

/-!
# A file is assembled like its text

A text that is assembled as a whole is cut into lines at every line break, while a file is read line by
line, once for each pass, and ends its lines only at line feed and carriage return. The two ways differ
in three points, and none of them matters.

* The other breaks (`Text.hiddenBreaks`) end no line of a file. A text without them has the same lines
  either way (`Text.fileLines_eq_textLines`).
* A file delivers its lines with a line feed at their ends, whatever break stood there
  (`Text.terminatedLines`). Both passes trim it off (`Assembly.run_of_map_trim`).
* A file can be missing, of another character set or broken. A `LegibleSource` is one that is not, with
  its text; reading it for the second pass finds what the first pass has read.

So a session is left the same and gives the same answer (`Session.file_like_text`).
-/

namespace TwoPass

/-! ## Lines of a file and lines of a text -/

namespace Text

/-- The characters that end a line of a text given as a whole, but not a line of a file. -/
def hiddenBreaks : List Char :=
  ['\u000b', '\u000c', '\u001c', '\u001d', '\u001e', '\u0085', '\u2028', '\u2029']

/-- A break that is not hidden breaks the lines of a file, too. -/
theorem isFileBreak_eq_isLineBreak {c : Char} (h : c ∉ hiddenBreaks) :
    isFileBreak c = isLineBreak c := by
  rw [Bool.eq_iff_iff]
  refine ⟨isLineBreak_of_isFileBreak, fun hbreak => ?_⟩
  simp only [hiddenBreaks, List.mem_cons, List.not_mem_nil, or_false, not_or, ← Char.toNat_inj] at h
  simp only [isLineBreak, lineBreakRanges, inRanges, List.any_cons, List.any_nil, Bool.or_false,
    Bool.or_eq_true, Bool.and_eq_true, decide_eq_true_eq] at hbreak
  simp only [isFileBreak, Bool.or_eq_true, beq_iff_eq, ← Char.toNat_inj]
  -- what is left is a comparison of code points
  simp only [Char.reduceToNat] at h ⊢
  omega

/-- Only the characters that occur matter for how a text is cut. -/
theorem cut_congr {isBreak isBreak' : Char → Bool} {t : Text}
    (h : ∀ c ∈ t, isBreak c = isBreak' c) : cut isBreak t = cut isBreak' t := by
  fun_induction cut isBreak t with
  | case1 => rfl
  | case2 rest lines last hcut ih =>
    have hrest := ih fun d hd => h d (List.mem_cons_of_mem _ (List.mem_cons_of_mem _ hd))
    rw [cut, ← hrest, hcut]
  | case3 c rest hpair lines last hcut hbreak ih =>
    have hrest := ih fun d hd => h d (List.mem_cons_of_mem c hd)
    rw [cut, ← hrest, hcut, ← h c List.mem_cons_self]
    · simp [hbreak]
    · exact hpair
  | case4 c rest hpair last hbreak hcut ih =>
    have hrest := ih fun d hd => h d (List.mem_cons_of_mem c hd)
    rw [cut, ← hrest, hcut, ← h c List.mem_cons_self]
    · simp [hbreak]
    · exact hpair
  | case5 c rest hpair last hbreak line lines hcut ih =>
    have hrest := ih fun d hd => h d (List.mem_cons_of_mem c hd)
    rw [cut, ← hrest, hcut, ← h c List.mem_cons_self]
    · simp [hbreak]
    · exact hpair

/-- **A text without hidden breaks has the same lines in a file**. -/
theorem fileLines_eq_textLines {t : Text} (h : ∀ c ∈ t, c ∉ hiddenBreaks) :
    fileLines t = textLines t := by
  have hcut : cut isFileBreak t = cut isLineBreak t :=
    cut_congr fun c hc => isFileBreak_eq_isLineBreak (h c hc)
  rw [fileLines, textLines, lines, lines, hcut]

/-- The lines of a file as they are delivered: with a line feed in place of the break, except for what
follows the last break. -/
def terminatedLines (t : Text) : List Text :=
  let (ended, last) := cut isFileBreak t
  ended.map (· ++ ['\n']) ++ if last.isEmpty then [] else [last]

/-- The line feeds are among the blanks around the lines. -/
theorem map_trim_terminatedLines (t : Text) : (terminatedLines t).map trim = (fileLines t).map trim := by
  have hfeed (line : Text) : trim (line ++ ['\n']) = trim line := trim_append_right line (by decide)
  simp only [terminatedLines, fileLines, lines]
  split <;> simp [hfeed]

/-- The lines that a file delivers are its text, if there is no carriage return in it. -/
theorem flatten_terminatedLines {t : Text} (h : '\r' ∉ t) : (terminatedLines t).flatten = t := by
  have hcut : endLines (cut isFileBreak t).1 ++ (cut isFileBreak t).2 = t := by
    fun_induction cut isFileBreak t with
    | case1 => rfl
    | case2 rest lines last hcut ih => exact absurd List.mem_cons_self h
    | case3 c rest hpair lines last hcut hbreak ih =>
      obtain ⟨hc, hrest⟩ := not_or.mp (mt List.mem_cons.mpr h)
      obtain rfl : c = '\n' := by simpa [isFileBreak, Ne.symm hc] using hbreak
      have hlines := ih hrest
      rw [hcut] at hlines
      exact congrArg ('\n' :: ·) hlines
    | case4 c rest hpair last hbreak hcut ih =>
      have hlines := ih fun hreturn => h (List.mem_cons_of_mem c hreturn)
      rw [hcut] at hlines
      exact congrArg (c :: ·) hlines
    | case5 c rest hpair last hbreak line lines hcut ih =>
      have hlines := ih fun hreturn => h (List.mem_cons_of_mem c hreturn)
      rw [hcut] at hlines
      exact congrArg (c :: ·) hlines
  rcases hparts : cut isFileBreak t with ⟨ended, last⟩
  rw [hparts] at hcut
  simp only [terminatedLines, hparts, List.flatten_append]
  cases last with
  | nil => exact hcut
  | cons c last =>
    rw [List.isEmpty_cons, if_neg Bool.false_ne_true, List.flatten_singleton]
    exact hcut

end Text

/-! ## What both passes make of lines -/

theorem Survey.run_map_trim (symbols : SymbolTable) (file : SourceName) (lines : List Text) :
    run symbols file (lines.map Text.trim) = run symbols file lines := by
  rw [run, walk_map_trim]
  rfl

theorem Generation.run_map_trim (symbols : SymbolTable) (file : SourceName) (report : Report)
    (listing load : Bool) (lines : List Text) :
    run symbols file report listing load (lines.map Text.trim) =
      run symbols file report listing load lines := by
  rw [run, walk_map_trim]
  rfl

namespace Assembly

/-- The assembly of lines from the start, without outputs. -/
def ofLines (lines : List Text) (file : SourceName) : Assembly :=
  ⟨.empty, file, .empty, false, false, lines⟩

/-- What both passes produce. -/
def run (a : Assembly) : Run :=
  ⟨a.first.result.symbols, a.second.result.report, a.second.result.output⟩

theorem run_map_trim (lines : List Text) (file : SourceName) :
    (ofLines (lines.map Text.trim) file).run = (ofLines lines file).run := by
  simp only [run, first, second, ofLines, Survey.Task.result, Generation.Task.result,
    Survey.run_map_trim, Generation.run_map_trim]

/-- **Both passes see only the trimmed lines**. -/
theorem run_of_map_trim {lines lines' : List Text} (file : SourceName)
    (h : lines.map Text.trim = lines'.map Text.trim) :
    (ofLines lines file).run = (ofLines lines' file).run := by
  rw [← run_map_trim lines, h, run_map_trim]

end Assembly

/-! ## Sources that can be read -/

/-- A source that can be read: the encoding is a known one, the file is there, and its bytes are those
of a text. -/
structure LegibleSource (encoding : Text) (store : Store) (path : Text) where
  /-- the character set of the encoding -/
  charset : Charset
  /-- the contents of the file -/
  bytes : Bytes
  /-- the text of the file -/
  text : Text
  /-- the name of the encoding can be a name -/
  not_null : Store.null ∉ encoding
  /-- the encoding is that of the character set -/
  named : Charset.ofName? encoding = some charset
  /-- the path leads to the file, and it may be read -/
  read : store.openForReading (Path.normalize path) = .ok bytes
  /-- the bytes are the text in the character set -/
  decoded : charset.decode bytes = (text, none)

namespace LegibleSource

variable {encoding : Text} {store : Store} {path : Text} (source : LegibleSource encoding store path)

/-- What both passes produce from the lines of the source. -/
def run : Run :=
  (Assembly.ofLines (Text.fileLines source.text) (.named (Path.normalize path))).run

theorem openSource_eq :
    openSource encoding store (Path.normalize path) = .ok (source.charset, source.bytes) := by
  simp [openSource, source.not_null, source.read, source.named]

theorem readLines_eq (block : Nat) :
    source.charset.readLines block source.bytes = ⟨Text.fileLines source.text, none⟩ :=
  Charset.readLines_of_decode source.decoded block

/-- As long as the file stays the same, the second pass gets the same lines. -/
theorem rereadLines_eq {store' : Store} (h : store'.read (Path.normalize path) = .ok source.bytes) :
    rereadLines source.charset store' (Path.normalize path) = Text.fileLines source.text := by
  simp [rereadLines, h, source.readLines_eq]

/-- A source that can be read is assembled, and without outputs nothing is written. -/
theorem assembleFile_eq :
    assembleFile encoding store path none none =
      ⟨source.run, store, (assembleFile encoding store path none none).events,
        .ok source.run.output.loadText⟩ := by
  simp only [assembleFile, source.openSource_eq, assembleOpened, source.readLines_eq, openOutputs,
    openOutput, generateFile, source.rereadLines_eq (Store.read_of_openForReading source.read), flush]
  rfl

end LegibleSource

namespace Session

/-- **A file is assembled like its text**. Assembling a file that can be read, and whose text has none of
the breaks that a file does not know, leaves the session as assembling that text under the name of the
file does, and the answer is the same load text. This is also what both passes make of the lines as the
file delivers them. -/
theorem file_like_text (s : Session) {path : Text}
    (source : LegibleSource s.encoding s.store path)
    (h : ∀ c ∈ source.text, c ∉ Text.hiddenBreaks) :
    let file := SourceName.named (Path.normalize path)
    let run := (assembleText source.text file).1
    (s.perform (.assembleFile path none none)).1 = (s.perform (.assembleText source.text file)).1 ∧
      (s.perform (.assembleFile path none none)).1 = { s with run := run } ∧
      (s.attempt (.assembleFile path none none)).outcome = .ok (some run.output.loadText) ∧
      (s.attempt (.assembleText source.text file)).outcome = .ok (some run.output.loadText) ∧
      run = (Assembly.ofLines (Text.terminatedLines source.text) file).run := by
  intro file run
  have hrun : source.run = run := by
    rw [LegibleSource.run, Text.fileLines_eq_textLines h]
    rfl
  have hfile : s.attempt (.assembleFile path none none) =
      ⟨run, s.store, (assembleFile s.encoding s.store path none none).events,
        .ok (some run.output.loadText)⟩ := by
    rw [attempt, source.assembleFile_eq, hrun]
    rfl
  refine ⟨?_, ?_, ?_, rfl, ?_⟩
  · rw [perform, hfile]
    rfl
  · rw [perform, hfile]
    rfl
  · rw [hfile]
  · rw [← hrun]
    exact Assembly.run_of_map_trim file (Text.map_trim_terminatedLines source.text).symm

/-- A file in Latin-1, below a directory, with every break that a file knows and no break at its end. -/
theorem file_like_text_mixed_breaks :
    let text := "LOC 5\r\nX: ; é\rData X\n\nLDR x".toList
    let bytes : Bytes := text.map fun c => .ofNat c.toNat
    let store : Store := 
      { directories := [["d".toList]], files := [(["d".toList, "a".toList], bytes)] }
    let s : Session := .fresh "latin-1".toList store
    let after := (s.perform (.assembleFile "d//a".toList none none)).1
    (∀ c ∈ text, c ∉ Text.hiddenBreaks) ∧
      after = (s.perform (.assembleText text (.named "d/a".toList))).1 ∧
      after.run.output.loadText = "000005 000005\n".toList ∧
      after.run.report.errors.map (fun d => d.location.map (·.line)) = [some 5] := by
  intro text bytes store s after
  have hall : (text.all fun c => decide (c ∉ Text.hiddenBreaks)) = true := by decide
  have hbreaks : ∀ c ∈ text, c ∉ Text.hiddenBreaks :=
    fun c hc => of_decide_eq_true (List.all_eq_true.mp hall c hc)
  let source : LegibleSource s.encoding s.store "d//a".toList :=
    ⟨.latin1, bytes, text, by decide, by decide, by decide, by decide⟩
  have hsame : after = (s.perform (.assembleText text (.named "d/a".toList))).1 :=
    (file_like_text s source hbreaks).1
  exact ⟨hbreaks, hsame, by rw [hsame]; decide, by rw [hsame]; decide⟩

end Session

end TwoPass
