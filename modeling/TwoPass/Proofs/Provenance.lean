import TwoPass.Proofs.Binding
import TwoPass.Proofs.Codec
import TwoPass.Proofs.Delivery

/-!
# Where the characters of the results come from

A run makes up no characters. A symbol is a token of a source line, without its colon. A line of the
listing is a source line, perhaps behind a space or behind two octal numerals, and a line of the load
file is made of such numerals alone. So every character of a result comes from a source line, or it is an
octal digit, a space or a line feed (`Line.Shown`).

Two things follow for a source that was read from a file. Its character set, from which it was decoded,
has every character that is shown, so all results can be written in it (`LegibleSource.encodable`). And
since no line of a file has a carriage return in it, listing and load text have none
(`Line.Shown.ne_return`), and their breaks come back from a file as they are.
-/

namespace TwoPass

/-! ## Characters of the source -/

/-- The characters of the first token are those of the text. -/
theorem Line.mem_of_mem_firstToken? {t token : Text} (h : firstToken? t = some token) {c : Char}
    (hc : c ∈ token) : c ∈ t := by
  obtain ⟨s, hs, rfl⟩ := Option.map_eq_some_iff.mp h
  rw [Statement.ofText?] at hs
  cases htrim : Text.trim t with
  | nil =>
    rw [htrim] at hs
    cases hs
  | cons d rest =>
    rw [htrim] at hs
    obtain rfl := Option.some.inj hs
    have hword : c ∈ (d :: rest).takeWhile fun c => !Text.isBlank c := hc
    exact Text.mem_of_mem_trim (htrim ▸ (List.takeWhile_prefix _).subset hword)

/-- The characters of a label are those of the line that carries it. -/
theorem Layout.Carries.mem_of_mem {lines : List Text} {name : Text} {i : Nat}
    (h : Carries lines name i) {c : Char} (hc : c ∈ name) : ∃ raw ∈ lines, c ∈ raw := by
  obtain ⟨raw, hraw, -, htoken⟩ := h
  have hline : c ∈ Text.trim raw :=
    Line.mem_of_mem_firstToken? htoken (List.mem_append_left [':'] hc)
  exact ⟨raw, List.mem_of_getElem? hraw, Text.mem_of_mem_trim hline⟩

/-- The symbols are labels of the source, if the table was empty. -/
theorem Survey.Task.carries_of_mem_names {t : Task} (hempty : t.symbols = .empty) {name : Text}
    (h : name ∈ t.result.symbols.names) : ∃ i, Layout.Carries t.lines name i := by
  rw [symbols_result, names_reach (Nat.le_refl _), List.mem_eraseDups, hempty] at h
  refine Layout.mem_labels_iff.mp ?_
  rcases List.mem_append.mp h with h | h
  · cases h
  · rw [List.take_of_length_le (by simp [Reading.ofLines])] at h
    exact h

/-- The characters of the symbols are those of the source, if the table was empty. -/
theorem Survey.Task.mem_of_mem_name {t : Task} (hempty : t.symbols = .empty) {name : Text}
    (h : name ∈ t.result.symbols.names) {c : Char} (hc : c ∈ name) : ∃ raw ∈ t.lines, c ∈ raw := by
  obtain ⟨i, hcarries⟩ := carries_of_mem_names hempty h
  exact hcarries.mem_of_mem hc

/-! ## Characters of the outputs -/

/-- A character that an output can show: one of the source, or one of the numerals and of what stands
between and behind them. -/
def Line.Shown (lines : List Text) (c : Char) : Prop :=
  (∃ raw ∈ lines, c ∈ raw) ∨ Numeral.isOctalDigit c = true ∨ c = ' ' ∨ c = '\n'

namespace Line.Shown

variable {lines : List Text}

theorem of_mem_octal {value : Int} : ∀ c ∈ Numeral.octal value, Shown lines c :=
  fun _ hc => .inr (.inl (Numeral.isOctalDigit_of_mem_octal hc))

theorem space : Shown lines ' ' := .inr (.inr (.inl rfl))

theorem feed : Shown lines '\n' := .inr (.inr (.inr rfl))

theorem of_mem_loadText (w : Word) : ∀ c ∈ w.loadText, Shown lines c :=
  List.forall_mem_append.mpr ⟨of_mem_octal, List.forall_mem_cons.mpr ⟨space, of_mem_octal⟩⟩

theorem of_mem_endLines {ended : List Text} (h : ∀ text ∈ ended, ∀ c ∈ text, Shown lines c) :
    ∀ c ∈ endLines ended, Shown lines c := by
  intro c hc
  obtain ⟨text, htext, hc⟩ := List.mem_flatMap.mp hc
  rcases List.mem_append.mp hc with hc | hc
  · exact h text htext c hc
  · obtain rfl := List.mem_singleton.mp hc
    exact feed

/-- What is shown beside the source is ASCII, so it is in every character set. -/
theorem has {charset : Charset} (h : ∀ raw ∈ lines, ∀ c ∈ raw, charset.has c = true) {c : Char}
    (hc : Shown lines c) : charset.has c = true := by
  obtain ⟨raw, hraw, hc⟩ | hdigit | rfl | rfl := hc
  · exact h raw hraw c hc
  · simp only [Numeral.isOctalDigit, Bool.and_eq_true, decide_eq_true_eq] at hdigit
    exact Charset.has_of_ascii (Nat.lt_of_le_of_lt hdigit.2 (by decide)) charset
  · exact Charset.has_of_ascii (by decide) charset
  · exact Charset.has_of_ascii (by decide) charset

theorem ne_return (h : ∀ raw ∈ lines, '\r' ∉ raw) {c : Char} (hc : Shown lines c) : c ≠ '\r' := by
  rintro rfl
  obtain ⟨raw, hraw, hc⟩ | hdigit | hspace | hfeed := hc
  · exact h raw hraw hc
  · exact absurd hdigit (by decide)
  · exact absurd hspace (by decide)
  · exact absurd hfeed (by decide)

end Line.Shown

namespace Generation.Task

variable {t : Task}

/-- **The listing shows the source and numerals**. -/
theorem shown_of_mem_listing {text : Text} (h : text ∈ t.result.output.listing) :
    ∀ c ∈ text, Line.Shown t.lines c := by
  rw [output_result, listing_reach (Nat.le_refl _)] at h
  obtain ⟨⟨raw, i⟩, hmem, hline⟩ := List.mem_filterMap.mp h
  have hraw : raw ∈ t.lines := List.mem_of_getElem? (Line.mem_before.mp hmem).2
  exact forall_mem_listingLine? (fun c hc => .inl ⟨raw, hraw, hc⟩)
    (fun _ => Line.Shown.of_mem_octal) .space hline

/-- **The load file shows numerals**. -/
theorem shown_of_mem_load {text : Text} (h : text ∈ t.result.output.load) :
    ∀ c ∈ text, Line.Shown t.lines c := by
  rw [output_result, load_reach (Nat.le_refl _)] at h
  obtain ⟨⟨raw, i⟩, -, hline⟩ := List.mem_filterMap.mp h
  obtain ⟨w, -, rfl⟩ := Option.map_eq_some_iff.mp hline
  exact Line.Shown.of_mem_loadText w

end Generation.Task

/-! ## Results that can be written -/

/-- All results of the run are texts of the character set. -/
structure Run.Encodable (charset : Charset) (run : Run) : Prop where
  /-- the lines of the listing -/
  listing : ∀ text ∈ run.output.listing, ∀ c ∈ text, charset.has c = true
  /-- the lines of the load file -/
  load : ∀ text ∈ run.output.load, ∀ c ∈ text, charset.has c = true
  /-- the symbols -/
  names : ∀ name ∈ run.symbols.names, ∀ c ∈ name, charset.has c = true

namespace LegibleSource

variable {encoding : Text} {store : Store} {path : Text} (source : LegibleSource encoding store path)

/-- The lines have only characters of the character set that they were decoded from. -/
theorem has_of_mem_line {raw : Text} (h : raw ∈ Text.fileLines source.text) :
    ∀ c ∈ raw, source.charset.has c = true := by
  intro c hc
  have hdecoded : c ∈ (source.charset.decode source.bytes).1 := by
    rw [source.decoded]
    exact Text.mem_of_mem_lines h c hc
  exact Charset.has_of_decode hdecoded

/-- **What was read can be written**. -/
theorem encodable : source.run.Encodable source.charset where
  listing text htext c hc :=
    (Generation.Task.shown_of_mem_listing htext c hc).has fun _ => source.has_of_mem_line
  load text htext c hc :=
    (Generation.Task.shown_of_mem_load htext c hc).has fun _ => source.has_of_mem_line
  names name hname c hc := by
    obtain ⟨raw, hraw, hc⟩ := Survey.Task.mem_of_mem_name rfl hname hc
    exact source.has_of_mem_line hraw c hc

/-- No text of the run has a carriage return in it, since no line of a file has. -/
theorem not_mem_return_of_shown {t : Text}
    (h : ∀ c ∈ t, Line.Shown (Text.fileLines source.text) c) : '\r' ∉ t := by
  intro hreturn
  refine Line.Shown.ne_return ?_ (h '\r' hreturn) rfl
  intro raw hraw hc
  exact absurd (Text.not_isBreak_of_mem_lines hraw '\r' hc) (by decide)

theorem return_not_mem_listingText : '\r' ∉ source.run.output.listingText :=
  source.not_mem_return_of_shown
    (Line.Shown.of_mem_endLines fun _ => Generation.Task.shown_of_mem_listing)

theorem return_not_mem_loadText : '\r' ∉ source.run.output.loadText :=
  source.not_mem_return_of_shown
    (Line.Shown.of_mem_endLines fun _ => Generation.Task.shown_of_mem_load)

end LegibleSource

end TwoPass
