import TwoPass.Proofs.Loading
import TwoPass.Proofs.Outputs

/-!
# The symbol file read back

A symbol file has two lines of heading and then a line for each symbol, with its name, a space and its
address in octal. It can be read line by line because of what a name is. The first pass takes names from
the first tokens of lines, so a name may be empty, a numeral or start like a comment, but it never has a
blank in it (`Run.Assembled.not_isBlank_of_mem_name`), and all line breaks are blanks.

* The names come in strict order: sorting puts them in order, and no name is bound twice
  (`SymbolTable.pairwise_precedes_sorted`).
* What is read is the table, with the addresses modulo `2 ^ 32` (`SymbolFile.mem_residues_iff`).
* The file can be written exactly if it can be opened and all names are texts of the character set
  (`writeTexts_eq_ok_iff`), and then it holds what was written (`writeTexts_of_canOpen`).
-/

namespace TwoPass

/-! ## Names in order -/

namespace Text

/-- The first text comes before the second one: where they part it has the smaller code point, or it ends
there. -/
def Precedes (s t : Text) : Prop := List.Lex (fun c d => c.toNat < d.toNat) s t

theorem precedes_of_le {s t : Text} (h : le s t = true) (hne : s ≠ t) : Precedes s t := by
  induction s generalizing t with
  | nil =>
    cases t with
    | nil => exact absurd rfl hne
    | cons b bs => exact .nil
  | cons a as ih =>
    cases t with
    | nil => cases h
    | cons b bs =>
      by_cases hab : a = b
      · subst hab
        simp only [le, if_true] at h
        exact .cons (ih h fun heq => hne (congrArg (a :: ·) heq))
      · simp only [le, hab, if_false, decide_eq_true_eq] at h
        exact .rel h

/-- A line break is a blank. -/
theorem isBlank_of_isLineBreak {c : Char} (h : isLineBreak c = true) : isBlank c = true := by
  simp only [isLineBreak, lineBreakRanges, isBlank, blankRanges, inRanges, List.any_cons, List.any_nil,
    Bool.or_false, Bool.or_eq_true, Bool.and_eq_true, decide_eq_true_eq] at h ⊢
  omega

theorem not_isLineBreak_of_not_isBlank {c : Char} (h : isBlank c = false) : isLineBreak c = false :=
  Bool.eq_false_iff.mpr (mt isBlank_of_isLineBreak (Bool.eq_false_iff.mp h))

end Text

namespace SymbolTable

/-- The symbols as they are written, by name. -/
def sorted (s : SymbolTable) : List (Text × Int) := Text.sortBy Prod.fst s.entries

/-- **The names are written in strict order**. -/
theorem pairwise_precedes_sorted (s : SymbolTable) :
    (s.sorted.map Prod.fst).Pairwise Text.Precedes := by
  have hordered : (s.sorted.map Prod.fst).Pairwise fun a b => Text.le a b = true :=
    List.pairwise_map.mpr (Text.pairwise_sortBy Prod.fst s.entries)
  have hdistinct : (s.sorted.map Prod.fst).Nodup :=
    ((Text.sortBy_perm Prod.fst s.entries).map Prod.fst).nodup_iff.mpr s.distinct
  exact (hordered.and hdistinct).imp fun h => Text.precedes_of_le h.1 h.2

theorem mem_sorted_iff {s : SymbolTable} {entry : Text × Int} : entry ∈ s.sorted ↔ entry ∈ s.entries :=
  (Text.sortBy_perm Prod.fst s.entries).mem_iff

theorem length_sorted (s : SymbolTable) : s.sorted.length = s.size :=
  (Text.sortBy_perm Prod.fst s.entries).length_eq

end SymbolTable

/-! ## Names without blanks -/

theorem Line.not_isBlank_of_mem_firstToken? {t token : Text} (h : firstToken? t = some token) :
    ∀ c ∈ token, Text.isBlank c = false := by
  intro c hc
  obtain ⟨s, hs, rfl⟩ := Option.map_eq_some_iff.mp h
  rw [Statement.ofText?] at hs
  cases htrim : Text.trim t with
  | nil =>
    rw [htrim] at hs
    cases hs
  | cons d rest =>
    rw [htrim] at hs
    obtain rfl := Option.some.inj hs
    simpa using List.mem_takeWhile_imp hc

/-- **No name has a blank in it**, since it is a token without its colon. -/
theorem Run.Assembled.not_isBlank_of_mem_name {run : Run} (h : run.Assembled) {name : Text}
    (hname : name ∈ run.symbols.names) : ∀ c ∈ name, Text.isBlank c = false := by
  obtain ⟨file, lines, hsymbols⟩ := h.symbols
  let task : Survey.Task := ⟨.empty, file, lines⟩
  rw [hsymbols] at hname
  obtain ⟨i, raw, -, -, htoken⟩ := task.carries_of_mem_names rfl hname
  exact fun c hc => Line.not_isBlank_of_mem_firstToken? htoken c (List.mem_append_left [':'] hc)

/-! ## Lines of the symbol file -/

namespace SymbolFile

/-- The lines of the heading. -/
def heading : List Text := ["# Symbol table".toList, "# Generated by c6461asm".toList]

/-- The line of a symbol. -/
def row (entry : Text × Int) : Text := entry.1 ++ ' ' :: Numeral.octal entry.2

/-- Read a line: a name and an octal numeral, with a single space between them. -/
def readLine? (line : Text) : Option (Text × Int) :=
  match Text.splitOn ' ' line with
  | [name, address] => (Numeral.readOctal? address).map fun address => (name, address)
  | _ => none

/-- The file is its lines, each ended by a line feed. -/
theorem flatten_symbolFile (symbols : SymbolTable) :
    (symbolFile symbols).flatten = endLines (heading ++ symbols.sorted.map row) := by
  have hlines : symbolFile symbols = (heading ++ symbols.sorted.map row).map (· ++ ['\n']) := by
    rw [List.map_append, List.map_map]
    rfl
  rw [hlines]
  rfl

/-- The symbols as they are read: by name, with the residues of their addresses. -/
def residues (symbols : SymbolTable) : List (Text × Int) :=
  symbols.sorted.map fun e => (e.1, e.2 % Numeral.wordRange)

/-- **What is read is the table**. -/
theorem mem_residues_iff {symbols : SymbolTable} {name : Text} {value : Int} :
    (name, value) ∈ residues symbols ↔
      ∃ address, symbols.resolve? name = some address ∧ value = address % Numeral.wordRange := by
  constructor
  · intro h
    obtain ⟨⟨_, address⟩, hentry, hpair⟩ := List.mem_map.mp h
    obtain ⟨rfl, rfl⟩ := Prod.mk.inj hpair
    exact ⟨address, SymbolTable.resolve?_eq_some_iff.mpr (SymbolTable.mem_sorted_iff.mp hentry), rfl⟩
  · rintro ⟨address, hbound, rfl⟩
    have hentry := SymbolTable.mem_sorted_iff.mpr (SymbolTable.resolve?_eq_some_iff.mp hbound)
    exact List.mem_map.mpr ⟨(name, address), hentry, rfl⟩

variable {symbols : SymbolTable}
  (hnames : ∀ name ∈ symbols.names, ∀ c ∈ name, Text.isBlank c = false)

include hnames

theorem not_isBlank_of_mem_sorted {entry : Text × Int} (h : entry ∈ symbols.sorted) :
    ∀ c ∈ entry.1, Text.isBlank c = false :=
  hnames entry.1 (List.mem_map_of_mem (SymbolTable.mem_sorted_iff.mp h))

/-- The lines have no breaks. -/
theorem not_isLineBreak_of_mem {line : Text} (h : line ∈ heading ++ symbols.sorted.map row) :
    ∀ c ∈ line, Text.isLineBreak c = false := by
  rcases List.mem_append.mp h with h | h
  · have hheading : heading.all (fun line => line.all fun c => !Text.isLineBreak c) = true := by decide
    have hline := List.all_eq_true.mp hheading line h
    exact fun c hc => by simpa using List.all_eq_true.mp hline c hc
  · obtain ⟨entry, hentry, rfl⟩ := List.mem_map.mp h
    refine List.forall_mem_append.mpr ⟨?_, List.forall_mem_cons.mpr ⟨rfl, ?_⟩⟩
    · intro c hc
      exact Text.not_isLineBreak_of_not_isBlank (not_isBlank_of_mem_sorted hnames hentry c hc)
    · exact fun c hc => Numeral.not_isLineBreak_of_mem_octal hc

/-- The file is cut into its lines again, whichever characters are taken for line breaks. -/
theorem lines_flatten_symbolFile {isBreak : Char → Bool} (hfeed : isBreak '\n' = true)
    (hreturn : isBreak '\r' = true) (hbreak : ∀ c, isBreak c = true → Text.isLineBreak c = true) :
    Text.lines isBreak (symbolFile symbols).flatten = heading ++ symbols.sorted.map row := by
  rw [flatten_symbolFile]
  exact Text.lines_endLines_of_not_isLineBreak hfeed hreturn hbreak
    fun _ => not_isLineBreak_of_mem hnames

theorem return_not_mem_flatten : '\r' ∉ (symbolFile symbols).flatten := by
  rw [flatten_symbolFile]
  intro h
  obtain ⟨line, hline, hc⟩ := List.mem_flatMap.mp h
  rcases List.mem_append.mp hc with hc | hc
  · exact absurd (not_isLineBreak_of_mem hnames hline '\r' hc) (by decide)
  · exact absurd (List.mem_singleton.mp hc) (by decide)

/-- **The lines are read as the symbols**, with the residues of their addresses. -/
theorem map_readLine?_rows : (symbols.sorted.map row).map readLine? = (residues symbols).map some := by
  rw [residues, List.map_map, List.map_map]
  refine List.map_congr_left ?_
  intro e he
  have hspace : ' ' ∉ e.1 := by
    intro h
    exact absurd (not_isBlank_of_mem_sorted hnames he ' ' h) (by decide)
  rw [Function.comp_apply, readLine?, row, Text.splitOn_field_octal hspace]
  simp only [Numeral.readOctal?_octal, Option.map_some, Function.comp_apply]

end SymbolFile

/-! ## Writing -/

namespace Charset

theorem lt_of_encodeBytes {charset : Text} {size : Nat} {t : Text} {bytes : Bytes}
    (h : encodeBytes charset size t = .ok bytes) : ∀ c ∈ t, c.toNat < size := by
  rw [encodeBytes] at h
  split at h
  · next hknown =>
    -- nothing is left behind the known characters, so they are all there is
    have hlength := List.drop_eq_nil_iff.mp hknown
    have hall :=
      (List.takeWhile_prefix (fun c : Char => decide (c.toNat < size))).eq_of_length_le hlength
    intro c hc
    rw [← hall] at hc
    have hlt := List.mem_takeWhile_imp hc
    simpa using hlt
  · cases h

theorem has_of_encode {charset : Charset} {t : Text} {bytes : Bytes} (h : charset.encode t = .ok bytes) :
    ∀ c ∈ t, charset.has c = true := by
  cases charset with
  | utf8 => exact fun _ _ => rfl
  | utf8Marked => exact fun _ _ => rfl
  | ascii => exact fun c hc => decide_eq_true (lt_of_encodeBytes h c hc)
  | latin1 => exact fun c hc => decide_eq_true (lt_of_encodeBytes h c hc)

/-- **Only texts of the character set are written**. -/
theorem has_of_encodeAll {charset : Charset} {texts : List Text}
    (h : (charset.encodeAll texts).2 = none) : ∀ t ∈ texts, ∀ c ∈ t, charset.has c = true := by
  induction texts with
  | nil => simp
  | cons t texts ih =>
    rw [encodeAll] at h
    cases hencode : charset.encode t with
    | error fault =>
      rw [hencode] at h
      cases h
    | ok bytes =>
      rw [hencode] at h
      exact List.forall_mem_cons.mpr ⟨has_of_encode hencode, ih h⟩

end Charset

/-- Texts of the character set are written to a file that can be opened, and it holds them. -/
theorem writeTexts_of_canOpen {encoding : Text} {charset : Charset} {store : Store} {path : Text}
    {names : List Text} {texts : List Text} (hnull : Store.null ∉ encoding)
    (hnamed : Charset.ofName? encoding = some charset) (hopens : store.Opens path names)
    (h : ∀ t ∈ texts, ∀ c ∈ t, charset.has c = true) :
    ∃ bytes, writeTexts encoding store path texts =
        ((store.write names []).write names bytes, .ok ()) ∧
      charset.decode bytes = (texts.flatten, none) := by
  obtain ⟨bytes, hbytes, hdecode⟩ := Charset.decode_encodeWrites h
  refine ⟨bytes, ?_, hdecode⟩
  simp [writeTexts, hnull, hopens.open_eq, hnamed, hbytes]

/-- **When texts are written**. -/
theorem writeTexts_eq_ok_iff {encoding : Text} {store : Store} {path : Text} {texts : List Text} :
    (writeTexts encoding store path texts).2 = .ok () ↔
      Store.null ∉ encoding ∧ store.CanOpen path ∧ ∃ charset, Charset.ofName? encoding = some charset ∧
        ∀ t ∈ texts, ∀ c ∈ t, charset.has c = true := by
  constructor
  · intro h
    by_cases hnull : Store.null ∈ encoding
    · simp [writeTexts, hnull] at h
    · rw [writeTexts, if_neg (by simpa using hnull)] at h
      cases hopen : store.openForWriting path with
      | error fault =>
        rw [hopen] at h
        cases h
      | ok opened =>
        rw [hopen] at h
        cases hnamed : Charset.ofName? encoding with
        | none =>
          rw [hnamed] at h
          cases h
        | some charset =>
          rw [hnamed] at h
          refine ⟨hnull, ⟨opened, hopen⟩, charset, rfl, Charset.has_of_encodeAll ?_⟩
          rcases hwrites : charset.encodeWrites texts with ⟨bytes, _ | fault⟩
          · exact congrArg Prod.snd hwrites
          · simp [hwrites] at h
  · rintro ⟨hnull, hopen, charset, hnamed, hhas⟩
    obtain ⟨names, hopens⟩ := Store.canOpen_iff.mp hopen
    obtain ⟨bytes, hwrite, -⟩ := writeTexts_of_canOpen hnull hnamed hopens hhas
    rw [hwrite]

/-- A symbol file has the characters of its names. -/
theorem Charset.has_of_mem_names {charset : Charset} {symbols : SymbolTable}
    (h : ∀ t ∈ symbolFile symbols, ∀ c ∈ t, charset.has c = true) :
    ∀ name ∈ symbols.names, ∀ c ∈ name, charset.has c = true := by
  intro name hname c hc
  obtain ⟨entry, hentry, rfl⟩ := List.mem_map.mp hname
  have htext : SymbolFile.row entry ++ ['\n'] ∈ symbolFile symbols :=
    List.mem_cons_of_mem _ (List.mem_cons_of_mem _
      (List.mem_map.mpr ⟨entry, SymbolTable.mem_sorted_iff.mpr hentry, rfl⟩))
  exact h _ htext c (List.mem_append_left _ (List.mem_append_left _ hc))

namespace Session

theorem outcome_writeSymbols_eq_ok_iff (s : Session) (path : Text) :
    (s.attempt (.writeSymbols path)).outcome = .ok none ↔
      Store.null ∉ s.encoding ∧ s.store.CanOpen path ∧
        ∃ charset, Charset.ofName? s.encoding = some charset ∧
          ∀ name ∈ s.run.symbols.names, ∀ c ∈ name, charset.has c = true := by
  have houtcome : (s.attempt (.writeSymbols path)).outcome = .ok none ↔
      (writeTexts s.encoding s.store path (symbolFile s.run.symbols)).2 = .ok () := by
    rw [attempt, write]
    rcases writeTexts s.encoding s.store path (symbolFile s.run.symbols) with ⟨after, failure | ⟨⟩⟩
    · simp
    · simp
  rw [houtcome, writeTexts_eq_ok_iff]
  refine and_congr_right fun _ => and_congr_right fun _ => exists_congr fun charset => ?_
  exact and_congr_right fun _ => ⟨Charset.has_of_mem_names, Charset.has_of_mem_symbolFile⟩

/-- **The symbol file is read back**. In a session after any assemblies and writes, no name has a blank
or a line break in it, and the symbol file can be written exactly if the encoding is a known one, the
path can be opened and the names are texts of the character set. Then the file at the path holds two
lines of heading and a line for each symbol. Each of these has a single space; cutting it there and
reading the second part in octal gives the names in strictly increasing order of code points, and with
them exactly the table, the addresses taken modulo `2 ^ 32`. -/
theorem symbols_read_back (encoding : Text) (store : Store) (history : List Request) (path : Text) :
    let s := (fresh encoding store).performAll history
    let attempt := s.attempt (.writeSymbols path)
    let symbols := s.run.symbols
    (∀ name ∈ symbols.names, ∀ c ∈ name, Text.isBlank c = false ∧ Text.isLineBreak c = false) ∧
    (attempt.outcome = .ok none ↔
      Store.null ∉ encoding ∧ s.store.CanOpen path ∧
        ∃ charset, Charset.ofName? encoding = some charset ∧
          ∀ name ∈ symbols.names, ∀ c ∈ name, charset.has c = true) ∧
    (attempt.outcome = .ok none →
      ∃ (charset : Charset) (text : Text) (rows : List Text) (entries : List (Text × Int)),
        Charset.ofName? encoding = some charset ∧ attempt.store.Holds charset path text ∧
        Text.fileLines text = SymbolFile.heading ++ rows ∧
        Text.textLines text = SymbolFile.heading ++ rows ∧
        rows.map SymbolFile.readLine? = entries.map some ∧
        (entries.map Prod.fst).Pairwise Text.Precedes ∧ entries.length = symbols.size ∧
        ∀ name value, (name, value) ∈ entries ↔
          ∃ address, symbols.resolve? name = some address ∧ value = address % Numeral.wordRange) := by
  intro s attempt symbols
  have hassembled : s.run.Assembled := assembled_performAll .empty history
  have hblank : ∀ name ∈ symbols.names, ∀ c ∈ name, Text.isBlank c = false :=
    fun _ => hassembled.not_isBlank_of_mem_name
  have hencoding : s.encoding = encoding := encoding_performAll _ history
  have hiff := outcome_writeSymbols_eq_ok_iff s path
  rw [hencoding] at hiff
  refine ⟨?_, hiff, ?_⟩
  · intro name hname c hc
    have hc := hblank name hname c hc
    exact ⟨hc, Text.not_isLineBreak_of_not_isBlank hc⟩
  · intro hdone
    obtain ⟨hnull, hopen, charset, hnamed, hhas⟩ := hiff.mp hdone
    obtain ⟨names, hopens⟩ := Store.canOpen_iff.mp hopen
    have hnull' : Store.null ∉ s.encoding := hencoding ▸ hnull
    have hnamed' : Charset.ofName? s.encoding = some charset := hencoding ▸ hnamed
    obtain ⟨bytes, hwrite, hdecode⟩ :=
      writeTexts_of_canOpen hnull' hnamed' hopens (Charset.has_of_mem_symbolFile hhas)
    have hstore : attempt.store = (s.store.write names []).write names bytes := by
      simp only [attempt, Session.attempt, write, hwrite]
    refine ⟨charset, (symbolFile symbols).flatten, symbols.sorted.map SymbolFile.row,
      SymbolFile.residues symbols, hnamed, ⟨⟨bytes, ?_, hdecode⟩, ?_⟩, ?_, ?_, ?_, ?_, ?_, ?_⟩
    · rw [hstore]
      exact ((hopens.leads.write _ _).write _ _).read (Store.file?_write_self ..)
    · exact Text.flatten_terminatedLines (SymbolFile.return_not_mem_flatten hblank)
    · exact SymbolFile.lines_flatten_symbolFile hblank rfl rfl fun _ => Text.isLineBreak_of_isFileBreak
    · exact SymbolFile.lines_flatten_symbolFile hblank rfl rfl fun _ h => h
    · exact SymbolFile.map_readLine?_rows hblank
    · rw [SymbolFile.residues, List.map_map]
      exact symbols.pairwise_precedes_sorted
    · rw [SymbolFile.residues, List.length_map, symbols.length_sorted]
    · exact fun name value => SymbolFile.mem_residues_iff

/-- A name beyond ASCII that is bound twice, one that starts like the heading, and the empty name, at
negative addresses. -/
theorem symbols_read_back_negative :
    let source := "é:\nLOC -2\n#:\nDATA é\n:\né:\n".toList
    let s := (fresh "latin-1".toList {}).performAll [.assembleText source .input]
    let attempt := s.attempt (.writeSymbols "x.sym".toList)
    attempt.outcome = .ok none ∧
      ∃ (text : Text) (rows : List Text) (entries : List (Text × Int)),
        attempt.store.Holds .latin1 "x.sym".toList text ∧
        Text.fileLines text = SymbolFile.heading ++ rows ∧
        rows.map SymbolFile.readLine? = entries.map some ∧ entries.length = 3 ∧
        (entries.map Prod.fst).Pairwise Text.Precedes ∧
        ("#".toList, 4294967294) ∈ entries ∧ ([], 4294967295) ∈ entries ∧
        ("é".toList, 4294967295) ∈ entries := by
  intro source s attempt
  obtain ⟨-, hiff, hread⟩ :=
    symbols_read_back "latin-1".toList {} [.assembleText source .input] "x.sym".toList
  have hall : (s.run.symbols.names.all fun name => name.all fun c => Charset.latin1.has c) = true := by
    decide
  have hhas : ∀ name ∈ s.run.symbols.names, ∀ c ∈ name, Charset.latin1.has c = true :=
    fun name hname => List.all_eq_true.mp (List.all_eq_true.mp hall name hname)
  have hdone : attempt.outcome = .ok none :=
    hiff.mpr ⟨by decide, ⟨_, rfl⟩, .latin1, by decide, hhas⟩
  obtain ⟨charset, text, rows, entries, hnamed, hholds, hlines, -, hrows, horder, hlength, htable⟩ :=
    hread hdone
  obtain rfl : charset = .latin1 := Option.some.inj (hnamed.symm.trans (by decide))
  exact ⟨hdone, text, rows, entries, hholds, hlines, hrows, hlength, horder,
    (htable _ _).mpr ⟨-2, by decide, by decide⟩, (htable _ _).mpr ⟨-1, by decide, by decide⟩,
    (htable _ _).mpr ⟨-1, by decide, by decide⟩⟩

end Session

end TwoPass
