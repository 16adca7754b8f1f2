import TwoPass.Proofs.Gist
import TwoPass.Proofs.Independence
import TwoPass.Proofs.Listing

/-!
# The load file read back

Addresses and words are integers of any size and sign, and a numeral shows them modulo `2 ^ 32`. Three
facts make a numeral readable on its own.

* Zeros in front count for nothing, so reading a numeral gives the residue (`Numeral.readOctal?_octal`).
* Two numbers have one numeral exactly if they have one residue (`Numeral.octal_eq_octal_iff`).
* The digits of a number other than zero do not start with a zero (`Numeral.head?_toDigits`), so a
  numeral is filled up to six digits or has its own (`Numeral.Printed`).

A numeral has neither a space nor a line break, so a load file falls apart into the numerals it was made
of, line by line and in order. Whatever a session has done, its load text is that of its words: each
request leaves a run that comes from both passes (`Run.Assembled`), and so does each history of requests.
-/

namespace TwoPass

/-! ## Numerals -/

namespace Numeral

/-- The number that a text of octal digits denotes. -/
def readOctal? (t : Text) : Option Int :=
  if isOctal t then some (Nat.ofDigitChars 8 t 0) else none

theorem residue_nonneg (value : Int) : 0 ≤ value % wordRange := Int.emod_nonneg value (by decide)

theorem residue_lt (value : Int) : (value % wordRange).toNat < wordRange := by
  have hlt := Int.emod_lt_of_pos value (show (0 : Int) < wordRange by decide)
  have hnonneg := residue_nonneg value
  omega

/-- **A numeral is read as the residue of its number**. -/
@[simp] theorem readOctal?_octal (value : Int) :
    readOctal? (octal value) = some (value % wordRange) := by
  rw [readOctal?, if_pos (isOctal_octal value), octal, padLeft, Nat.ofDigitChars_append,
    Nat.ofDigitChars_replicate_zero, Nat.mul_zero, Nat.ofDigitChars_toDigits (by decide) (by decide),
    Int.toNat_of_nonneg (residue_nonneg value)]

/-- **Numbers are written alike exactly if they have one residue**. -/
theorem octal_eq_octal_iff {m n : Int} : octal m = octal n ↔ m % wordRange = n % wordRange := by
  constructor
  · intro h
    have hread := congrArg readOctal? h
    simpa using hread
  · exact octal_congr

/-- The digits of a number that is not zero do not start with a zero. -/
theorem head?_toDigits {n : Nat} (h : 0 < n) : (Nat.toDigits 8 n).head? ≠ some '0' := by
  induction n using Nat.strongRecOn with
  | ind n ih =>
    rw [Nat.toDigits_eq_if (by decide)]
    split
    · next hlt =>
      have hall : ∀ m, m < 8 → 0 < m → [m.digitChar].head? ≠ some '0' := by decide
      exact hall n hlt h
    · -- the first digit is that of the quotient
      have hfront := ih (n / 8) (by omega) (by omega)
      obtain ⟨c, rest, hdigits⟩ := List.exists_cons_of_ne_nil (Nat.toDigits_ne_nil (n := n / 8) (b := 8))
      rw [hdigits] at hfront ⊢
      exact hfront

/-- The form of a numeral: six to eleven octal digits, with a zero in front only if there are six. -/
structure Printed (t : Text) : Prop where
  /-- the characters are octal digits -/
  octal : isOctal t = true
  /-- there are at least six -/
  least : 6 ≤ t.length
  /-- there are at most eleven -/
  greatest : t.length ≤ 11
  /-- a zero in front fills up the six -/
  filled : t.head? = some '0' → t.length = 6

theorem printed_octal (value : Int) : Printed (octal value) := by
  have hlength : (octal value).length =
      max 6 (Nat.toDigits 8 (value % wordRange).toNat).length := length_padLeft ..
  have hdigits : (Nat.toDigits 8 (value % wordRange).toNat).length ≤ 11 :=
    (Nat.length_toDigits_le_iff (by decide) (by decide)).mpr
      (Nat.lt_trans (residue_lt value) (by decide))
  refine ⟨isOctal_octal value, by omega, by omega, ?_⟩
  intro hzero
  rw [hlength]
  rcases Nat.lt_or_ge (Nat.toDigits 8 (value % wordRange).toNat).length 6 with hshort | hlong
  · omega
  · -- nothing is filled up, so the digits are those of zero, and there are not six of them
    exfalso
    rw [octal, padLeft, Nat.sub_eq_zero_of_le hlong, List.replicate_zero, List.nil_append] at hzero
    rcases Nat.eq_zero_or_pos (value % wordRange).toNat with hnone | hpos
    · rw [hnone] at hlong
      exact absurd hlong (by decide)
    · exact head?_toDigits hpos hzero

end Numeral

/-! ## Lines of two fields -/

namespace Text

/-- A field and a numeral behind one space are told apart. -/
theorem splitOn_field_octal {field : Text} (h : ' ' ∉ field) (value : Int) :
    splitOn ' ' (field ++ ' ' :: Numeral.octal value) = [field, Numeral.octal value] := by
  rw [splitOn_append_cons h, splitOn_of_not_mem (Numeral.space_not_mem_octal value)]

/-- Lines without breaks are told apart again, whichever characters are taken for breaks. -/
theorem lines_endLines_of_not_isLineBreak {isBreak : Char → Bool} (hfeed : isBreak '\n' = true)
    (hreturn : isBreak '\r' = true) (hbreak : ∀ c, isBreak c = true → isLineBreak c = true)
    {ended : List Text} (h : ∀ line ∈ ended, ∀ c ∈ line, isLineBreak c = false) :
    lines isBreak (endLines ended) = ended := by
  refine lines_endLines hfeed hreturn ?_
  intro line hline c hc
  exact Bool.eq_false_iff.mpr (mt (hbreak c) (Bool.eq_false_iff.mp (h line hline c hc)))

end Text

namespace LoadFile

/-- The load file of words. -/
def text (words : List Word) : Text := endLines (words.map Word.loadText)

/-- Read a line: two octal numerals and a single space between them. -/
def readLine? (line : Text) : Option (Int × Int) :=
  match Text.splitOn ' ' line with
  | [address, value] =>
    (Numeral.readOctal? address).bind fun address =>
      (Numeral.readOctal? value).map fun value => (address, value)
  | _ => none

theorem splitOn_loadText (w : Word) :
    Text.splitOn ' ' w.loadText = [Numeral.octal w.address, Numeral.octal w.value] :=
  Text.splitOn_field_octal (Numeral.space_not_mem_octal w.address) w.value

/-- The line of a word is read as the residues of its address and its value. -/
theorem readLine?_loadText (w : Word) :
    readLine? w.loadText = some (w.address % Numeral.wordRange, w.value % Numeral.wordRange) := by
  rw [readLine?, splitOn_loadText]
  simp

theorem not_isLineBreak_of_mem_loadText (w : Word) :
    ∀ c ∈ w.loadText, Text.isLineBreak c = false := by
  refine List.forall_mem_append.mpr ⟨?_, List.forall_mem_cons.mpr ⟨rfl, ?_⟩⟩
  · exact fun c hc => Numeral.not_isLineBreak_of_mem_octal hc
  · exact fun c hc => Numeral.not_isLineBreak_of_mem_octal hc

/-- The load file has one line for each word, whichever characters are taken for line breaks. -/
theorem lines_text {isBreak : Char → Bool} (hfeed : isBreak '\n' = true)
    (hreturn : isBreak '\r' = true)
    (hbreak : ∀ c, isBreak c = true → Text.isLineBreak c = true) (words : List Word) :
    Text.lines isBreak (text words) = words.map Word.loadText := by
  refine Text.lines_endLines_of_not_isLineBreak hfeed hreturn hbreak ?_
  intro line hline
  obtain ⟨w, -, rfl⟩ := List.mem_map.mp hline
  exact not_isLineBreak_of_mem_loadText w

end LoadFile

/-! ## Runs that a session can have -/

/-- A run that comes from both passes: the symbols are bound by a first pass over some lines, and the
output is that of a second pass, or empty if none was begun. -/
structure Run.Assembled (run : Run) : Prop where
  /-- the first pass -/
  symbols : ∃ file lines, run.symbols = (Survey.walk file 1 lines (.start .empty)).symbols
  /-- the second pass -/
  output : run.output = .empty ∨ ∃ task : Generation.Task, run.output = task.result.output

namespace Run.Assembled

theorem empty : Run.empty.Assembled := ⟨⟨.input, [], rfl⟩, .inl rfl⟩

theorem ofSymbols (file : SourceName) (lines : List Text) :
    (Run.ofSymbols (Survey.walk file 1 lines (.start .empty)).symbols).Assembled :=
  ⟨⟨file, lines, rfl⟩, .inl rfl⟩

theorem load {run : Run} (h : run.Assembled) :
    run.output.load = run.output.words.map Word.loadText := by
  obtain hempty | ⟨task, htask⟩ := h.output
  · rw [hempty]
    rfl
  · rw [htask, Generation.Task.load_result]

end Run.Assembled

theorem assembled_assembleText (source : Text) (file : SourceName) :
    (assembleText source file).1.Assembled :=
  ⟨⟨file, Text.textLines source, rfl⟩, .inr ⟨(Assembly.ofText source file).second, rfl⟩⟩

/-- Wherever the assembly of a file stops, the run comes from as much of both passes as was done. -/
theorem assembled_assembleFile (encoding : Text) (store : Store) (path : Text)
    (listing load : Option Text) : (assembleFile encoding store path listing load).run.Assembled := by
  simp only [assembleFile]
  rcases openSource encoding store (Path.normalize path) with failure | ⟨charset, bytes⟩
  · exact .empty
  · simp only [assembleOpened]
    rcases (charset.readLines store.block bytes).fault with _ | fault
    · rcases openOutputs (Path.normalize path) store listing load with ⟨opened, failure | outputs⟩
      · exact .ofSymbols ..
      · exact ⟨⟨.named (Path.normalize path), (charset.readLines store.block bytes).lines, rfl⟩,
          .inr ⟨⟨_, _, .empty, outputs.listing.isSome, outputs.load.isSome, _⟩, rfl⟩⟩
    · exact .ofSymbols ..

namespace Session

/-- One request. -/
theorem assembled_attempt {s : Session} (h : s.run.Assembled) (request : Request) :
    (s.attempt request).run.Assembled := by
  cases request with
  | assembleText source file => exact assembled_assembleText source file
  | assembleFile path listing load => exact assembled_assembleFile ..
  | writeListing path =>
    rw [attempt, run_write]
    exact h
  | writeLoad path =>
    rw [attempt, run_write]
    exact h
  | writeSymbols path =>
    rw [attempt, run_write]
    exact h

/-- **Every run of a session comes from both passes**, whatever was requested. -/
theorem assembled_performAll {s : Session} (h : s.run.Assembled) (history : List Request) :
    (s.performAll history).run.Assembled := by
  induction history generalizing s with
  | nil => exact h
  | cons request rest ih => exact ih (assembled_attempt h request)

end Session

/-! ## Reading the load file -/

/-- **The load file is read back**. For words of any address and value, the load file cut into lines, by
the breaks of a text or of a file, and each line cut at its single space, gives the residues modulo
`2 ^ 32` of address and value, in order. Every field has the form of a numeral, and numbers are written
alike exactly if they have one residue. After every second pass, and in every session after any requests,
the load text is the load file of the words. -/
theorem LoadFile.read_back (words : List Word) :
    let residues := words.map fun w : Word =>
      some (w.address % Numeral.wordRange, w.value % Numeral.wordRange)
    (Text.textLines (text words)).map readLine? = residues ∧
    (Text.fileLines (text words)).map readLine? = residues ∧
    (∀ line ∈ Text.textLines (text words), ∃ address value,
      Text.splitOn ' ' line = [address, value] ∧ Numeral.Printed address ∧ Numeral.Printed value) ∧
    (∀ m n : Int, Numeral.octal m = Numeral.octal n ↔
      m % Numeral.wordRange = n % Numeral.wordRange) ∧
    (∀ task : Generation.Task, task.result.output.loadText = text task.result.output.words) ∧
    ∀ (encoding : Text) (store : Store) (history : List Request),
      let run := ((Session.fresh encoding store).performAll history).run
      run.output.loadText = text run.output.words := by
  have htextLines : Text.textLines (text words) = words.map Word.loadText :=
    lines_text rfl rfl (fun _ h => h) words
  have hfileLines : Text.fileLines (text words) = words.map Word.loadText :=
    lines_text rfl rfl (fun _ => Text.isLineBreak_of_isFileBreak) words
  have hread : (words.map Word.loadText).map readLine? =
      words.map fun w : Word => some (w.address % Numeral.wordRange, w.value % Numeral.wordRange) := by
    rw [List.map_map]
    exact List.map_congr_left fun w _ => readLine?_loadText w
  rw [htextLines, hfileLines]
  refine ⟨hread, hread, ?_, fun m n => Numeral.octal_eq_octal_iff, ?_, ?_⟩
  · intro line hline
    obtain ⟨w, -, rfl⟩ := List.mem_map.mp hline
    exact ⟨_, _, splitOn_loadText w, Numeral.printed_octal _, Numeral.printed_octal _⟩
  · intro task
    exact congrArg endLines task.load_result
  · intro encoding store history
    exact congrArg endLines (Session.assembled_performAll .empty history).load

/-- A word of eleven digits at a negative address, and a value beyond the residues. -/
theorem LoadFile.read_back_beyond :
    let words : List Word := [⟨-1, -8, [], 1⟩, ⟨8, 17592186044417, [], 2⟩]
    (Text.textLines (text words)).map readLine? = [some (4294967295, 4294967288), some (8, 1)] ∧
      ∃ address value, Text.splitOn ' ' "37777777777 37777777770".toList = [address, value] ∧
        Numeral.Printed address ∧ Numeral.Printed value := by
  intro words
  obtain ⟨hread, -, hfields, -⟩ := read_back words
  have hline : "37777777777 37777777770".toList ∈ Text.textLines (text words) := by decide
  exact ⟨hread, hfields _ hline⟩

end TwoPass
