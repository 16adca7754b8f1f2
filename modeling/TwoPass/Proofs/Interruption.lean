import Mathlib.Data.List.Infix
import TwoPass.Proofs.Codec
import TwoPass.Proofs.Lines

/-!
# What is read before a fault

A file that is no text in its character set can still have delivered lines, since it is decoded block by
block. What a block shows stays so: a fault that does not await the end of the data is found with the
bytes that are there, and no more of them can mend it (`Charset.decode_append`). So the blocks of a text
show no fault, and those of a file that is none do, at the latest at its end.

All lines that were delivered come from before the fault: the characters that were decoded are the text of
bytes at the start of the file, which are intact (`Charset.exists_intact`), and the lines had been ended by
then (`Text.isPrefix_deliveredLines`). `Charset.Delivers` says both, and `Charset.readLines_cases` is all
that reading a file line by line can come to, whatever the size of a block.
-/

namespace TwoPass

/-! ## Bytes before a fault -/

/-- The characters before a fault are what the bytes before the broken character decode to. Inside a
character there must be a text behind it, or else the character itself may be the broken one. -/
theorem Utf8.exists_intact {position : Nat} {pending : Option Pending} {bytes : Bytes}
    (h : pending = none ∨ (decodeFrom position pending bytes).1 ≠ []) :
    ∃ good, good <+: bytes ∧
      decodeFrom position pending good = ((decodeFrom position pending bytes).1, none) := by
  fun_induction decodeFrom position pending bytes with
  | case1 position => exact ⟨[], List.prefix_rfl, by rw [decodeFrom]⟩
  | case2 position p => simp at h
  | case3 position b rest hb text fault hrest ih =>
    obtain ⟨good, hgood, hdecode⟩ := ih (.inl rfl)
    refine ⟨b :: good, List.cons_prefix_cons.mpr ⟨rfl, hgood⟩, ?_⟩
    rw [decodeFrom, if_pos hb, hdecode, hrest]
  | case4 position b rest hb hlead => exact ⟨[], List.nil_prefix, by rw [decodeFrom]⟩
  | case5 position b rest hb p hlead ih =>
    by_cases htext : (decodeFrom (position + 1) (some p) rest).1 = []
    · -- the character that starts here is the broken one
      exact ⟨[], List.nil_prefix, by rw [decodeFrom, htext]⟩
    · obtain ⟨good, hgood, hdecode⟩ := ih (.inr htext)
      refine ⟨b :: good, List.cons_prefix_cons.mpr ⟨rfl, hgood⟩, ?_⟩
      rw [decodeFrom, if_neg hb, hlead]
      exact hdecode
  | case6 position p b rest hb value howed text fault hrest ih =>
    obtain ⟨good, hgood, hdecode⟩ := ih (.inl rfl)
    refine ⟨b :: good, List.cons_prefix_cons.mpr ⟨rfl, hgood⟩, ?_⟩
    rw [decodeFrom, if_pos hb, if_pos howed, hdecode, hrest]
  | case7 position p b rest hb value howed ih =>
    obtain ⟨good, hgood, hdecode⟩ := ih (.inr (h.resolve_left (Option.some_ne_none p)))
    refine ⟨b :: good, List.cons_prefix_cons.mpr ⟨rfl, hgood⟩, ?_⟩
    rw [decodeFrom, if_pos hb, if_neg howed]
    exact hdecode
  | case8 position p b rest hb hsurrogate => simp at h
  | case9 position p b rest hb hsurrogate => simp at h

/-- A fault that does not await the end stays whatever follows. -/
theorem Utf8.decodeFrom_append {position : Nat} {pending : Option Pending} {bytes : Bytes} {fault : Fault}
    (h : (decodeFrom position pending bytes).2 = some fault) (hfinal : fault.cause.awaitsEnd = false)
    (more : Bytes) :
    decodeFrom position pending (bytes ++ more) = decodeFrom position pending bytes := by
  fun_induction decodeFrom position pending bytes with
  | case1 position => cases h
  | case2 position p =>
    obtain rfl := Option.some.inj h
    cases hfinal
  | case3 position b rest hb text fault' hrest ih =>
    rw [List.cons_append, decodeFrom, if_pos hb, ih (by rw [hrest]; exact h), hrest]
  | case4 position b rest hb hlead => rw [List.cons_append, decodeFrom, if_neg hb, hlead]
  | case5 position b rest hb p hlead ih =>
    rw [List.cons_append, decodeFrom, if_neg hb, hlead]
    exact ih h
  | case6 position p b rest hb value howed text fault' hrest ih =>
    rw [List.cons_append, decodeFrom, if_pos hb, if_pos howed, ih (by rw [hrest]; exact h), hrest]
  | case7 position p b rest hb value howed ih =>
    rw [List.cons_append, decodeFrom, if_pos hb, if_neg howed]
    exact ih h
  | case8 position p b rest hb hsurrogate =>
    obtain rfl := Option.some.inj h
    cases hfinal
  | case9 position p b rest hb hsurrogate =>
    -- with bytes behind it, the two bytes of a surrogate are broken even so
    have hbroken : ¬ ((rest ++ more).isEmpty && p.isSurrogate b) = true := by
      intro hboth
      obtain ⟨hempty, hisSurrogate⟩ := Bool.and_eq_true_iff.mp hboth
      obtain ⟨rfl, -⟩ := List.append_eq_nil_iff.mp (List.isEmpty_iff.mp hempty)
      exact hsurrogate (by simpa using hisSurrogate)
    rw [List.cons_append, decodeFrom, if_neg hb, if_neg hbroken]

namespace Charset

theorem exists_intact_utf8 (bytes : Bytes) :
    ∃ good, good <+: bytes ∧ decodeUtf8 good = ((decodeUtf8 bytes).1, none) := by
  obtain ⟨good, hgood, hdecode⟩ : ∃ good, good <+: bytes ∧
      Utf8.decodeFrom 0 none good = ((Utf8.decodeFrom 0 none bytes).1, none) :=
    Utf8.exists_intact (.inl rfl)
  refine ⟨good, hgood, ?_⟩
  rw [decodeUtf8, Utf8.decode, hdecode]
  rfl

theorem exists_intact_ascii (position : Nat) (bytes : Bytes) :
    ∃ good, good <+: bytes ∧ decodeAscii position good = ((decodeAscii position bytes).1, none) := by
  fun_induction decodeAscii position bytes with
  | case1 => exact ⟨[], List.prefix_rfl, rfl⟩
  | case2 position b rest hb text fault hrest ih =>
    obtain ⟨good, hgood, hdecode⟩ := ih
    refine ⟨b :: good, List.cons_prefix_cons.mpr ⟨rfl, hgood⟩, ?_⟩
    rw [decodeAscii, if_pos hb, hdecode, hrest]
  | case3 position b rest hb => exact ⟨[], List.nil_prefix, rfl⟩

/-- A text that does not start with the mark does not start with a part of it either. -/
theorem decodeUtf8_unmark {bytes : Bytes} (hmark : ¬ mark <+: bytes)
    (hdecode : (decodeUtf8 bytes).2 = none) : decodeUtf8 (unmark bytes) = decodeUtf8 bytes := by
  rw [unmark, if_neg (mt List.isPrefixOf_iff_prefix.mp hmark)]
  split
  · next hpart =>
    have hparts : ∀ part ∈ mark.inits, ¬ mark <+: part → (decodeUtf8 part).2 = none →
        decodeUtf8 [] = decodeUtf8 part := by decide
    exact hparts bytes ((List.mem_inits _ _).mpr (List.isPrefixOf_iff_prefix.mp hpart)) hmark hdecode
  · rfl

/-- **What is decoded before a fault is the text of intact bytes**. -/
theorem exists_intact (charset : Charset) (bytes : Bytes) :
    ∃ good, good <+: bytes ∧ charset.decode good = ((charset.decode bytes).1, none) := by
  cases charset with
  | utf8 => exact exists_intact_utf8 bytes
  | ascii => exact exists_intact_ascii 0 bytes
  | latin1 => exact ⟨bytes, List.prefix_rfl, rfl⟩
  | utf8Marked =>
    simp only [decode]
    rw [unmark.eq_def bytes]
    split
    · next hmark =>
      -- the mark is put back in front
      obtain ⟨rest, rfl⟩ := List.isPrefixOf_iff_prefix.mp hmark
      obtain ⟨good, hgood, hdecode⟩ := exists_intact_utf8 rest
      refine ⟨mark ++ good, (List.prefix_append_right_inj mark).mpr hgood, ?_⟩
      rw [unmark_mark, List.drop_left]
      exact hdecode
    · next hmark =>
      split
      · exact ⟨[], List.nil_prefix, rfl⟩
      · obtain ⟨good, hgood, hdecode⟩ := exists_intact_utf8 bytes
        have hgoodMark : ¬ mark <+: good :=
          fun h => hmark (List.isPrefixOf_iff_prefix.mpr (h.trans hgood))
        refine ⟨good, hgood, ?_⟩
        rw [decodeUtf8_unmark hgoodMark (congrArg Prod.snd hdecode)]
        exact hdecode

theorem decodeUtf8_append {bytes : Bytes} {fault : DecodeFault} (h : (decodeUtf8 bytes).2 = some fault)
    (hfinal : fault.awaitsEnd = false) (more : Bytes) :
    decodeUtf8 (bytes ++ more) = decodeUtf8 bytes := by
  obtain ⟨found, hfound, rfl⟩ := Option.map_eq_some_iff.mp h
  rw [decodeUtf8, decodeUtf8, Utf8.decode, Utf8.decode, Utf8.decodeFrom_append hfound hfinal]

theorem decodeAscii_append {position : Nat} {bytes : Bytes}
    (h : (decodeAscii position bytes).2 ≠ none) (more : Bytes) :
    decodeAscii position (bytes ++ more) = decodeAscii position bytes := by
  fun_induction decodeAscii position bytes with
  | case1 => exact absurd rfl h
  | case2 position b rest hb text fault hrest ih =>
    rw [List.cons_append, decodeAscii, if_pos hb, ih (by rw [hrest]; exact h), hrest]
  | case3 position b rest hb => rw [List.cons_append, decodeAscii, if_neg hb]

/-- **A fault that does not await the end is final**: whatever follows, it stays, and so does the text
before it. -/
theorem decode_append {charset : Charset} {bytes : Bytes} {fault : DecodeFault}
    (h : (charset.decode bytes).2 = some fault) (hfinal : fault.awaitsEnd = false) (more : Bytes) :
    charset.decode (bytes ++ more) = charset.decode bytes := by
  cases charset with
  | utf8 => exact decodeUtf8_append h hfinal more
  | ascii => exact decodeAscii_append (Option.ne_none_iff_exists'.mpr ⟨fault, h⟩) more
  | latin1 => cases h
  | utf8Marked =>
    simp only [decode] at h ⊢
    by_cases hmark : mark <+: bytes
    · obtain ⟨rest, rfl⟩ := hmark
      rw [unmark_mark] at h
      rw [List.append_assoc, unmark_mark, unmark_mark, decodeUtf8_append h hfinal]
    by_cases hpart : bytes <+: mark
    · -- a part of the mark has no text, so it has no fault
      rw [unmark, if_neg (mt List.isPrefixOf_iff_prefix.mp hmark),
        if_pos (List.isPrefixOf_iff_prefix.mpr hpart)] at h
      cases h
    · have hself : unmark bytes = bytes := by
        rw [unmark, if_neg (mt List.isPrefixOf_iff_prefix.mp hmark),
          if_neg (mt List.isPrefixOf_iff_prefix.mp hpart)]
      have hmore : unmark (bytes ++ more) = bytes ++ more := by
        have hstart := List.prefix_append bytes more
        rw [unmark, if_neg, if_neg]
        · exact fun hprefix => hpart (hstart.trans (List.isPrefixOf_iff_prefix.mp hprefix))
        · intro hprefix
          rcases List.prefix_or_prefix_of_prefix (List.isPrefixOf_iff_prefix.mp hprefix) hstart with
            hmark' | hpart'
          · exact hmark hmark'
          · exact hpart hpart'
      rw [hself] at h ⊢
      rw [hmore, decodeUtf8_append h hfinal]

end Charset

/-! ## Lines before a fault -/

namespace Text

/-- A carriage return behind a text ends no line of it differently. -/
theorem isPrefix_cut_return (isBreak : Char → Bool) (t : Text) :
    (cut isBreak t).1 <+: (cut isBreak (t ++ ['\r'])).1 := by
  -- it is no line feed, so it does not join a carriage return before it
  have hapart : ∀ {c : Char} {rest : Text},
      (∀ rest' : Text, c = '\r' → rest = '\n' :: rest' → False) →
      ∀ rest' : Text, c = '\r' → rest ++ ['\r'] = '\n' :: rest' → False := by
    rintro c (_ | ⟨d, rest⟩) hpair rest' hc heq
    · cases heq
    · obtain ⟨rfl, -⟩ := List.cons.inj heq
      exact hpair rest hc rfl
  fun_induction cut isBreak t with
  | case1 => exact List.nil_prefix
  | case2 rest lines last hcut ih =>
    rw [hcut] at ih
    exact List.cons_prefix_cons.mpr ⟨rfl, ih⟩
  | case3 c rest hpair lines last hcut hbreak ih =>
    rw [hcut] at ih
    rw [List.cons_append, cut]
    · simpa [hbreak] using ih
    · exact hapart hpair
  | case4 c rest hpair last hbreak hcut ih => exact List.nil_prefix
  | case5 c rest hpair last hbreak line lines hcut ih =>
    rw [hcut] at ih
    rcases hrest : cut isBreak (rest ++ ['\r']) with ⟨lines', last'⟩
    rw [hrest] at ih
    obtain ⟨more, rfl⟩ := ih
    rw [List.cons_append, cut, hrest]
    · simp [hbreak]
    · exact hapart hpair

/-- The lines that are delivered before a failure have been ended. -/
theorem isPrefix_deliveredLines (t : Text) : deliveredLines t <+: (cut isFileBreak t).1 := by
  rw [deliveredLines]
  split
  · next hlast =>
    have hcut := isPrefix_cut_return isFileBreak t.dropLast
    rwa [List.dropLast_append_getLast? _ hlast] at hcut
  · exact List.prefix_rfl

end Text

namespace Charset

/-- Lines that a file can have delivered before reading it fails: they are among the lines that a break
has ended in a text to which bytes at the start of the file decode. -/
def Delivers (charset : Charset) (bytes : Bytes) (lines : List Text) : Prop :=
  ∃ good text, good <+: bytes ∧ charset.decode good = (text, none) ∧
    lines <+: (Text.cut Text.isFileBreak text).1

/-- No block of a text shows a fault: at most a character is not complete. -/
theorem filter_decode_take {charset : Charset} {bytes : Bytes} (h : (charset.decode bytes).2 = none)
    (seen : Nat) :
    ((charset.decode (bytes.take seen)).2.filter fun fault => !fault.awaitsEnd) = none := by
  rw [Option.filter_eq_none_iff]
  intro fault hfault hfinal
  have hsame := decode_append hfault (by simpa using hfinal) (bytes.drop seen)
  rw [List.take_append_drop] at hsame
  rw [← hsame, h] at hfault
  cases hfault

theorem delivers_stop {charset : Charset} {bytes seen : Bytes} (h : seen <+: bytes)
    (fault : DecodeFault) : charset.Delivers bytes (charset.stop seen fault).lines := by
  obtain ⟨good, hgood, hintact⟩ := charset.exists_intact seen
  exact ⟨good, _, hgood.trans h, hintact, Text.isPrefix_deliveredLines _⟩

/-- A text is read to its end, whatever blocks are still to come. -/
theorem readOn_of_decode {charset : Charset} {bytes : Bytes} {text : Text}
    (h : charset.decode bytes = (text, none)) (seen : Nat) (ends : List Nat) :
    charset.readOn bytes seen ends = ⟨Text.fileLines text, none⟩ := by
  induction ends generalizing seen with
  | nil => simp only [readOn, h]
  | cons next ends ih =>
    rw [readOn, filter_decode_take (congrArg Prod.snd h)]
    exact ih next

/-- A file that is no text stops the reading in some block or at its end, with lines from before. -/
theorem readOn_of_fault {charset : Charset} {bytes : Bytes} (h : (charset.decode bytes).2 ≠ none)
    (seen : Nat) (ends : List Nat) :
    ∃ fault, (charset.readOn bytes seen ends).fault = some fault ∧
      charset.Delivers bytes (charset.readOn bytes seen ends).lines := by
  induction ends generalizing seen with
  | nil =>
    rcases hdecode : charset.decode bytes with ⟨text, _ | fault⟩
    · exact absurd (congrArg Prod.snd hdecode) h
    · simp only [readOn, hdecode]
      exact ⟨_, rfl, delivers_stop List.prefix_rfl fault⟩
  | cons next ends ih =>
    rw [readOn]
    cases (charset.decode (bytes.take next)).2.filter fun fault => !fault.awaitsEnd with
    | none => exact ih next
    | some fault => exact ⟨_, rfl, delivers_stop (List.take_prefix seen bytes) fault⟩

theorem readLines_of_decode {charset : Charset} {bytes : Bytes} {text : Text}
    (h : charset.decode bytes = (text, none)) (block : Nat) :
    charset.readLines block bytes = ⟨Text.fileLines text, none⟩ :=
  readOn_of_decode h 0 _

/-- **What reading a file line by line comes to**: all lines of its text, or a fault and only lines that
were ended before it. -/
theorem readLines_cases (charset : Charset) (block : Nat) (bytes : Bytes) :
    (∃ text, charset.decode bytes = (text, none) ∧
      charset.readLines block bytes = ⟨Text.fileLines text, none⟩) ∨
    ∃ fault, (charset.decode bytes).2 ≠ none ∧ (charset.readLines block bytes).fault = some fault ∧
      charset.Delivers bytes (charset.readLines block bytes).lines := by
  rcases hdecode : charset.decode bytes with ⟨text, _ | fault⟩
  · exact .inl ⟨text, rfl, readLines_of_decode hdecode block⟩
  · have hfault : (charset.decode bytes).2 ≠ none := by
      rw [hdecode]
      exact Option.some_ne_none fault
    obtain ⟨told, htold, hdelivers⟩ := readOn_of_fault hfault 0 (blockEnds block bytes)
    exact .inr ⟨told, Option.some_ne_none fault, htold, hdelivers⟩

/-- The lines of a file have only characters of its character set, also if it cannot be read to its
end. -/
theorem has_of_mem_readLines {charset : Charset} {block : Nat} {bytes : Bytes} {raw : Text}
    (h : raw ∈ (charset.readLines block bytes).lines) : ∀ c ∈ raw, charset.has c = true := by
  intro c hc
  obtain ⟨text, hdecode, hread⟩ | ⟨fault, -, -, good, text, -, hdecode, hlines⟩ :=
    charset.readLines_cases block bytes
  · rw [hread] at h
    have hmem : c ∈ (charset.decode bytes).1 := hdecode ▸ Text.mem_of_mem_lines h c hc
    exact has_of_decode hmem
  · have hmem : c ∈ (charset.decode good).1 :=
      hdecode ▸ (Text.forall_mem_cut fun d hd _ => hd).1 raw (hlines.subset h) c hc
    exact has_of_decode hmem

end Charset

end TwoPass
