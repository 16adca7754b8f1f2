import TwoPass.Proofs.Collision

/-!
# Splitting operand texts

An operand text is freed of its comment and trimmed, cut at its commas, freed of empty pieces at its end, and
only then are the pieces trimmed. What comes of this order is said here in two ways.

* **Splitting undoes writing.** Fields may be written with any blanks around them (`Operand.Written`), with
  commas between them and a comment behind. Splitting gives the fields back, empty ones included, as long as
  the last one is not empty (`Operand.fields_written`).
* **A field of blanks at the end counts.** Empty pieces are dropped while blanks still stand in others, so
  a piece of blanks stays and is empty afterwards. A comma behind a text adds an empty field exactly if it
  closes such a piece (`Operand.fields_concat_comma`), and a run of commas and blanks does so exactly if one
  of its commas does (`Operand.fields_append_trailer`). If none does, the run is lost on everyone who reads
  the operands (`Operand.trailing_separators`); `Operand.blank_field_counts` is a run that is not.
-/

namespace TwoPass

/-! ## Blanks around the fields -/

namespace Text

/-- Trimming the start stops at a character that is no blank. -/
theorem trimStart_append_cons (t : Text) {c : Char} (hc : isBlank c = false) (rest : Text) :
    trimStart (t ++ c :: rest) = trimStart t ++ c :: rest := by
  rw [trimStart, List.dropWhile_append]
  split
  · next hnil =>
    rw [trimStart, List.isEmpty_iff.mp hnil, List.nil_append]
    exact trimStart_of_not_isBlank rest hc
  · rfl

/-- So does trimming the end. -/
theorem trim_append_cons (t : Text) {c : Char} (hc : isBlank c = false) (rest : Text) :
    trim (t ++ c :: rest) = trimStart t ++ c :: trimEnd rest := by
  have hstop : trimEnd (trimStart t ++ [c]) = trimStart t ++ [c] :=
    List.rdropWhile_concat_neg _ _ c (by simp [hc])
  rw [trim, trimStart_append_cons t hc, List.append_cons, trimEnd_append, hstop]
  split
  · next hnil => rw [hnil]
  · exact List.append_cons .. |>.symm

@[simp] theorem trim_trimEnd (t : Text) : trim (trimEnd t) = trim t := by
  rw [← trimStart_trimEnd, ← trimStart_trimEnd]
  exact congrArg trimStart (List.rdropWhile_idempotent isBlank t)

/-- A text can be cut at the last occurrence of a character. -/
theorem exists_last_occurrence {t : Text} {c : Char} (h : c ∈ t) :
    ∃ before last, t = before ++ c :: last ∧ c ∉ last := by
  obtain ⟨last, before, heq, hlast⟩ := List.eq_append_cons_of_mem (List.mem_reverse.mpr h)
  refine ⟨before.reverse, last.reverse, ?_, by simpa using hlast⟩
  rw [← List.reverse_reverse t, heq]
  simp

/-- What is left after the start is trimmed is not all blanks. -/
theorem isGap_trimStart (t : Text) : isGap (trimStart t) = false := by
  cases hstart : trimStart t with
  | nil => rfl
  | cons c rest => simp [isGap, isBlanks, isBlank_of_trimStart_eq_cons hstart]

theorem splitOn_append_replicate (separator : Char) (t : Text) (n : Nat) :
    splitOn separator (t ++ List.replicate n separator) =
      splitOn separator t ++ List.replicate n [] := by
  induction n generalizing t with
  | zero => simp
  | succ n ih =>
    rw [List.replicate_succ, List.append_cons, ih, splitOn_concat, List.append_assoc]
    rfl

theorem join_append_replicate (separator : Char) {pieces : List Text} (h : pieces ≠ []) (n : Nat) :
    join [separator] (pieces ++ List.replicate n []) =
      join [separator] pieces ++ List.replicate n separator := by
  induction n generalizing pieces with
  | zero => simp
  | succ n ih =>
    rw [List.replicate_succ, List.append_cons, ih (by simp), join_append _ h (List.cons_ne_nil _ _),
      List.append_assoc]
    rfl

end Text

/-- A comment with its semicolon; there may be none. -/
def Line.commentText (comment : Option Text) : Text := (comment.map (';' :: ·)).getD []

namespace Operand

/-- An operand field as it is written, with blanks around it. -/
structure Written where
  /-- the blanks before the field -/
  left : Text
  /-- the field -/
  field : Text
  /-- the blanks behind the field -/
  right : Text
  /-- there are only blanks before the field -/
  isBlanks_left : Text.isBlanks left = true
  /-- there are only blanks behind the field -/
  isBlanks_right : Text.isBlanks right = true
  /-- the field has no comma -/
  comma : ',' ∉ field
  /-- the field has no semicolon -/
  semicolon : ';' ∉ field
  /-- the field does not start with a blank -/
  head : ∀ c, field.head? = some c → Text.isBlank c = false
  /-- the field does not end with a blank -/
  last : ∀ c, field.getLast? = some c → Text.isBlank c = false

namespace Written

variable (w : Written)

/-- The text of the field with its blanks. -/
def text : Text := w.left ++ (w.field ++ w.right)

theorem trim_text : Text.trim w.text = w.field := by
  rw [text, Text.trim_append_left w.isBlanks_left, Text.trim_append_right _ w.isBlanks_right]
  exact Text.trim_eq_self w.head w.last

/-- What is not in the field and is no blank is not in the text either. -/
theorem not_mem_text {c : Char} (hfield : c ∉ w.field) (hc : Text.isBlank c = false) : c ∉ w.text := by
  simp only [text, List.mem_append, not_or]
  exact ⟨Text.not_mem_of_isBlanks w.isBlanks_left hc, hfield,
    Text.not_mem_of_isBlanks w.isBlanks_right hc⟩

end Written

/-- A comment makes no difference to the fields. -/
theorem fields_append_comment (t : Text) (comment : Option Text) :
    fields (t ++ Line.commentText comment) = fields t := by
  have hcomment : (Line.commentText comment).head?.all (· == ';') = true := by
    cases comment with
    | none => rfl
    | some comment => rfl
  have hblanks : Text.isBlanks [] = true := rfl
  simp only [fields, ← Line.stripComment_append t hblanks hcomment, List.nil_append]

/-- **Splitting undoes writing**. Let fields without commas and semicolons, none of which starts or ends
with a blank, be written with blanks around them, commas between them and perhaps a comment behind. If the
last one is not empty, splitting the text gives exactly these fields. -/
theorem fields_written {written : List Written} {last : Written} (hlast : written.getLast? = some last)
    (hne : last.field ≠ []) (comment : Option Text) :
    fields (Text.join [','] (written.map Written.text) ++ Line.commentText comment) =
      written.map Written.field := by
  have htrim : (written.map Written.text).map Text.trim = written.map Written.field := by
    rw [List.map_map]
    exact List.map_congr_left fun w _ => w.trim_text
  have hfree {c : Char} (hc : Text.isBlank c = false) (hfield : ∀ w : Written, c ∉ w.field) :
      ∀ t ∈ written.map Written.text, c ∉ t := by
    intro t ht
    obtain ⟨w, -, rfl⟩ := List.mem_map.mp ht
    exact w.not_mem_text (hfield w) hc
  have hend : ((written.map Written.text).map Text.trim).getLast? = some last.field := by
    rw [htrim, List.getLast?_map, hlast]
    rfl
  rw [fields_append_comment, fields_join_eq_map_trim (hfree (by decide) Written.comma)
    (hfree (by decide) Written.semicolon) hend hne, htrim]

/-- Empty fields at the start and in the middle, blanks within a field and around it, and a comment with
commas. -/
theorem fields_written_sparse :
    let first : Written := ⟨[' '], [], ['\t'], rfl, rfl, by simp, by simp, by simp, by simp⟩
    let inner : Written := ⟨[], [], [], rfl, rfl, by simp, by simp, by simp, by simp⟩
    let last : Written := ⟨[], "a b".toList, "  ".toList, rfl, rfl, by decide, by decide,
      by rintro _ ⟨⟩; decide, by rintro _ ⟨⟩; decide⟩
    let text := Text.join [','] ([first, inner, last].map Written.text) ++
      Line.commentText (some ", 1,".toList)
    ([first, inner, last].getLast? = some last ∧ last.field ≠ []) ∧
      text = " \t,,a b  ;, 1,".toList ∧ fields text = [[], [], "a b".toList] := by
  intro first inner last text
  have hlast : [first, inner, last].getLast? = some last := rfl
  have hne : last.field ≠ [] := by decide
  exact ⟨⟨hlast, hne⟩, rfl, fields_written hlast hne _⟩

/-! ## Commas and blanks at the end -/

/-- A field of blanks is open at the end of the text: it ends in a comma and at least one blank. -/
def OpensBlank (t : Text) : Prop := ∃ before gap, t = before ++ ',' :: gap ∧ Text.isGap gap = true

/-- Some comma of the run closes a field of blanks, where the run stands behind the text. -/
def ClosesBlank (t run : Text) : Prop :=
  ∃ before behind, run = before ++ ',' :: behind ∧ OpensBlank (t ++ before)

/-- Is the text made of commas and blanks? -/
def isTrailer (run : Text) : Bool := run.all fun c => c == ',' || Text.isBlank c

theorem opensBlank_append_cons {before last : Text} (h : ',' ∉ last) :
    OpensBlank (before ++ ',' :: last) ↔ Text.isGap last = true := by
  constructor
  · rintro ⟨before', gap, heq, hgap⟩
    have hfree : ',' ∉ gap := Text.not_mem_of_isBlanks (Text.isBlanks_of_isGap hgap) (by decide)
    -- both are what stands behind the last comma
    have hpieces := congrArg (Text.splitOn ',') heq
    rw [Text.splitOn_append_separator, Text.splitOn_append_separator, Text.splitOn_of_not_mem h,
      Text.splitOn_of_not_mem hfree] at hpieces
    obtain rfl : last = gap := by simpa using List.append_inj_right' hpieces rfl
    exact hgap
  · intro hgap
    exact ⟨before, last, rfl, hgap⟩

theorem OpensBlank.mem {t : Text} (h : OpensBlank t) : ',' ∈ t := by
  obtain ⟨before, gap, rfl, -⟩ := h
  simp

theorem not_closesBlank_nil (t : Text) : ¬ ClosesBlank t [] := by
  rintro ⟨before, behind, heq, -⟩
  simp at heq

/-- The commas of a run one by one. -/
theorem closesBlank_cons {t run : Text} {c : Char} :
    ClosesBlank t (c :: run) ↔ (c = ',' ∧ OpensBlank t) ∨ ClosesBlank (t ++ [c]) run := by
  constructor
  · rintro ⟨before, behind, heq, hopens⟩
    cases before with
    | nil =>
      obtain ⟨rfl, -⟩ := List.cons.inj heq
      exact .inl ⟨rfl, by simpa using hopens⟩
    | cons d before =>
      obtain ⟨rfl, rfl⟩ := List.cons.inj heq
      exact .inr ⟨before, behind, rfl, by simpa using hopens⟩
  · rintro (⟨rfl, hopens⟩ | ⟨before, behind, rfl, hopens⟩)
    · exact ⟨[], run, rfl, by simpa using hopens⟩
    · exact ⟨c :: before, behind, rfl, by simpa using hopens⟩

/-! ### Dropping empty pieces -/

theorem dropEmptyEnd_append_replicate (pieces : List Text) (n : Nat) :
    dropEmptyEnd (pieces ++ List.replicate n []) = dropEmptyEnd pieces := by
  rw [dropEmptyEnd, List.reverse_append, List.reverse_replicate,
    List.dropWhile_append_of_pos (by simp)]
  rfl

theorem dropEmptyEnd_concat {pieces : List Text} {last : Text} (h : last ≠ []) :
    dropEmptyEnd (pieces ++ [last]) = pieces ++ [last] :=
  dropEmptyEnd_of_getLast? List.getLast?_concat h

/-- All empty pieces at the end are dropped. -/
theorem ne_nil_of_getLast?_dropEmptyEnd {pieces : List Text} {last : Text}
    (h : (dropEmptyEnd pieces).getLast? = some last) : last ≠ [] := by
  have hne : dropEmptyEnd pieces ≠ [] := by
    intro hnil
    rw [hnil] at h
    cases h
  obtain rfl : (dropEmptyEnd pieces).getLast hne = last :=
    Option.some.inj ((List.getLast?_eq_some_getLast hne).symm.trans h)
  intro hnil
  exact List.rdropWhile_last_not List.isEmpty pieces hne (List.isEmpty_iff.mpr hnil)

/-- Only empty pieces are dropped. -/
theorem exists_eq_dropEmptyEnd_append (pieces : List Text) :
    ∃ n, pieces = dropEmptyEnd pieces ++ List.replicate n [] := by
  refine ⟨(pieces.rtakeWhile List.isEmpty).length, ?_⟩
  have hempty : pieces.rtakeWhile List.isEmpty = List.replicate (pieces.rtakeWhile List.isEmpty).length [] :=
    List.eq_replicate_of_mem fun piece hpiece => List.isEmpty_iff.mp (List.mem_rtakeWhile_imp hpiece)
  rw [← hempty]
  exact List.rdropWhile_append_rtakeWhile.symm

theorem fields_eq (t : Text) :
    fields t = (dropEmptyEnd (Text.splitOn ',' (Line.stripComment t))).map Text.trim := by
  rw [fields]
  split
  · next hempty =>
    rw [List.isEmpty_iff.mp hempty]
    rfl
  · rfl

/-- **Blanks in the last piece** keep it from being dropped if they are all it has. Otherwise they make no
difference. -/
theorem map_trim_dropEmptyEnd (pieces : List Text) (last : Text) :
    ∃ n, (dropEmptyEnd (pieces ++ [last])).map Text.trim =
        (dropEmptyEnd (pieces ++ [Text.trimEnd last])).map Text.trim ++ List.replicate n [] ∧
      (n = 0 ↔ ¬ Text.isGap last = true) := by
  by_cases hblanks : Text.isBlanks last = true
  · have hdropped : dropEmptyEnd (pieces ++ [Text.trimEnd last]) = dropEmptyEnd pieces := by
      rw [Text.trimEnd_eq_nil_iff.mpr hblanks]
      exact dropEmptyEnd_append_replicate pieces 1
    rw [hdropped]
    cases last with
    | nil =>
      refine ⟨0, ?_, by simp [Text.isGap]⟩
      rw [List.replicate_zero, List.append_nil]
      exact congrArg _ (dropEmptyEnd_append_replicate pieces 1)
    | cons c last =>
      obtain ⟨n, hn⟩ := exists_eq_dropEmptyEnd_append pieces
      refine ⟨n + 1, ?_, by simpa [Text.isGap] using hblanks⟩
      have hpieces : pieces.map Text.trim =
          (dropEmptyEnd pieces).map Text.trim ++ List.replicate n [] := by
        have hempty : List.replicate n [] = (List.replicate n []).map Text.trim := by
          rw [List.map_replicate, Text.trim_nil]
        rw [hempty, ← List.map_append, ← hn]
      rw [dropEmptyEnd_concat (List.cons_ne_nil c last), List.map_append, hpieces, List.append_assoc,
        List.map_singleton, Text.trim_eq_nil_iff.mpr hblanks, List.replicate_succ']
  · have hkept : Text.trimEnd last ≠ [] := mt Text.trimEnd_eq_nil_iff.mp hblanks
    have hlast : last ≠ [] := by
      rintro rfl
      exact hblanks rfl
    refine ⟨0, ?_, iff_of_true rfl (mt Text.isBlanks_of_isGap hblanks)⟩
    rw [dropEmptyEnd_concat hlast, dropEmptyEnd_concat hkept, List.replicate_zero, List.append_nil,
      List.map_append, List.map_append, List.map_singleton, List.map_singleton, Text.trim_trimEnd]

/-- **A comma behind a text** adds an empty field, or several, if it closes a field of blanks, and else
none. -/
theorem fields_concat_comma {t : Text} (ht : ';' ∉ t) :
    ∃ n, fields (t ++ [',']) = fields t ++ List.replicate n [] ∧ (n = 0 ↔ ¬ OpensBlank t) := by
  have hpieces : fields (t ++ [',']) =
      (dropEmptyEnd (Text.splitOn ',' (Text.trimStart t))).map Text.trim := by
    rw [fields_eq, Line.stripComment_of_not_mem (by simp [ht]), Text.trim_append_cons t (by decide),
      Text.trimEnd_nil, Text.splitOn_concat]
    exact congrArg _ (dropEmptyEnd_append_replicate _ 1)
  rw [hpieces, fields_eq, Line.stripComment_of_not_mem ht]
  by_cases hcomma : ',' ∈ t
  · obtain ⟨before, last, rfl, hlast⟩ := Text.exists_last_occurrence hcomma
    have hend : ',' ∉ Text.trimEnd last := fun hmem => hlast ((Text.trimEnd_isPrefix _).subset hmem)
    rw [Text.trimStart_append_cons _ (by decide), Text.trim_append_cons _ (by decide),
      Text.splitOn_append_separator, Text.splitOn_append_separator, Text.splitOn_of_not_mem hlast,
      Text.splitOn_of_not_mem hend, opensBlank_append_cons hlast]
    exact map_trim_dropEmptyEnd _ _
  · have hstart : ',' ∉ Text.trimStart t := fun hmem =>
      hcomma ((Text.trimStart_isSuffix t).subset hmem)
    have hend : ',' ∉ Text.trim t := fun hmem => hcomma (Text.mem_of_mem_trim hmem)
    obtain ⟨n, hn, hzero⟩ := map_trim_dropEmptyEnd [] (Text.trimStart t)
    refine ⟨n, ?_, ?_⟩
    · rw [Text.splitOn_of_not_mem hstart, Text.splitOn_of_not_mem hend]
      exact hn
    · rw [hzero, Text.isGap_trimStart]
      exact iff_of_true Bool.false_ne_true (mt OpensBlank.mem hcomma)

/-- **A run of commas and blanks behind a text** adds nothing but empty fields, and adds none exactly if no
comma of the run closes a field of blanks. -/
theorem fields_append_trailer {t run : Text} (ht : ';' ∉ t) (hrun : isTrailer run = true) :
    ∃ n, fields (t ++ run) = fields t ++ List.replicate n [] ∧ (n = 0 ↔ ¬ ClosesBlank t run) := by
  -- the run is taken in one character after the other, each as part of the text before the next
  induction run generalizing t with
  | nil => exact ⟨0, by simp, iff_of_true rfl (not_closesBlank_nil t)⟩
  | cons c run ih =>
    obtain ⟨hc, hrun⟩ := Bool.and_eq_true_iff.mp hrun
    have hstep : ∃ n, fields (t ++ [c]) = fields t ++ List.replicate n [] ∧
        (n = 0 ↔ ¬ (c = ',' ∧ OpensBlank t)) := by
      rcases Bool.or_eq_true_iff.mp hc with hc | hc
      · obtain rfl := beq_iff_eq.mp hc
        simpa using fields_concat_comma ht
      · refine ⟨0, ?_, iff_of_true rfl ?_⟩
        · rw [← fields_trim, Text.trim_append_right t (by simpa [Text.isBlanks] using hc), fields_trim,
            List.replicate_zero, List.append_nil]
        · rintro ⟨rfl, -⟩
          exact absurd hc (by decide)
    have ht' : ';' ∉ t ++ [c] := by
      intro hmem
      rcases List.mem_append.mp hmem with hmem | hmem
      · exact ht hmem
      · obtain rfl := List.mem_singleton.mp hmem
        exact absurd hc (by decide)
    obtain ⟨n, hn, hzero⟩ := hstep
    obtain ⟨n', hn', hzero'⟩ := ih ht' hrun
    refine ⟨n + n', ?_, ?_⟩
    · rw [List.append_cons, hn', hn, List.append_assoc, List.replicate_append_replicate]
    · rw [closesBlank_cons, not_or, ← hzero, ← hzero', Nat.add_eq_zero_iff]

/-- **When the last field is empty**: behind a field of blanks there are commas only. -/
theorem getLast?_fields_eq_nil_iff {operands : Text} :
    (fields operands).getLast? = some [] ↔
      ∃ before n, Line.stripComment operands = before ++ List.replicate n ',' ∧ OpensBlank before := by
  rw [fields_eq, List.getLast?_map, Option.map_eq_some_iff]
  constructor
  · rintro ⟨gap, hgap, hblanks⟩
    obtain ⟨front, hfront⟩ := List.getLast?_eq_some_iff.mp hgap
    obtain ⟨n, hpieces⟩ := exists_eq_dropEmptyEnd_append (Text.splitOn ',' (Line.stripComment operands))
    have hsome : Text.isGap gap = true := by
      simp [Text.isGap, Text.trim_eq_nil_iff.mp hblanks, ne_nil_of_getLast?_dropEmptyEnd hgap]
    have htext := Text.join_splitOn ',' (Line.stripComment operands)
    rw [hpieces, hfront, Text.join_append_replicate ',' (by simp)] at htext
    refine ⟨_, n, htext.symm, ?_⟩
    cases front with
    | nil =>
      -- the text is trimmed, so it cannot start with the blanks
      obtain ⟨c, gap, rfl⟩ := List.exists_cons_of_ne_nil (ne_nil_of_getLast?_dropEmptyEnd hgap)
      have hc := Text.isBlank_of_isBlanks (Text.isBlanks_of_isGap hsome) c List.mem_cons_self
      rw [Text.isBlank_of_trim_eq_cons htext.symm] at hc
      cases hc
    | cons piece front =>
      rw [Text.join_append _ (List.cons_ne_nil _ _) (List.cons_ne_nil _ _)]
      exact ⟨_, gap, rfl, hsome⟩
  · rintro ⟨before, n, htext, front, gap, rfl, hgap⟩
    have hblanks := Text.isBlanks_of_isGap hgap
    have hne : gap ≠ [] := by
      rintro rfl
      cases hgap
    refine ⟨gap, ?_, Text.trim_eq_nil_iff.mpr hblanks⟩
    rw [htext, Text.splitOn_append_replicate, dropEmptyEnd_append_replicate,
      Text.splitOn_append_separator,
      Text.splitOn_of_not_mem (Text.not_mem_of_isBlanks hblanks (by decide)), dropEmptyEnd_concat hne,
      List.getLast?_concat]

open Mnemonic (encodeToken ldr)

/-- **What trailing commas and blanks do**. The fields of an operand text end in an empty one exactly if
the text before the comment, when trimmed, ends in a field of blanks and then commas. A run of commas and
blanks behind the text, before its comment, adds empty fields only, and adds none exactly if none of its
commas closes a field of blanks. In that case the run makes no difference to the word or the fault of any
instruction. Otherwise a load from memory with its three operands gets the indirect bit. -/
theorem trailing_separators (operands : Text) :
    ((fields operands).getLast? = some [] ↔
      ∃ before n, Line.stripComment operands = before ++ List.replicate n ',' ∧ OpensBlank before) ∧
    ∀ t run comment, operands = t ++ Line.commentText comment → ';' ∉ t → isTrailer run = true →
      let extended := t ++ run ++ Line.commentText comment
      (∃ n, fields extended = fields operands ++ List.replicate n [] ∧
        (n = 0 ↔ ¬ ClosesBlank t run)) ∧
      (¬ ClosesBlank t run → ∀ token, encodeToken token extended = encodeToken token operands) ∧
      (ClosesBlank t run → ∀ token r x address, token.map Char.toUpper = ldr.name →
        Reads operands [r, x, address] →
        ∃ word, encodeToken token operands = .ok word ∧
          encodeToken token extended = .ok (Int.lor word 0x400)) := by
  refine ⟨getLast?_fields_eq_nil_iff, ?_⟩
  rintro t run comment rfl ht hrun extended
  obtain ⟨n, hfields, hzero⟩ := fields_append_trailer ht hrun
  have hextended : fields extended = fields (t ++ Line.commentText comment) ++ List.replicate n [] := by
    rw [fields_append_comment, fields_append_comment, hfields]
  refine ⟨⟨n, hextended, hzero⟩, ?_, ?_⟩
  · intro hopen token
    rw [hzero.mpr hopen, List.replicate_zero, List.append_nil] at hextended
    simp only [encodeToken, Mnemonic.encode, hextended]
  · intro hcloses token r x address hname hreads
    have hmore : ReadsMore extended [r, x, address] := by
      refine hreads.readsMore hextended fun hnil => ?_
      exact hzero.mp (by simpa using hnil) hcloses
    rw [Mnemonic.encodeToken_of_map_toUpper hname]
    exact ⟨_, Mnemonic.encode_eq_formula hreads, Mnemonic.encode_ldr_of_readsMore rfl hmore⟩

/-- Commas and blanks that make no difference, and a comma that closes a field of blanks. -/
theorem trailing_separators_closing :
    let t := "1,0,3 ".toList
    let harmless := " ,, ".toList
    let closing := ", ,".toList
    let note := some " note".toList
    (';' ∉ t ∧ isTrailer harmless = true ∧ ¬ ClosesBlank t harmless ∧ isTrailer closing = true ∧
      ClosesBlank t closing ∧ Reads (t ++ Line.commentText note) [1, 0, 3]) ∧
    (∀ token, encodeToken token (t ++ harmless ++ Line.commentText note) =
      encodeToken token (t ++ Line.commentText note)) ∧
    ∃ word, encodeToken "LDR".toList (t ++ Line.commentText note) = .ok word ∧
      encodeToken "LDR".toList (t ++ closing ++ Line.commentText note) = .ok (Int.lor word 0x400) := by
  intro t harmless closing note
  have ht : ';' ∉ t := by decide
  have hreads : Reads (t ++ Line.commentText note) [1, 0, 3] := by decide
  have hcloses : ClosesBlank t closing := ⟨", ".toList, [], rfl, t, [' '], rfl, rfl⟩
  obtain ⟨-, happend⟩ := trailing_separators (t ++ Line.commentText note)
  obtain ⟨⟨n, hfields, hzero⟩, hsame, -⟩ := happend t harmless note rfl ht (by decide)
  obtain ⟨-, -, hindirect⟩ := happend t closing note rfl ht (by decide)
  have hopen : ¬ ClosesBlank t harmless := by
    have hequal : fields (t ++ harmless ++ Line.commentText note) =
        fields (t ++ Line.commentText note) := by decide
    rw [hequal, List.self_eq_append_right] at hfields
    exact hzero.mp (by simpa using hfields)
  exact ⟨⟨ht, by decide, hopen, by decide, hcloses, hreads⟩, hsame hopen,
    hindirect hcloses "LDR".toList 1 0 3 (by decide) hreads⟩

/-- **A field of blanks counts**. The fields of the first text end in an empty one, and a blank between two
commas at the end of an operand text turns a direct load into an indirect one. -/
theorem blank_field_counts :
    fields "1, ,".toList = ["1".toList, []] ∧ isTrailer ", ,".toList = true ∧
      encodeToken "LDR".toList "1,0,3".toList = .ok 0x2003 ∧
      encodeToken "LDR".toList ("1,0,3".toList ++ ", ,".toList) = .ok 0x2403 := by
  decide

end Operand

end TwoPass
