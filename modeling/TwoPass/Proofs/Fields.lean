import TwoPass.Proofs.Parts
import TwoPass.Proofs.Separators

/-!
# Operand fields, written and split

Splitting an operand text takes three steps, and none of them undoes writing the fields with commas
between them: trimming takes blanks from the first and the last piece only, which are trimmed later anyway
(`Text.map_trim_splitOn_trim`); dropping empty pieces at the end drops nothing if the last field has
something in it; and commas cut the text exactly between the fields (`Text.splitOn_join`). So the trimmed
pieces of a text are its fields (`Operand.fields_eq_map_trim`), and fields that are written are split
again (`Operand.fields_join`). What splitting gives can always be written (`Operand.isField_of_mem_fields`).
-/

namespace TwoPass

namespace Text

/-! ## Blanks around the pieces -/

theorem not_mem_of_isBlanks {blanks : Text} (h : isBlanks blanks = true) {c : Char}
    (hc : isBlank c = false) : c ∉ blanks := by
  intro hmem
  rw [isBlank_of_isBlanks h c hmem] at hc
  cases hc

/-- **Trimming a text trims its first and its last piece**, so it makes no difference to the trimmed
pieces. -/
theorem map_trim_splitOn_trim {separator : Char} (hseparator : isBlank separator = false) (t : Text) :
    (splitOn separator (trim t)).map trim = (splitOn separator t).map trim := by
  refine apply_trim (f := fun t => (splitOn separator t).map trim) ?_ ?_ t
  · intro blanks t hblanks
    obtain ⟨piece, pieces, hpieces, happend⟩ :=
      splitOn_append_left (not_mem_of_isBlanks hblanks hseparator) t
    simp only [hpieces, happend, List.map_cons, trim_append_left hblanks]
  · intro blanks t hblanks
    obtain ⟨pieces, piece, hpieces, happend⟩ :=
      splitOn_append_right (not_mem_of_isBlanks hblanks hseparator) t
    simp only [hpieces, happend, List.map_append, List.map_cons, List.map_nil,
      trim_append_right piece hblanks]

/-- A text that neither starts nor ends with a blank has nothing to trim. -/
theorem trim_eq_self {t : Text} (hhead : ∀ c, t.head? = some c → isBlank c = false)
    (hlast : ∀ c, t.getLast? = some c → isBlank c = false) : trim t = t := by
  have hstart : trimStart t = t := by
    cases t with
    | nil => rfl
    | cons c rest => exact trimStart_of_not_isBlank rest (hhead c rfl)
  rw [trim, hstart]
  refine List.rdropWhile_eq_self_iff.mpr fun hne => ?_
  rw [hlast _ (List.getLast?_eq_some_getLast hne)]
  exact Bool.false_ne_true

/-- A text without blanks has nothing to trim. -/
theorem trim_of_not_isBlank {t : Text} (h : ∀ c ∈ t, isBlank c = false) : trim t = t :=
  trim_eq_self (fun c hc => h c (List.mem_of_head? hc)) fun c hc => h c (List.mem_of_getLast? hc)

end Text

/-! ## Fields -/

/-- A text without a semicolon has no comment. -/
theorem Line.stripComment_of_not_mem {t : Text} (h : ';' ∉ t) : stripComment t = Text.trim t := by
  rw [stripComment, List.takeWhile_eq_self_iff.mpr]
  intro c hc
  simpa using fun heq : c = ';' => h (heq ▸ hc)

namespace Operand

/-- A text that can be a field: it has neither a comma nor a semicolon, and no blanks at its ends. -/
structure IsField (t : Text) : Prop where
  /-- no comma, which would end the field -/
  comma : ',' ∉ t
  /-- no semicolon, which would start a comment -/
  semicolon : ';' ∉ t
  /-- no blanks at the ends -/
  trimmed : Text.trim t = t

theorem dropEmptyEnd_of_getLast? {pieces : List Text} {last : Text} (hlast : pieces.getLast? = some last)
    (hne : last ≠ []) : dropEmptyEnd pieces = pieces := by
  refine List.rdropWhile_eq_self_iff.mpr fun hpieces => ?_
  obtain rfl : pieces.getLast hpieces = last :=
    Option.some.inj ((List.getLast?_eq_some_getLast hpieces).symm.trans hlast)
  simpa using hne

/-- **The fields of a text are its trimmed pieces**, if there is no comment and the last piece is not
blank. -/
theorem fields_eq_map_trim {t last : Text} (hcomment : ';' ∉ t)
    (hlast : ((Text.splitOn ',' t).map Text.trim).getLast? = some last) (hne : last ≠ []) :
    fields t = (Text.splitOn ',' t).map Text.trim := by
  have hstrip := Line.stripComment_of_not_mem hcomment
  rw [← Text.map_trim_splitOn_trim (by decide)] at hlast ⊢
  have hsome : Text.trim t ≠ [] := by
    intro hnil
    rw [hnil] at hlast
    exact hne (Option.some.inj hlast).symm
  rw [List.getLast?_map] at hlast
  obtain ⟨piece, hpiece, rfl⟩ := Option.map_eq_some_iff.mp hlast
  have hdrop : dropEmptyEnd (Text.splitOn ',' (Text.trim t)) = Text.splitOn ',' (Text.trim t) := by
    refine dropEmptyEnd_of_getLast? hpiece ?_
    rintro rfl
    exact hne rfl
  simp only [fields, hstrip, List.isEmpty_eq_false_iff.mpr hsome, Bool.false_eq_true, if_false, hdrop]

/-- **Texts that are joined are split again**, and trimmed, if the last one is not blank. -/
theorem fields_join_eq_map_trim {texts : List Text} (hcomma : ∀ t ∈ texts, ',' ∉ t)
    (hsemicolon : ∀ t ∈ texts, ';' ∉ t) {last : Text}
    (hlast : (texts.map Text.trim).getLast? = some last) (hne : last ≠ []) :
    fields (Text.join [','] texts) = texts.map Text.trim := by
  have hsplit : Text.splitOn ',' (Text.join [','] texts) = texts := by
    refine Text.splitOn_join ?_ hcomma
    rintro rfl
    cases hlast
  have hcomment : ';' ∉ Text.join [','] texts := by
    intro hmem
    rcases Text.mem_of_mem_join hmem with hmem | ⟨t, ht, hmem⟩
    · exact absurd hmem (by decide)
    · exact hsemicolon t ht hmem
  rw [fields_eq_map_trim hcomment (by rw [hsplit]; exact hlast) hne, hsplit]

/-- **Fields that are written are split again**. -/
theorem fields_join {texts : List Text} (hfield : ∀ t ∈ texts, IsField t) {last : Text}
    (hlast : texts.getLast? = some last) (hne : last ≠ []) :
    fields (Text.join [','] texts) = texts := by
  have htrim : texts.map Text.trim = texts :=
    (List.map_congr_left fun t ht => (hfield t ht).trimmed).trans (List.map_id' texts)
  rw [fields_join_eq_map_trim (fun t ht => (hfield t ht).comma) (fun t ht => (hfield t ht).semicolon)
    (htrim.symm ▸ hlast) hne, htrim]

/-- What splitting gives can be a field. -/
theorem isField_of_mem_fields {t field : Text} (h : field ∈ fields t) : IsField field := by
  simp only [fields] at h
  split at h
  · cases h
  · obtain ⟨piece, hpiece, rfl⟩ := List.mem_map.mp h
    have hmem : piece ∈ Text.splitOn ',' (Line.stripComment t) :=
      (List.rdropWhile_prefix List.isEmpty _).subset hpiece
    refine ⟨fun hcomma => ?_, fun hsemicolon => ?_, Text.trim_trim piece⟩
    · exact Text.not_mem_of_mem_splitOn hmem (Text.mem_of_mem_trim hcomma)
    · have hstripped : ';' ∈ Text.join [','] (Text.splitOn ',' (Line.stripComment t)) :=
        Text.mem_join_of_mem hmem (Text.mem_of_mem_trim hsemicolon)
      rw [Text.join_splitOn] at hstripped
      have hbefore := List.mem_takeWhile_imp (Text.mem_of_mem_trim hstripped)
      simp at hbefore

end Operand

end TwoPass
