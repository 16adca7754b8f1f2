import Mathlib.Data.List.DropRight
import TwoPass.Text.Break
import TwoPass.Word

/-!
# Lines, their ends and their blanks

Two facts about texts that every reading of an output rests on.

* **Ending lines is undone by cutting them.** A line that was cut from a text has no break in it
  (`not_isBreak_of_mem_lines`), and lines without breaks, each ended by a line feed, are cut into the
  same lines again (`lines_endLines`).
* **Trimming settles a text.** A trimmed text neither starts nor ends with a blank, so trimming it once
  more changes nothing (`trim_trim`); and since it is a stretch of the text it comes from, it has no
  break where that one has none.
-/

namespace TwoPass

namespace Text

/-! ## Trimming -/

theorem trimStart_isSuffix (t : Text) : trimStart t <:+ t := List.dropWhile_suffix isBlank

theorem trimEnd_isPrefix (t : Text) : trimEnd t <+: t := List.rdropWhile_prefix isBlank t

/-- A character of the trimmed text is one of the text. -/
theorem mem_of_mem_trim {t : Text} {c : Char} (h : c ∈ trim t) : c ∈ t :=
  (trimStart_isSuffix t).subset ((trimEnd_isPrefix (trimStart t)).subset h)

/-- What is left of a text after trimming its start does not start with a blank. -/
theorem isBlank_of_trimStart_eq_cons {t rest : Text} {c : Char} (h : trimStart t = c :: rest) :
    isBlank c = false := by
  have hhead := List.head?_dropWhile_not isBlank t
  rw [trimStart] at h
  rw [h] at hhead
  exact hhead

theorem trimStart_of_not_isBlank {c : Char} (rest : Text) (h : isBlank c = false) :
    trimStart (c :: rest) = c :: rest := by
  rw [trimStart, List.dropWhile_cons_of_neg (by simp [h])]

/-- A trimmed text does not start with a blank. -/
theorem isBlank_of_trim_eq_cons {t rest : Text} {c : Char} (h : trim t = c :: rest) :
    isBlank c = false := by
  obtain ⟨behind, hbehind⟩ := trimEnd_isPrefix (trimStart t)
  have hstart : trimStart t = c :: (rest ++ behind) := by
    rw [← hbehind, ← List.cons_append, ← h]
    rfl
  exact isBlank_of_trimStart_eq_cons hstart

theorem trimStart_trim (t : Text) : trimStart (trim t) = trim t := by
  cases ht : trim t with
  | nil => rfl
  | cons c rest => exact trimStart_of_not_isBlank rest (isBlank_of_trim_eq_cons ht)

/-- **Trimming settles a text**. -/
@[simp] theorem trim_trim (t : Text) : trim (trim t) = trim t := by
  calc trim (trim t) = trimEnd (trimStart (trim t)) := rfl
    _ = trimEnd (trim t) := by rw [trimStart_trim]
    _ = trim t := List.rdropWhile_idempotent isBlank (trimStart t)

/-! ## Cutting -/

section Cut

variable {isBreak : Char → Bool}

/-- What holds of every character of a text that is no break holds of those of its ended lines and of
what follows the last break. -/
theorem forall_mem_cut {P : Char → Prop} {t : Text} (h : ∀ c ∈ t, isBreak c = false → P c) :
    (∀ line ∈ (cut isBreak t).1, ∀ c ∈ line, P c) ∧ ∀ c ∈ (cut isBreak t).2, P c := by
  fun_induction cut isBreak t with
  | case1 => simp
  | case2 rest lines last hcut ih =>
    have hrest := ih fun d hd => h d (List.mem_cons_of_mem _ (List.mem_cons_of_mem _ hd))
    rw [hcut] at hrest
    exact ⟨List.forall_mem_cons.mpr ⟨by simp, hrest.1⟩, hrest.2⟩
  | case3 c rest _ lines last hcut hbreak ih =>
    have hrest := ih fun d hd => h d (List.mem_cons_of_mem c hd)
    rw [hcut] at hrest
    exact ⟨List.forall_mem_cons.mpr ⟨by simp, hrest.1⟩, hrest.2⟩
  | case4 c rest _ last hbreak hcut ih =>
    -- the character goes to the unfinished rest
    have hrest := ih fun d hd => h d (List.mem_cons_of_mem c hd)
    have hc : P c := h c List.mem_cons_self (by simpa using hbreak)
    rw [hcut] at hrest
    exact ⟨hrest.1, List.forall_mem_cons.mpr ⟨hc, hrest.2⟩⟩
  | case5 c rest _ last hbreak line lines hcut ih =>
    -- the character goes to the first ended line
    have hrest := ih fun d hd => h d (List.mem_cons_of_mem c hd)
    have hc : P c := h c List.mem_cons_self (by simpa using hbreak)
    rw [hcut] at hrest
    obtain ⟨hline, hlines⟩ := List.forall_mem_cons.mp hrest.1
    exact ⟨List.forall_mem_cons.mpr ⟨List.forall_mem_cons.mpr ⟨hc, hline⟩, hlines⟩, hrest.2⟩

theorem forall_mem_lines {P : Char → Prop} {t line : Text} (h : ∀ c ∈ t, isBreak c = false → P c)
    (hline : line ∈ lines isBreak t) : ∀ c ∈ line, P c := by
  obtain ⟨hended, hlast⟩ := forall_mem_cut h
  rw [lines] at hline
  rcases hcut : cut isBreak t with ⟨ended, last⟩
  rw [hcut] at hline hended hlast
  dsimp only at hline
  split at hline
  · exact hended line hline
  · rcases List.mem_append.mp hline with hline | hline
    · exact hended line hline
    · obtain rfl := List.mem_singleton.mp hline
      exact hlast

/-- No line of a text has a break in it. -/
theorem not_isBreak_of_mem_lines {t line : Text} (h : line ∈ lines isBreak t) :
    ∀ c ∈ line, isBreak c = false :=
  forall_mem_lines (fun _ _ hbreak => hbreak) h

/-- The characters of a line are those of its text. -/
theorem mem_of_mem_lines {t line : Text} (h : line ∈ lines isBreak t) : ∀ c ∈ line, c ∈ t :=
  forall_mem_lines (fun _ hc _ => hc) h

variable (hfeed : isBreak '\n' = true) (hreturn : isBreak '\r' = true)

include hfeed hreturn

/-- Cutting ends a line without breaks at the line feed behind it. -/
theorem cut_append_feed {line : Text} (hline : ∀ c ∈ line, isBreak c = false) (rest : Text) :
    cut isBreak (line ++ '\n' :: rest) = (line :: (cut isBreak rest).1, (cut isBreak rest).2) := by
  induction line with
  | nil =>
    rw [List.nil_append, cut]
    · simp [hfeed]
    · intro _ h
      cases h
  | cons c line ih =>
    have hc : isBreak c = false := hline c List.mem_cons_self
    rw [List.cons_append, cut, ih fun d hd => hline d (List.mem_cons_of_mem c hd)]
    · simp [hc]
    · -- the character is no carriage return, since that would be a break
      rintro _ rfl -
      rw [hreturn] at hc
      cases hc

/-- **Ending lines is undone by cutting**. -/
theorem lines_endLines {ended : List Text}
    (h : ∀ line ∈ ended, ∀ c ∈ line, isBreak c = false) :
    lines isBreak (endLines ended) = ended := by
  have hcut : cut isBreak (endLines ended) = (ended, []) := by
    induction ended with
    | nil => rfl
    | cons line ended ih =>
      have hrest := ih fun other hother => h other (List.mem_cons_of_mem line hother)
      have hsplit : endLines (line :: ended) = line ++ '\n' :: endLines ended := by
        simp [endLines]
      rw [hsplit, cut_append_feed hfeed hreturn (h line List.mem_cons_self), hrest]
  rw [lines, hcut]
  rfl

end Cut

/-- The trimmed lines of a text, each ended by a line feed, are the lines of that text. -/
theorem textLines_endLines_of_trim {t : Text} {ended : List Text}
    (h : ∀ line ∈ ended, ∃ raw ∈ textLines t, line = trim raw) :
    textLines (endLines ended) = ended := by
  refine lines_endLines rfl rfl ?_
  intro line hline c hc
  obtain ⟨raw, hraw, rfl⟩ := h line hline
  exact not_isBreak_of_mem_lines hraw c (mem_of_mem_trim hc)

end Text

end TwoPass
