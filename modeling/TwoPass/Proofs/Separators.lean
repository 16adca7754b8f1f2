import TwoPass.Text.Blank

/-!
# Pieces between separators

A text is cut at a separator and put together again. Where a separator stands, the pieces before it and
those behind it are cut apart (`Text.splitOn_append_separator`), and a text without one is a single piece
(`Text.splitOn_of_not_mem`). So no piece has the separator, and pieces that have none are told apart again
after they were joined (`Text.splitOn_join`).
-/

namespace TwoPass

namespace Text

/-! ## Cutting -/

section Cutting

variable {separator : Char}

/-- A separator cuts a text into the pieces before it and those behind it. -/
theorem splitOn_append_separator (t rest : Text) :
    splitOn separator (t ++ separator :: rest) = splitOn separator t ++ splitOn separator rest := by
  induction t with
  | nil => simp [splitOn]
  | cons c t ih =>
    rw [List.cons_append, splitOn, splitOn, ih]
    split
    · rfl
    · cases hpieces : splitOn separator t with
      | nil => exact absurd hpieces (splitOn_ne_nil separator t)
      | cons piece pieces => rfl

/-- A separator at the end opens one more piece. -/
theorem splitOn_concat (t : Text) :
    splitOn separator (t ++ [separator]) = splitOn separator t ++ [[]] :=
  splitOn_append_separator t []

/-- A text without the separator is a single piece. -/
theorem splitOn_of_not_mem {t : Text} (h : separator ∉ t) :
    splitOn separator t = [t] := by
  induction t with
  | nil => rfl
  | cons c t ih =>
    obtain ⟨hc, ht⟩ := not_or.mp (mt List.mem_cons.mpr h)
    rw [splitOn, if_neg (Ne.symm hc), ih ht]

/-- Cutting a text at its first separator. -/
theorem splitOn_append_cons {t : Text} (h : separator ∉ t) (rest : Text) :
    splitOn separator (t ++ separator :: rest) = t :: splitOn separator rest := by
  rw [splitOn_append_separator, splitOn_of_not_mem h]
  rfl

/-- The first piece goes up to the first separator. -/
theorem head?_splitOn (separator : Char) (t : Text) :
    (splitOn separator t).head? = some (t.takeWhile (· != separator)) := by
  induction t with
  | nil => rfl
  | cons c t ih =>
    rw [splitOn]
    by_cases hc : c = separator
    · simp [hc]
    · rw [if_neg hc, List.takeWhile_cons_of_pos (by simpa using hc)]
      cases hs : splitOn separator t with
      | nil => exact absurd hs (splitOn_ne_nil separator t)
      | cons piece pieces =>
        rw [hs, List.head?_cons, Option.some.injEq] at ih
        rw [List.head?_cons, ih]

/-- A text in front that has no separator belongs to the first piece. -/
theorem splitOn_append_left {before : Text} (h : separator ∉ before) (t : Text) :
    ∃ piece pieces, splitOn separator t = piece :: pieces ∧
      splitOn separator (before ++ t) = (before ++ piece) :: pieces := by
  obtain ⟨piece, pieces, hpieces⟩ := List.exists_cons_of_ne_nil (splitOn_ne_nil separator t)
  refine ⟨piece, pieces, hpieces, ?_⟩
  induction before with
  | nil => exact hpieces
  | cons c before ih =>
    obtain ⟨hc, hbefore⟩ := not_or.mp (mt List.mem_cons.mpr h)
    rw [List.cons_append, splitOn, if_neg (Ne.symm hc), ih hbefore]
    rfl

/-- A text behind that has no separator belongs to the last piece. -/
theorem splitOn_append_right {behind : Text} (h : separator ∉ behind) (t : Text) :
    ∃ pieces piece, splitOn separator t = pieces ++ [piece] ∧
      splitOn separator (t ++ behind) = pieces ++ [piece ++ behind] := by
  induction t with
  | nil => exact ⟨[], [], rfl, splitOn_of_not_mem h⟩
  | cons c t ih =>
    obtain ⟨pieces, piece, hpieces, happend⟩ := ih
    rw [List.cons_append, splitOn, splitOn, hpieces, happend]
    by_cases hc : c = separator
    · rw [if_pos hc, if_pos hc]
      exact ⟨[] :: pieces, piece, rfl, rfl⟩
    · rw [if_neg hc, if_neg hc]
      cases pieces with
      | nil => exact ⟨[], c :: piece, rfl, rfl⟩
      | cons first pieces => exact ⟨(c :: first) :: pieces, piece, rfl, rfl⟩

/-- No piece has the separator. -/
theorem not_mem_of_mem_splitOn {t piece : Text} (h : piece ∈ splitOn separator t) :
    separator ∉ piece := by
  induction t generalizing piece with
  | nil =>
    obtain rfl := List.mem_singleton.mp h
    exact List.not_mem_nil
  | cons c t ih =>
    rw [splitOn] at h
    split at h
    · rcases List.mem_cons.mp h with rfl | h
      · exact List.not_mem_nil
      · exact ih h
    · next hc =>
      split at h
      · next hnone => exact absurd hnone (splitOn_ne_nil separator t)
      · next first pieces hpieces =>
        rw [hpieces] at ih
        rcases List.mem_cons.mp h with rfl | h
        · intro hmem
          rcases List.mem_cons.mp hmem with rfl | hmem
          · exact hc rfl
          · exact ih List.mem_cons_self hmem
        · exact ih (List.mem_cons_of_mem _ h)

end Cutting

/-! ## Joining -/

/-- **Cutting undoes joining**: pieces without the separator are told apart again. -/
theorem splitOn_join {separator : Char} {pieces : List Text} (hne : pieces ≠ [])
    (h : ∀ piece ∈ pieces, separator ∉ piece) : splitOn separator (join [separator] pieces) = pieces := by
  fun_induction join [separator] pieces with
  | case1 => exact absurd rfl hne
  | case2 piece => exact splitOn_of_not_mem (h piece List.mem_cons_self)
  | case3 piece next pieces ih =>
    rw [List.append_assoc, List.singleton_append, splitOn_append_cons (h piece List.mem_cons_self),
      ih (List.cons_ne_nil _ _) fun other hother => h other (List.mem_cons_of_mem _ hother)]

/-- Two lists of pieces are joined by one more separator. -/
theorem join_append (separator : Text) {pieces more : List Text} (hpieces : pieces ≠ [])
    (hmore : more ≠ []) :
    join separator (pieces ++ more) = join separator pieces ++ (separator ++ join separator more) := by
  fun_induction join separator pieces with
  | case1 => exact absurd rfl hpieces
  | case2 piece =>
    obtain ⟨next, rest, rfl⟩ := List.exists_cons_of_ne_nil hmore
    rw [List.singleton_append, join, List.append_assoc]
  | case3 piece next pieces ih =>
    have hrest := ih (List.cons_ne_nil _ _)
    rw [List.cons_append] at hrest
    rw [List.cons_append, List.cons_append, join, hrest]
    simp only [List.append_assoc]

theorem mem_join_of_mem {separator piece : Text} {pieces : List Text} (h : piece ∈ pieces) {c : Char}
    (hc : c ∈ piece) : c ∈ join separator pieces := by
  fun_induction join separator pieces with
  | case1 => cases h
  | case2 other =>
    obtain rfl := List.mem_singleton.mp h
    exact hc
  | case3 other next pieces ih =>
    rcases List.mem_cons.mp h with rfl | h
    · exact List.mem_append_left _ (List.mem_append_left _ hc)
    · exact List.mem_append_right _ (ih h)

theorem mem_of_mem_join {separator : Text} {pieces : List Text} {c : Char}
    (h : c ∈ join separator pieces) : c ∈ separator ∨ ∃ piece ∈ pieces, c ∈ piece := by
  fun_induction join separator pieces with
  | case1 => cases h
  | case2 piece => exact .inr ⟨piece, List.mem_cons_self, h⟩
  | case3 piece next pieces ih =>
    rcases List.mem_append.mp h with h | h
    · rcases List.mem_append.mp h with h | h
      · exact .inr ⟨piece, List.mem_cons_self, h⟩
      · exact .inl h
    · refine (ih h).imp_right ?_
      rintro ⟨other, hother, hc⟩
      exact ⟨other, List.mem_cons_of_mem piece hother, hc⟩

end Text

end TwoPass
