import TwoPass.Text.Blank

/-!
# The order of texts

Names and paths are sorted by their code points from left to right, a text coming after its own
beginnings.
-/

namespace TwoPass

namespace Text

/-- Does the first text come before the second one, or equal it? -/
def le : Text → Text → Bool
  | [], _ => true
  | _ :: _, [] => false
  | a :: as, b :: bs => if a = b then le as bs else a.toNat < b.toNat

theorem le_total (s t : Text) : (le s t || le t s) = true := by
  induction s generalizing t with
  | nil => rfl
  | cons a as ih =>
    cases t with
    | nil => rfl
    | cons b bs =>
      by_cases h : a = b
      · subst h
        simpa [le] using ih bs
      · have hne : a.toNat ≠ b.toNat := fun hn => h (Char.toNat_inj.mp hn)
        simp only [le, h, Ne.symm h, if_false, Bool.or_eq_true, decide_eq_true_eq]
        omega

theorem le_trans {s t u : Text} (h₁ : le s t = true) (h₂ : le t u = true) : le s u = true := by
  induction s generalizing t u with
  | nil => rfl
  | cons a as ih =>
    cases t with
    | nil => simp [le] at h₁
    | cons b bs =>
      cases u with
      | nil => simp [le] at h₂
      | cons c cs =>
        by_cases hab : a = b
        · subst hab
          by_cases hac : a = c
          · subst hac
            simp only [le, if_true] at h₁ h₂ ⊢
            exact ih h₁ h₂
          · simp only [le, hac, if_false] at h₂ ⊢
            exact h₂
        · simp only [le, hab, if_false, decide_eq_true_eq] at h₁
          by_cases hbc : b = c
          · subst hbc
            simpa [le, hab] using h₁
          · simp only [le, hbc, if_false, decide_eq_true_eq] at h₂
            have hac : a ≠ c := fun h => by subst h; omega
            simp only [le, hac, if_false, decide_eq_true_eq]
            omega

/-- Sorted by the given key, keeping the order of items with equal keys. -/
def sortBy {α : Type} (key : α → Text) (items : List α) : List α :=
  items.mergeSort fun a b => le (key a) (key b)

/-- Sorting neither drops nor adds an item. -/
theorem sortBy_perm {α : Type} (key : α → Text) (items : List α) :
    (sortBy key items).Perm items :=
  List.mergeSort_perm items _

/-- After sorting, the keys come in order. -/
theorem pairwise_sortBy {α : Type} (key : α → Text) (items : List α) :
    (sortBy key items).Pairwise fun a b => le (key a) (key b) = true :=
  @List.pairwise_mergeSort α (fun a b => le (key a) (key b)) (fun _ _ _ => le_trans)
    (fun a b => le_total (key a) (key b)) items

end Text

end TwoPass
