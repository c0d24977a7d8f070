import Mathlib.Data.List.Basic

/-!
A change to the first member of a list that has a property, as C makes it when it
walks a chain of records up to the one it looks for. The next search for the same
property finds the changed record, and a search for another is not disturbed.
-/

namespace GameAcc.FirstMatch

variable {α : Type*} {p : α → Bool} {f : α → α}

def updateFirst (p : α → Bool) (f : α → α) : List α → List α
  | [] => []
  | x :: xs => if p x then f x :: xs else x :: updateFirst p f xs

theorem find?_updateFirst_self {xs : List α} {x : α} (hx : xs.find? p = some x)
    (hf : p (f x) = true) : (updateFirst p f xs).find? p = some (f x) := by
  induction xs with
  | nil => cases hx
  | cons y ys ih =>
    rw [updateFirst]
    cases hy : p y with
    | true =>
      rw [List.find?_cons_of_pos hy] at hx
      cases hx
      rw [if_pos rfl, List.find?_cons_of_pos hf]
    | false =>
      rw [List.find?_cons_of_neg (by simp [hy])] at hx
      rw [if_neg (by simp), List.find?_cons_of_neg (by simp [hy])]
      exact ih hx

theorem updateFirst_of_none {xs : List α} (hx : xs.find? p = none) : updateFirst p f xs = xs := by
  induction xs with
  | nil => rfl
  | cons y ys ih =>
    rw [List.find?_cons] at hx
    split at hx
    · cases hx
    · rename_i hy
      rw [updateFirst, if_neg (by simp [hy]), ih hx]

theorem find?_updateFirst_other {q : α → Bool} {xs : List α}
    (hf : ∀ x, p x = true → q (f x) = false) (hpq : ∀ x, p x = true → q x = false) :
    (updateFirst p f xs).find? q = xs.find? q := by
  induction xs with
  | nil => rfl
  | cons y ys ih =>
    rw [updateFirst]
    cases hy : p y with
    | true =>
      rw [if_pos rfl, List.find?_cons_of_neg (by simp [hf y hy]),
        List.find?_cons_of_neg (by simp [hpq y hy])]
    | false =>
      rw [if_neg (by simp), List.find?_cons, List.find?_cons, ih]

end GameAcc.FirstMatch
