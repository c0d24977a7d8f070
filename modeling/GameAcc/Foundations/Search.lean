import Mathlib.Data.List.Infix
import Mathlib.Tactic.Common

/-!
Searching a list for a part and for an element from behind, as `find` and
`rfind` do. A part whose first element does not occur in it again has no two
occurrences that overlap, so an occurrence is the first one when the part does
not occur before it.
-/

namespace GameAcc.Search

variable {α : Type*} [DecidableEq α]

/-- The position of the first occurrence of a part. -/
def find (sub : List α) : List α → Option Nat
  | [] => if sub = [] then some 0 else none
  | x :: rest =>
    if sub <+: x :: rest then some 0 else (find sub rest).map (fun n => n + 1)

/-- The position of the last occurrence of an element. -/
def rfind (y : α) : List α → Option Nat
  | [] => none
  | x :: rest =>
    match rfind y rest with
    | some n => some (n + 1)
    | none => if x = y then some 0 else none

theorem find_eq_none_iff {sub l : List α} : find sub l = none ↔ ¬sub <:+: l := by
  induction l with
  | nil => simp [find]
  | cons x rest ih =>
    rw [find, List.infix_cons_iff]
    split
    · next hbegins => simp [hbegins]
    · next hbegins => simp [hbegins, ih]

/-- A part that occurs, but not at the start, is found behind the start. -/
theorem find_pos {sub l : List α} (hinside : sub <:+: l) (hbegins : ¬sub <+: l) :
    ∃ n, find sub l = some n ∧ 0 < n := by
  cases l with
  | nil =>
    obtain rfl := List.infix_nil.mp hinside
    exact absurd List.nil_prefix hbegins
  | cons x rest =>
    have hrest : sub <:+: rest := (List.infix_cons_iff.mp hinside).resolve_left hbegins
    obtain ⟨n, hn⟩ := Option.ne_none_iff_exists'.mp (mt find_eq_none_iff.mp (not_not.mpr hrest))
    exact ⟨n + 1, by rw [find, if_neg hbegins, hn]; rfl, Nat.succ_pos n⟩

omit [DecidableEq α] in
/-- A prefix does not reach an element it does not have. -/
theorem prefix_of_prefix_cons {y : α} {sub front back : List α} (hsub : y ∉ sub)
    (h : sub <+: front ++ y :: back) : sub <+: front := by
  rcases List.prefix_or_prefix_of_prefix h (List.prefix_append _ _) with hbegins | ⟨tail, rfl⟩
  · exact hbegins
  · cases tail with
    | nil => rw [List.append_nil]
    | cons z tail =>
      have htail := (List.prefix_append_right_inj _).mp h
      obtain rfl : z = y := (List.cons_prefix_cons.mp htail).1
      exact absurd (List.mem_append_right _ List.mem_cons_self) hsub

/-- An occurrence is the first one when there is none in front of it. -/
theorem find_append {x : α} {sub front back : List α} (hsub : x ∉ sub)
    (hfront : ¬x :: sub <:+: front) :
    find (x :: sub) (front ++ (x :: sub ++ back)) = some front.length := by
  induction front with
  | nil => simp [find, List.prefix_append]
  | cons y rest ih =>
    rw [List.infix_cons_iff, not_or] at hfront
    have hbegins : ¬x :: sub <+: y :: (rest ++ (x :: sub ++ back)) := by
      intro hbegins
      obtain ⟨hxy, htail⟩ := List.cons_prefix_cons.mp hbegins
      apply hfront.1
      exact List.cons_prefix_cons.mpr ⟨hxy, prefix_of_prefix_cons hsub htail⟩
    rw [List.cons_append, find, if_neg hbegins, ih hfront.2]
    rfl

theorem rfind_eq_none {y : α} {l : List α} (h : y ∉ l) : rfind y l = none := by
  induction l with
  | nil => rfl
  | cons x rest ih =>
    rw [List.mem_cons, not_or] at h
    rw [rfind, ih h.2, if_neg (Ne.symm h.1)]

/-- An occurrence is the last one when there is none behind it. -/
theorem rfind_append {y : α} {front back : List α} (hback : y ∉ back) :
    rfind y (front ++ y :: back) = some front.length := by
  induction front with
  | nil =>
    rw [List.nil_append, rfind, rfind_eq_none hback, if_pos rfl]
    rfl
  | cons x rest ih =>
    rw [List.cons_append, rfind, ih]
    rfl

end GameAcc.Search
