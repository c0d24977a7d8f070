import Mathlib.Data.Rat.Floor
import Mathlib.Data.List.Basic

/-!
A loop that cuts a list to a percentage. It renders an item, advances its
counter and stops as soon as the counter exceeds a rational limit, so the first
item is always taken and the comparison comes one item late. The file gives the
number of items taken and compares the cuts of one list at two percentages.
-/

namespace GameAcc.PercentCut

variable {Item Out : Type}

/-- The items taken by the loop, from the value of its counter on. -/
def takeUpTo (render : Item → Out) (limit : ℚ) : Nat → List Item → List Out
  | _, [] => []
  | counter, item :: rest =>
    render item :: if ((counter + 1 : Nat) : ℚ) > limit then []
      else takeUpTo render limit (counter + 1) rest

theorem takeUpTo_eq (render : Item → Out) (limit : ℚ) {counter : Nat}
    (hcounter : 1 ≤ counter) (items : List Item) :
    takeUpTo render limit counter items =
      (items.take (max 1 (⌊limit⌋ + 1 - counter).toNat)).map render := by
  induction items generalizing counter with
  | nil => simp [takeUpTo]
  | cons item rest ih =>
    rw [takeUpTo]
    by_cases hstop : ((counter + 1 : Nat) : ℚ) > limit
    · have hfloor : ⌊limit⌋ < (counter + 1 : Nat) := by
        apply Int.floor_lt.mpr
        exact_mod_cast hstop
      have hone : max 1 (⌊limit⌋ + 1 - counter).toNat = 1 := by
        omega
      rw [if_pos hstop, hone]
      rfl
    · have hfloor : ((counter + 1 : Nat) : Int) ≤ ⌊limit⌋ := by
        apply Int.le_floor.mpr
        exact_mod_cast not_lt.mp hstop
      have hmore : max 1 (⌊limit⌋ + 1 - counter).toNat =
          max 1 (⌊limit⌋ + 1 - (counter + 1 : Nat)).toNat + 1 := by
        omega
      rw [if_neg hstop, ih (Nat.le_add_left 1 counter), hmore, List.take_succ_cons,
        List.map_cons]

/-- The share of `rows` items, rounded down, but at least one item. -/
def share (rows : Nat) (percent : Int) : Nat :=
  max 1 ((rows : Int) * percent / 100).toNat

theorem floor_percent (rows : Nat) (percent : Int) :
    ⌊(rows : ℚ) * percent / 100⌋ = (rows : Int) * percent / 100 := by
  have hcast : (rows : ℚ) * percent / 100 =
      (((rows : Int) * percent : Int) : ℚ) / (100 : Nat) := by
    push_cast
    rfl
  rw [hcast, Rat.floor_intCast_div_natCast]
  rfl

/-- With the limit at a percentage of the list the loop takes that share. -/
theorem takeUpTo_percent (render : Item → Out) (percent : Int) (items : List Item) :
    takeUpTo render ((items.length : ℚ) * percent / 100) 1 items =
      (items.take (share items.length percent)).map render := by
  have hshare : max 1 (⌊(items.length : ℚ) * percent / 100⌋ + 1 - (1 : Nat)).toNat =
      share items.length percent := by
    rw [floor_percent, share]
    omega
  rw [takeUpTo_eq _ _ le_rfl, hshare]

theorem share_mono (rows : Nat) {p p' : Int} (h : p ≤ p') : share rows p ≤ share rows p' := by
  have hmul : (rows : Int) * p ≤ (rows : Int) * p' :=
    Int.mul_le_mul_of_nonneg_left h (Int.natCast_nonneg rows)
  have hdiv : (rows : Int) * p / 100 ≤ (rows : Int) * p' / 100 :=
    Int.ediv_le_ediv (by decide) hmul
  unfold share
  omega

/-- From 100 percent on nothing is cut. -/
theorem le_share (rows : Nat) {percent : Int} (h : 100 ≤ percent) :
    rows ≤ share rows percent := by
  have hall : share rows 100 ≤ share rows percent := share_mono rows h
  have hrows : (rows : Int) * 100 / 100 = rows :=
    Int.mul_ediv_cancel _ (by decide)
  have hfull : share rows 100 = max 1 rows := by
    rw [share, hrows, Int.toNat_natCast]
  omega

theorem takeUpTo_prefix (render : Item → Out) (items : List Item) {p p' : Int}
    (h : p ≤ p') :
    takeUpTo render ((items.length : ℚ) * p / 100) 1 items <+:
      takeUpTo render ((items.length : ℚ) * p' / 100) 1 items := by
  rw [takeUpTo_percent, takeUpTo_percent]
  exact (List.take_prefix_take_left (share_mono _ h)).map render

theorem takeUpTo_all (render : Item → Out) (items : List Item) {percent : Int}
    (h : 100 ≤ percent) :
    takeUpTo render ((items.length : ℚ) * percent / 100) 1 items = items.map render := by
  rw [takeUpTo_percent, List.take_of_length_le (le_share _ h)]

end GameAcc.PercentCut
