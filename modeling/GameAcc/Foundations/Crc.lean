import Mathlib.Data.BitVec
import Mathlib.Tactic.Common

/-!
Cyclic redundancy checks that take the low bit of a byte first. The register
moves down a bit at a time, and the generator is added when a one falls out. A
move is linear, so a byte can be taken at once from a table of eight moves. When
the generator has its highest bit set a move loses nothing: every change to one
byte changes the check, and of all pairs of check bytes only the complement of
the register leaves the register at a fixed value.
-/

namespace GameAcc.Crc

variable {w : Nat} (poly : BitVec w)

def shift (c : BitVec w) : BitVec w :=
  if c.getLsbD 0 then (c >>> 1) ^^^ poly else c >>> 1

def shifts : Nat → BitVec w → BitVec w
  | 0, c => c
  | n + 1, c => shift poly (shifts n c)

/-- The register takes a byte. -/
def feed (c : BitVec w) (b : BitVec 8) : BitVec w :=
  shifts poly 8 (c ^^^ b.setWidth w)

theorem shift_xor (a b : BitVec w) : shift poly (a ^^^ b) = shift poly a ^^^ shift poly b := by
  unfold shift
  simp only [BitVec.getLsbD_xor, BitVec.ushiftRight_xor_distrib]
  cases a.getLsbD 0 <;> cases b.getLsbD 0
  · simp
  · simp [BitVec.xor_assoc]
  · simp only [Bool.bne_false, if_true, Bool.false_eq_true, if_false]
    ac_rfl
  · simp only [bne_self_eq_false, Bool.false_eq_true, if_false, if_true]
    calc (a >>> 1) ^^^ (b >>> 1) = (a >>> 1) ^^^ (b >>> 1) ^^^ (poly ^^^ poly) := by simp
      _ = _ := by ac_rfl

theorem shifts_xor (n : Nat) (a b : BitVec w) :
    shifts poly n (a ^^^ b) = shifts poly n a ^^^ shifts poly n b := by
  induction n with
  | zero => rfl
  | succ n ih => rw [shifts, ih, shift_xor, shifts, shifts]

theorem shifts_add (m n : Nat) (c : BitVec w) :
    shifts poly (m + n) c = shifts poly m (shifts poly n c) := by
  induction m with
  | zero => rw [Nat.zero_add, shifts]
  | succ m ih => rw [Nat.succ_add, shifts, ih, shifts]

/-- Where only zeros fall out the register just moves down. -/
theorem shifts_of_clear {n : Nat} {c : BitVec w} (hclear : ∀ i < n, c.getLsbD i = false) :
    shifts poly n c = c >>> n := by
  induction n with
  | zero => simp [shifts]
  | succ n ih =>
    have hbit : (c >>> n).getLsbD 0 = false := by
      simpa using hclear n (Nat.lt_succ_self n)
    rw [shifts, ih (fun i hi => hclear i (Nat.lt_succ_of_lt hi)), shift, hbit]
    simp [BitVec.shiftRight_add]

theorem shifts_eight (c : BitVec w) :
    shifts poly 8 c = (c >>> 8) ^^^ shifts poly 8 (c &&& 255#w) := by
  have hsplit : c = (c &&& ~~~255#w) ^^^ (c &&& 255#w) := by
    apply BitVec.eq_of_getLsbD_eq
    intro i hi
    simp only [BitVec.getLsbD_xor, BitVec.getLsbD_and, BitVec.getLsbD_not, hi, decide_true,
      Bool.true_and]
    generalize (255#w).getLsbD i = bit
    generalize c.getLsbD i = own
    revert bit own
    decide
  have hmask (i : Nat) : (255 : Nat).testBit i = decide (i < 8) := by
    rw [show (255 : Nat) = 2 ^ 8 - 1 from rfl, Nat.testBit_two_pow_sub_one]
  have hclear : ∀ i < 8, (c &&& ~~~255#w).getLsbD i = false := by
    intro i hi
    simp only [BitVec.getLsbD_and, BitVec.getLsbD_not, BitVec.getLsbD_ofNat, hmask]
    by_cases hw : i < w <;> simp [hi, hw]
  have hmoved : (c &&& ~~~255#w) >>> 8 = c >>> 8 := by
    apply BitVec.eq_of_getLsbD_eq
    intro i _
    simp only [BitVec.getLsbD_ushiftRight, BitVec.getLsbD_and, BitVec.getLsbD_not,
      BitVec.getLsbD_ofNat, hmask]
    by_cases hw : 8 + i < w
    · simp [hw]
    · simp [BitVec.getLsbD_of_ge c (8 + i) (by omega)]
  conv_lhs => rw [hsplit]
  rw [shifts_xor, shifts_of_clear poly hclear, hmoved]

/-- A byte at a time: the rest of the register moved down, and the table's word for
the low byte of the sum. -/
theorem feed_table (c : BitVec w) (b : BitVec 8) :
    feed poly c b = (c >>> 8) ^^^ shifts poly 8 ((c ^^^ b.setWidth w) &&& 255#w) := by
  have hbyte : (b.setWidth w) >>> 8 = 0#w := by
    apply BitVec.eq_of_getLsbD_eq
    intro i _
    simp
  rw [feed, shifts_eight, BitVec.ushiftRight_xor_distrib, hbyte, BitVec.xor_zero]

section Invertible

variable {poly} (hpoly : poly.getLsbD (w - 1) = true)
include hpoly

theorem shift_injective : Function.Injective (shift poly) := by
  intro a b hab
  have hw : 0 < w := by
    by_contra hw
    have : w = 0 := by omega
    subst this
    simp at hpoly
  have hout (c : BitVec w) : (shift poly c).getLsbD (w - 1) = c.getLsbD 0 := by
    unfold shift
    cases hc : c.getLsbD 0
    · simp [BitVec.getLsbD_of_ge c (1 + (w - 1)) (by omega)]
    · simp [BitVec.getLsbD_of_ge c (1 + (w - 1)) (by omega), hpoly]
  have hlow : a.getLsbD 0 = b.getLsbD 0 := by
    rw [← hout a, ← hout b, hab]
  have hmoved : a >>> 1 = b >>> 1 := by
    unfold shift at hab
    rw [hlow] at hab
    split at hab
    · exact (BitVec.xor_left_inj _).mp hab
    · exact hab
  apply BitVec.eq_of_getLsbD_eq
  intro i _
  cases i with
  | zero => exact hlow
  | succ i =>
    have hbit : (a >>> 1).getLsbD i = (b >>> 1).getLsbD i := by rw [hmoved]
    simpa [Nat.add_comm] using hbit

theorem shifts_injective (n : Nat) : Function.Injective (shifts poly n) := by
  induction n with
  | zero => exact fun _ _ h => h
  | succ n ih => exact fun a b h => ih (shift_injective hpoly h)

theorem foldl_feed_injective (bytes : List (BitVec 8)) :
    Function.Injective (fun c => bytes.foldl (feed poly) c) := by
  induction bytes with
  | nil => exact fun _ _ h => h
  | cons b bytes ih =>
    intro c d h
    exact (BitVec.xor_left_inj _).mp (shifts_injective hpoly 8 (ih h))

/-- Two sequences that differ in one byte leave different registers. -/
theorem foldl_feed_ne (hw : 8 ≤ w) {x y : BitVec 8} (hxy : x ≠ y) (c : BitVec w)
    (before after : List (BitVec 8)) :
    (before ++ x :: after).foldl (feed poly) c ≠ (before ++ y :: after).foldl (feed poly) c := by
  rw [List.foldl_append, List.foldl_append, List.foldl_cons, List.foldl_cons]
  intro h
  have hsum := shifts_injective hpoly 8 (foldl_feed_injective hpoly after h)
  have hwide : x.setWidth w = y.setWidth w := (BitVec.xor_right_inj _).mp hsum
  apply hxy
  apply BitVec.eq_of_getLsbD_eq
  intro i hi
  have hbit : (x.setWidth w).getLsbD i = (y.setWidth w).getLsbD i := by rw [hwide]
  simpa [show i < w by omega] using hbit

end Invertible

section Sixteen

variable (poly : BitVec 16)

/-- The register takes two bytes, the low one first. -/
theorem feed_feed (c v : BitVec 16) :
    feed poly (feed poly c (v.extractLsb' 0 8)) (v.extractLsb' 8 8) = shifts poly 16 (c ^^^ v) := by
  have hhigh : shifts poly 8 ((v >>> 8) <<< 8) = (v.extractLsb' 8 8).setWidth 16 := by
    rw [shifts_of_clear]
    · apply BitVec.eq_of_getLsbD_eq
      intro i hi
      simp only [BitVec.getLsbD_ushiftRight, BitVec.getLsbD_shiftLeft, BitVec.getLsbD_setWidth,
        BitVec.getLsbD_extractLsb', Nat.add_sub_cancel_left]
      by_cases hbit : i < 8
      · simp [hbit, hi, show 8 + i < 16 by omega]
      · simp [hbit, show ¬ 8 + i < 16 by omega]
    · intro i hi
      simp [hi]
  have hsum : (v.extractLsb' 0 8).setWidth 16 ^^^ ((v >>> 8) <<< 8) = v := by
    apply BitVec.eq_of_getLsbD_eq
    intro i hi
    simp only [BitVec.getLsbD_xor, BitVec.getLsbD_setWidth, BitVec.getLsbD_extractLsb',
      BitVec.getLsbD_shiftLeft, BitVec.getLsbD_ushiftRight]
    by_cases hbit : i < 8
    · simp [hbit, hi]
    · simp [hbit, hi, show 8 + (i - 8) = i by omega]
  rw [feed, feed, ← hhigh, ← shifts_xor, ← shifts_add]
  rw [BitVec.xor_assoc, hsum]

/-- What the register holds after a sequence and its right check. -/
def good : BitVec 16 := shifts poly 16 (BitVec.allOnes 16)

variable {poly} in
/-- The register shows whether the two bytes were the right check. -/
theorem feed_feed_eq_good (hpoly : poly.getLsbD 15 = true) (c v : BitVec 16) :
    feed poly (feed poly c (v.extractLsb' 0 8)) (v.extractLsb' 8 8) = good poly ↔ v = ~~~c := by
  rw [feed_feed, good]
  constructor
  · intro h
    have hsum := shifts_injective hpoly 16 h
    calc v = c ^^^ (c ^^^ v) := by rw [← BitVec.xor_assoc]; simp
      _ = ~~~c := by rw [hsum, BitVec.xor_allOnes]
  · rintro rfl
    congr 1
    apply BitVec.eq_of_getLsbD_eq
    intro i hi
    simp only [BitVec.getLsbD_xor, BitVec.getLsbD_not, BitVec.getLsbD_allOnes, hi]
    cases c.getLsbD i <;> rfl

end Sixteen

end GameAcc.Crc
