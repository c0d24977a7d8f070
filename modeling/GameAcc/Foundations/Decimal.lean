import GameAcc.Foundations.Numeral
import GameAcc.Foundations.Rounding
import Mathlib.Data.List.DropRight

/-!
C's `%.14g`: a number rounded to 14 significant digits, without trailing zeros,
with a point or with an exponent. Reading such a text gives the rounded number
back, and an integer of at most 14 digits is printed as such.
-/

namespace GameAcc.Numeral

open Rounding

section Print

/-- `n` units of the given decimal place, without trailing zeros. -/
def fixed (n places : Nat) : List Char :=
  let fraction :=
    ((Nat.toDigits 10 (n % 10 ^ places)).leftpad places '0').rdropWhile (· == '0')
  Nat.toDigits 10 (n / 10 ^ places) ++ if fraction = [] then [] else '.' :: fraction

def exponentText (e : Int) : List Char :=
  'e' :: (if e < 0 then '-' else '+') :: (Nat.toDigits 10 e.natAbs).leftpad 2 '0'

/-- 14 significant decimal digits. -/
def significant : Format where
  base := 10
  precision := 14
  least := none
  base_gt := by decide
  precision_pos := by decide

/-- The text of a value that is not negative. -/
def printMagnitude (x : ℚ) : List Char :=
  let r := significant.nearest x
  let e := Int.log 10 r
  let n := (roundEven (r / power 10 (e - 13))).toNat
  if -4 ≤ e ∧ e < 14 then fixed n (13 - e).toNat
  else fixed n 13 ++ exponentText e

end Print

section Fixed

theorem toDigits_digits (n : Nat) : ∀ c ∈ Nat.toDigits 10 n, c.isDigit = true :=
  fun _ hc => Nat.isDigit_of_mem_toDigits (by decide) (by decide) hc

theorem leftpad_digits {cs : List Char} (h : ∀ c ∈ cs, c.isDigit = true) (width : Nat) :
    ∀ c ∈ cs.leftpad width '0', c.isDigit = true := by
  intro c hc
  rcases List.mem_append.mp hc with hzero | hdigit
  · rw [List.eq_of_mem_replicate hzero]
    rfl
  · exact h c hdigit

theorem ofDigitChars_leftpad (cs : List Char) (width : Nat) :
    Nat.ofDigitChars 10 (cs.leftpad width '0') 0 = Nat.ofDigitChars 10 cs 0 := by
  rw [List.leftpad, Nat.ofDigitChars_append, Nat.ofDigitChars_replicate_zero, Nat.mul_zero]

/-- The number that digits around a point stand for. -/
def mantissa (whole fraction : List Char) : ℚ :=
  (Nat.ofDigitChars 10 (whole ++ fraction) 0 : ℚ) / 10 ^ fraction.length

/-- Trailing zeros of the fraction do not change the number. -/
theorem mantissa_dropZeros (whole fraction : List Char) :
    mantissa whole (fraction.rdropWhile (· == '0')) = mantissa whole fraction := by
  induction fraction using List.reverseRecOn with
  | nil => rfl
  | append_singleton digits c ih =>
    by_cases hc : (c == '0') = true
    · rw [List.rdropWhile_concat_pos (· == '0') _ _ hc, ih]
      obtain rfl : c = '0' := eq_of_beq hc
      have hvalue : Nat.ofDigitChars 10 (whole ++ (digits ++ ['0'])) 0 =
          10 * Nat.ofDigitChars 10 (whole ++ digits) 0 := by
        rw [← List.append_assoc, Nat.ofDigitChars_append, Nat.ofDigitChars_cons]
        simp
      rw [mantissa, mantissa, hvalue, List.length_append, List.length_singleton, pow_succ]
      push_cast
      field_simp
    · rw [List.rdropWhile_concat_neg (· == '0') _ _ hc]

theorem mantissa_fixed (n places : Nat) :
    mantissa (Nat.toDigits 10 (n / 10 ^ places))
      ((Nat.toDigits 10 (n % 10 ^ places)).leftpad places '0') = n / 10 ^ places := by
  have hvalue : ∀ fraction : List Char,
      Nat.ofDigitChars 10 (Nat.toDigits 10 (n / 10 ^ places) ++ fraction) 0 =
        10 ^ fraction.length * (n / 10 ^ places) + Nat.ofDigitChars 10 fraction 0 := by
    intro fraction
    rw [Nat.ofDigitChars_append, Nat.ofDigitChars_ten_toDigits,
      Nat.ofDigitChars_eq_ofDigitChars_zero]
  rw [mantissa, hvalue, ofDigitChars_leftpad, Nat.ofDigitChars_ten_toDigits]
  rcases Nat.eq_zero_or_pos places with rfl | hpos
  · simp [Nat.mod_one]
  · have hlength : ((Nat.toDigits 10 (n % 10 ^ places)).leftpad places '0').length = places := by
      have hshort := (Nat.length_toDigits_le_iff (b := 10) (by decide) hpos).mpr
        (Nat.mod_lt n (by positivity))
      rw [List.length_leftpad]
      omega
    rw [hlength, Nat.div_add_mod]

theorem readDecimal_parts {whole fraction rest : List Char} (hne : whole ≠ [])
    (hwhole : ∀ c ∈ whole, c.isDigit = true) (hfraction : ∀ c ∈ fraction, c.isDigit = true)
    (hrest : ∀ c ∈ rest.head?, c.isDigit = false ∧ c ≠ '.') :
    readDecimal (whole ++ ((if fraction = [] then [] else '.' :: fraction) ++ rest)) =
      readExponent 'e' 10 (mantissa whole fraction) rest := by
  have hdigits : ∀ c ∈ ((if fraction = [] then [] else '.' :: fraction) ++ rest).head?,
      c.isDigit = false := by
    intro c hc
    by_cases hnil : fraction = []
    · rw [if_pos hnil, List.nil_append] at hc
      exact (hrest c hc).1
    · rw [if_neg hnil, List.cons_append, List.head?_cons] at hc
      obtain rfl := Option.some.inj hc
      rfl
  have hread : readFraction Char.isDigit
      ((if fraction = [] then [] else '.' :: fraction) ++ rest) = (fraction, rest) := by
    by_cases hnil : fraction = []
    · rw [if_pos hnil, List.nil_append, hnil]
      unfold readFraction
      split
      · next tail => exact absurd rfl (hrest '.' rfl).2
      · rfl
    · obtain ⟨htake, hdrop⟩ := takeWhile_append_stop Char.isDigit fraction rest hfraction
        (fun c hc => (hrest c hc).1)
      rw [if_neg hnil, List.cons_append, readFraction, htake, hdrop]
  obtain ⟨htake, hdrop⟩ := takeWhile_append_stop Char.isDigit whole _ hwhole hdigits
  unfold readDecimal readReal
  simp only [htake, hdrop, hread]
  rw [if_neg (by simp [hne])]
  rfl

/-- A printed number in front of an exponent is read as the number. -/
theorem readMagnitude_fixed (n places : Nat) {rest : List Char}
    (hrest : ∀ c ∈ rest.head?, c.isDigit = false ∧ c ≠ '.' ∧ c.toLower ≠ 'x') :
    readMagnitude (fixed n places ++ rest) =
      readExponent 'e' 10 ((n : ℚ) / 10 ^ places) rest := by
  let whole := Nat.toDigits 10 (n / 10 ^ places)
  let fraction :=
    ((Nat.toDigits 10 (n % 10 ^ places)).leftpad places '0').rdropWhile (· == '0')
  have hwhole : ∀ c ∈ whole, c.isDigit = true := toDigits_digits _
  have hne : whole ≠ [] := Nat.toDigits_ne_nil
  have hfraction : ∀ c ∈ fraction, c.isDigit = true := fun c hc =>
    leftpad_digits (toDigits_digits _) places c ((List.rdropWhile_prefix _ _).subset hc)
  have hmantissa : mantissa whole fraction = n / 10 ^ places := by
    rw [mantissa_dropZeros, mantissa_fixed]
  have htext : fixed n places ++ rest =
      whole ++ ((if fraction = [] then [] else '.' :: fraction) ++ rest) := by
    rw [fixed, List.append_assoc]
  have hplain : ∀ c ∈ ((if fraction = [] then [] else '.' :: fraction) ++ rest).head?,
      c.toLower ≠ 'x' := by
    intro c hc
    by_cases hnil : fraction = []
    · rw [if_pos hnil, List.nil_append] at hc
      exact (hrest c hc).2.2
    · rw [if_neg hnil, List.cons_append, List.head?_cons] at hc
      obtain rfl := Option.some.inj hc
      decide
  rw [htext, readMagnitude_digits whole _ hwhole hne hplain,
    readDecimal_parts hne hwhole hfraction (fun c hc => ⟨(hrest c hc).1, (hrest c hc).2.1⟩),
    hmantissa]

theorem readInt_exponent (e : Int) :
    readInt ((if e < 0 then '-' else '+') :: (Nat.toDigits 10 e.natAbs).leftpad 2 '0') =
      some e := by
  have hread : readNat ((Nat.toDigits 10 e.natAbs).leftpad 2 '0') = some e.natAbs := by
    have hne : (Nat.toDigits 10 e.natAbs).leftpad 2 '0' ≠ [] := by
      intro hnil
      have hpos := Nat.length_toDigits_pos (b := 10) (n := e.natAbs)
      have hlength := congrArg List.length hnil
      rw [List.length_leftpad, List.length_nil] at hlength
      omega
    rw [readNat, if_pos ⟨hne, List.all_eq_true.mpr
      (leftpad_digits (toDigits_digits _) 2)⟩, ofDigitChars_leftpad,
      Nat.ofDigitChars_ten_toDigits]
  by_cases hneg : e < 0
  · rw [if_pos hneg, readInt, signed, hread]
    simp only [Option.map_some, Option.some.injEq]
    show -((e.natAbs : Nat) : Int) = e
    omega
  · rw [if_neg hneg, readInt, signed, hread]
    simp only [Option.map_some, Option.some.injEq]
    show ((e.natAbs : Nat) : Int) = e
    omega

end Fixed

section Significant

/-- The 14 digits of a rounded number. -/
theorem significant_digits {r : ℚ} (hr : 0 ≤ r) (hround : significant.nearest r = r) :
    (((roundEven (r / power 10 (Int.log 10 r - 13))).toNat : Nat) : ℚ) *
      10 ^ (Int.log 10 r - 13) = r := by
  have hexponent : significant.exponent r = Int.log 10 r - 13 := by
    show Int.log 10 r + 1 - ((14 : Nat) : Int) = Int.log 10 r - 13
    omega
  have hvalue := hround
  rw [significant.nearest_eq, hexponent] at hvalue
  have hbase : ((significant.base : Nat) : ℚ) = 10 := by
    show ((10 : Nat) : ℚ) = 10
    norm_num
  rw [hbase] at hvalue
  have hpower : power 10 (Int.log 10 r - 13) = 10 ^ (Int.log 10 r - 13) := by
    rw [power_eq]
    norm_num
  rw [hpower]
  have hfloor : 0 ≤ ⌊r / (10 : ℚ) ^ (Int.log 10 r - 13)⌋ :=
    Int.floor_nonneg.mpr (by positivity)
  have hdigits := hfloor.trans (floor_le_roundEven _)
  have hcast : ((roundEven (r / (10 : ℚ) ^ (Int.log 10 r - 13))).toNat : ℚ) =
      (roundEven (r / (10 : ℚ) ^ (Int.log 10 r - 13)) : ℚ) := by
    exact_mod_cast congrArg (Int.cast (R := ℚ)) (Int.toNat_of_nonneg hdigits)
  rw [hcast]
  exact hvalue

/-- A printed value is read as the value rounded to 14 digits. -/
theorem readMagnitude_print {x : ℚ} (hx : 0 ≤ x) :
    readMagnitude (printMagnitude x) = some (significant.nearest x) := by
  have hdigits := significant_digits (significant.nearest_nonneg hx)
    (significant.nearest_nearest hx)
  unfold printMagnitude
  dsimp only
  generalize significant.nearest x = r at hdigits ⊢
  generalize (roundEven (r / power 10 (Int.log 10 r - 13))).toNat = n at hdigits ⊢
  generalize Int.log 10 r = e at hdigits ⊢
  split
  · next hplain =>
    have hnothing : ∀ c ∈ ([] : List Char).head?,
        c.isDigit = false ∧ c ≠ '.' ∧ c.toLower ≠ 'x' := by
      simp
    have hread := readMagnitude_fixed n (13 - e).toNat hnothing
    rw [List.append_nil] at hread
    rw [hread, readExponent, ← hdigits, div_eq_mul_inv, ← zpow_natCast, ← zpow_neg]
    have hplaces : -(((13 - e).toNat : Nat) : Int) = e - 13 := by
      omega
    rw [hplaces]
  · have hmark : ∀ c ∈ (exponentText e).head?,
        c.isDigit = false ∧ c ≠ '.' ∧ c.toLower ≠ 'x' := by
      intro c hc
      obtain rfl : 'e' = c := Option.some.inj hc
      decide
    rw [readMagnitude_fixed n 13 hmark, exponentText, readExponent, if_pos (by decide), readInt_exponent,
      Option.map_some, ← hdigits,
      zpow_sub₀ (by norm_num)]
    have hpower : (10 : ℚ) ^ (13 : Int) = 10 ^ 13 := by
      exact_mod_cast zpow_natCast (10 : ℚ) 13
    rw [hpower]
    congr 1
    ring

/-- What is printed without an exponent is below 10^14. -/
theorem printMagnitude_lt {x : ℚ} (h : 'e' ∉ printMagnitude x) :
    significant.nearest x < 10 ^ 14 := by
  unfold printMagnitude at h
  dsimp only at h
  split at h
  · next hplain =>
    have hlog := Int.lt_zpow_succ_log_self (b := 10) (by decide) (significant.nearest x)
    have hpower : ((10 : Nat) : ℚ) ^ (Int.log 10 (significant.nearest x) + 1) ≤ 10 ^ (14 : Int) := by
      apply zpow_le_zpow_right₀ (by norm_num)
      omega
    exact_mod_cast hlog.trans_le hpower
  · exact absurd (List.mem_append_right _ List.mem_cons_self) h

/-- An integer of at most 14 digits is printed as such. -/
theorem printMagnitude_natCast {n : Nat} (h : n < 10 ^ 14) :
    printMagnitude n = Nat.toDigits 10 n := by
  have hround : significant.nearest n = n :=
    significant.nearest_natCast (fun _ hmem => by cases hmem) h
  have hdigits := significant_digits (r := n) (by positivity) hround
  unfold printMagnitude
  dsimp only
  rw [hround]
  generalize (roundEven ((n : ℚ) / power 10 (Int.log 10 (n : ℚ) - 13))).toNat = m at hdigits ⊢
  have hlog : 0 ≤ Int.log 10 (n : ℚ) ∧ Int.log 10 (n : ℚ) < 14 := by
    rcases Nat.eq_zero_or_pos n with rfl | hpos
    · simp
    · have hone : (1 : ℚ) ≤ n := by exact_mod_cast hpos
      have hlow : Int.log 10 (1 : ℚ) ≤ Int.log 10 (n : ℚ) :=
        Int.log_mono_right one_pos hone
      rw [Int.log_one_right] at hlow
      refine ⟨hlow, ?_⟩
      apply (Int.lt_zpow_iff_log_lt (by decide) (by linarith)).mp
      exact_mod_cast h
  generalize Int.log 10 (n : ℚ) = e at hdigits hlog ⊢
  obtain ⟨hlow, hhigh⟩ := hlog
  have hvalue : m = n * 10 ^ (13 - e).toNat := by
    have hplaces : e - 13 = -(((13 - e).toNat : Nat) : Int) := by
      omega
    rw [hplaces, zpow_neg, zpow_natCast, mul_inv_eq_iff_eq_mul₀ (by positivity)] at hdigits
    exact_mod_cast hdigits
  rw [if_pos ⟨by omega, hhigh⟩, fixed, hvalue, Nat.mul_mod_left,
    Nat.mul_div_cancel _ (by positivity)]
  have hzeros : ((Nat.toDigits 10 0).leftpad (13 - e).toNat '0').rdropWhile (· == '0') = [] := by
    apply List.rdropWhile_eq_nil_iff.mpr
    intro c hc
    rcases List.mem_append.mp hc with hzero | hzero
    · rw [List.eq_of_mem_replicate hzero]
      rfl
    · rw [Nat.toDigits_zero, List.mem_singleton] at hzero
      rw [hzero]
      rfl
  rw [hzeros, if_pos rfl, List.append_nil]

end Significant

end GameAcc.Numeral
