import Mathlib.Tactic
import Mathlib.Data.Rat.Floor
import Mathlib.Data.Int.Log

/-!
Positional formats and the number of a format that is nearest to a rational: so
many digits in some base, and for the binary formats a smallest last place.
Values are not negative: a sign is put in front of the rounded magnitude.

Rounding is monotone, it keeps what the format has, and it changes an integer
part only next to an integer.
-/

namespace GameAcc.Rounding

section Even

/-- The nearest integer; of two the even one. -/
def roundEven (x : ℚ) : Int :=
  let n := ⌊x⌋
  if x - n < 1 / 2 then n
  else if 1 / 2 < x - n then n + 1
  else if n % 2 = 0 then n
  else n + 1

theorem floor_le_roundEven (x : ℚ) : ⌊x⌋ ≤ roundEven x := by
  unfold roundEven
  dsimp only
  split_ifs <;> omega

theorem roundEven_le_floor (x : ℚ) : roundEven x ≤ ⌊x⌋ + 1 := by
  unfold roundEven
  dsimp only
  split_ifs <;> omega

theorem roundEven_le (x : ℚ) : (roundEven x : ℚ) ≤ x + 1 / 2 := by
  have hfloor : (⌊x⌋ : ℚ) ≤ x := Int.floor_le x
  unfold roundEven
  dsimp only
  split_ifs with hdown hup
  · linarith
  · push_cast
    linarith
  · linarith
  · push_cast
    linarith

@[simp] theorem roundEven_intCast (n : Int) : roundEven n = n := by
  simp [roundEven]

theorem roundEven_mono {x y : ℚ} (h : x ≤ y) : roundEven x ≤ roundEven y := by
  rcases (Int.floor_mono h).eq_or_lt with heq | hlt
  · unfold roundEven
    dsimp only
    rw [← heq]
    split_ifs <;> first | omega | linarith
  · have hx := roundEven_le_floor x
    have hy := floor_le_roundEven y
    omega

end Even

/-- A power of a base. -/
def power (base : Nat) (k : Int) : ℚ :=
  if 0 ≤ k then ((base ^ k.toNat : Nat) : ℚ) else 1 / ((base ^ (-k).toNat : Nat) : ℚ)

theorem power_eq (base : Nat) (k : Int) : power base k = (base : ℚ) ^ k := by
  unfold power
  split
  · next hk =>
    obtain ⟨n, rfl⟩ := Int.eq_ofNat_of_zero_le hk
    simp
  · next hk =>
    obtain ⟨n, hn⟩ := Int.eq_ofNat_of_zero_le (by omega : 0 ≤ -k)
    obtain rfl : k = -(n : Int) := by omega
    simp

/-- A number of digits in a base; the last place may be bounded below. -/
structure Format where
  base : Nat
  precision : Nat
  least : Option Int
  base_gt : 1 < base
  precision_pos : 0 < precision

namespace Format

variable (format : Format)

/-- The exponent of the last place of the numbers next to a value. -/
def exponent (x : ℚ) : Int :=
  let e := Int.log format.base x + 1 - format.precision
  format.least.elim e (max e)

def nearest (x : ℚ) : ℚ :=
  let e := format.exponent x
  roundEven (x / power format.base e) * power format.base e

theorem base_pos : (0 : ℚ) < format.base := by
  have := format.base_gt
  positivity

theorem one_le_base : (1 : ℚ) ≤ format.base := by
  have := format.base_gt
  exact_mod_cast this.le

theorem unit_pos (k : Int) : (0 : ℚ) < (format.base : ℚ) ^ k := zpow_pos format.base_pos k

section Exponent

theorem exponent_eq (x : ℚ) :
    format.exponent x = Int.log format.base x + 1 - format.precision ∨
      ∃ least ∈ format.least, format.exponent x = least ∧
        Int.log format.base x + 1 - format.precision ≤ least := by
  unfold exponent
  dsimp only
  cases hleast : format.least with
  | none => exact .inl rfl
  | some least =>
    rcases le_total (Int.log format.base x + 1 - format.precision) least with hle | hle
    · exact .inr ⟨least, rfl, max_eq_right hle, hle⟩
    · exact .inl (max_eq_left hle)

theorem log_le_exponent (x : ℚ) :
    Int.log format.base x + 1 - format.precision ≤ format.exponent x := by
  rcases format.exponent_eq x with heq | ⟨_, _, heq, hle⟩
  · exact heq.ge
  · rw [heq]
    exact hle

theorem least_le_exponent {least : Int} (h : format.least = some least) (x : ℚ) :
    least ≤ format.exponent x := by
  simp [exponent, h]

theorem exponent_le {x : ℚ} {k : Int}
    (hlog : Int.log format.base x + 1 - format.precision ≤ k)
    (hleast : ∀ least ∈ format.least, least ≤ k) : format.exponent x ≤ k := by
  rcases format.exponent_eq x with heq | ⟨least, hmem, heq, _⟩
  · rw [heq]
    exact hlog
  · rw [heq]
    exact hleast least hmem

theorem exponent_mono {x y : ℚ} (hx : 0 < x) (h : x ≤ y) :
    format.exponent x ≤ format.exponent y := by
  have hlog := Int.log_mono_right (b := format.base) hx h
  have hy := format.log_le_exponent y
  apply format.exponent_le
  · omega
  · exact fun least hmem => format.least_le_exponent hmem y

end Exponent

section Nearest

theorem nearest_eq (x : ℚ) :
    format.nearest x = roundEven (x / (format.base : ℚ) ^ format.exponent x) *
      (format.base : ℚ) ^ format.exponent x := by
  rw [nearest, power_eq]

@[simp] theorem nearest_zero : format.nearest 0 = 0 := by
  simp [nearest, roundEven]

theorem nearest_nonneg {x : ℚ} (hx : 0 ≤ x) : 0 ≤ format.nearest x := by
  have hfloor : 0 ≤ ⌊x / (format.base : ℚ) ^ format.exponent x⌋ :=
    Int.floor_nonneg.mpr (div_nonneg hx (format.unit_pos _).le)
  have hround := hfloor.trans (floor_le_roundEven _)
  rw [format.nearest_eq]
  exact mul_nonneg (by exact_mod_cast hround) (format.unit_pos _).le

/-- A multiple of a place is one of every place below it. -/
theorem multiple_of_le {j k : Int} (h : j ≤ k) (n : Int) :
    ∃ m : Int, (n : ℚ) * (format.base : ℚ) ^ k = m * (format.base : ℚ) ^ j := by
  obtain ⟨d, hd⟩ := Int.eq_ofNat_of_zero_le (by omega : 0 ≤ k - j)
  refine ⟨n * format.base ^ d, ?_⟩
  have hk : k = d + j := by
    omega
  rw [hk, zpow_add₀ format.base_pos.ne', zpow_natCast]
  push_cast
  ring

theorem nearest_le_multiple {x : ℚ} {k n : Int} (hk : format.exponent x ≤ k)
    (h : x ≤ n * (format.base : ℚ) ^ k) : format.nearest x ≤ n * (format.base : ℚ) ^ k := by
  obtain ⟨m, hm⟩ := format.multiple_of_le hk n
  rw [hm] at h ⊢
  have hscaled := (div_le_iff₀ (format.unit_pos _)).mpr h
  have hround := roundEven_mono hscaled
  rw [roundEven_intCast] at hround
  rw [format.nearest_eq]
  exact mul_le_mul_of_nonneg_right (by exact_mod_cast hround) (format.unit_pos _).le

theorem multiple_le_nearest {x : ℚ} {k n : Int} (hk : format.exponent x ≤ k)
    (h : n * (format.base : ℚ) ^ k ≤ x) : n * (format.base : ℚ) ^ k ≤ format.nearest x := by
  obtain ⟨m, hm⟩ := format.multiple_of_le hk n
  rw [hm] at h ⊢
  have hscaled := (le_div_iff₀ (format.unit_pos _)).mpr h
  have hround := roundEven_mono hscaled
  rw [roundEven_intCast] at hround
  rw [format.nearest_eq]
  exact mul_le_mul_of_nonneg_right (by exact_mod_cast hround) (format.unit_pos _).le

/-- Rounding keeps what the format has. -/
theorem nearest_multiple {x : ℚ} {k n : Int} (hk : format.exponent x ≤ k)
    (h : x = n * (format.base : ℚ) ^ k) : format.nearest x = x := by
  apply le_antisymm
  · rw [h]
    exact (h ▸ format.nearest_le_multiple hk h.le)
  · rw [h]
    exact (h ▸ format.multiple_le_nearest hk h.ge)

theorem power_log_le {x : ℚ} (hx : 0 < x) :
    (format.base : ℚ) ^ Int.log format.base x ≤ x :=
  Int.zpow_log_le_self format.base_gt hx

theorem lt_power_log (x : ℚ) : x < (format.base : ℚ) ^ (Int.log format.base x + 1) :=
  Int.lt_zpow_succ_log_self format.base_gt x

theorem log_power (k : Int) : Int.log format.base ((format.base : ℚ) ^ k) = k :=
  Int.log_zpow format.base_gt k

theorem nearest_mono {x y : ℚ} (hx : 0 ≤ x) (h : x ≤ y) :
    format.nearest x ≤ format.nearest y := by
  rcases hx.eq_or_lt with rfl | hpos
  · rw [nearest_zero]
    exact format.nearest_nonneg h
  have hy := hpos.trans_le h
  rcases (format.exponent_mono hpos h).eq_or_lt with heq | hlt
  · have hscaled : x / (format.base : ℚ) ^ format.exponent y ≤
        y / (format.base : ℚ) ^ format.exponent y :=
      div_le_div_of_nonneg_right h (format.unit_pos _).le
    rw [format.nearest_eq, format.nearest_eq, heq]
    exact mul_le_mul_of_nonneg_right (by exact_mod_cast roundEven_mono hscaled)
      (format.unit_pos _).le
  · -- the first power of the base up to the greater value stands between them
    have hey : format.exponent y = Int.log format.base y + 1 - format.precision := by
      rcases format.exponent_eq y with heq | ⟨least, hmem, heq, _⟩
      · exact heq
      · have hleast := format.least_le_exponent hmem x
        omega
    have hprecision := format.precision_pos
    have hlog : Int.log format.base x < Int.log format.base y := by
      have hle := format.log_le_exponent x
      omega
    have hbetween : x ≤ (1 : Int) * (format.base : ℚ) ^ Int.log format.base y := by
      have hupper := format.lt_power_log x
      have hpower : (format.base : ℚ) ^ (Int.log format.base x + 1) ≤
          (format.base : ℚ) ^ Int.log format.base y :=
        zpow_le_zpow_right₀ format.one_le_base (by omega)
      push_cast
      linarith
    have hlow : (1 : Int) * (format.base : ℚ) ^ Int.log format.base y ≤ y := by
      push_cast
      rw [one_mul]
      exact format.power_log_le hy
    exact (format.nearest_le_multiple (by omega) hbetween).trans
      (format.multiple_le_nearest (by omega) hlow)

/-- A power of the base that is not below the last place is in the format. -/
theorem exponent_power_le {k : Int} (h : ∀ least ∈ format.least, least ≤ k) :
    format.exponent ((format.base : ℚ) ^ k) ≤ k := by
  have hprecision := format.precision_pos
  apply format.exponent_le
  · rw [format.log_power]
    omega
  · exact h

theorem nearest_nearest {x : ℚ} (hx : 0 ≤ x) :
    format.nearest (format.nearest x) = format.nearest x := by
  rcases hx.eq_or_lt with rfl | hpos
  · rw [nearest_zero, nearest_zero]
  rcases (format.nearest_nonneg hx).eq_or_lt with hzero | hround
  · rw [← hzero, nearest_zero]
  have hprecision := format.precision_pos
  have hleast : ∀ least ∈ format.least, least ≤ format.exponent x :=
    fun least hmem => format.least_le_exponent hmem x
  rcases le_or_gt (Int.log format.base (format.nearest x)) (Int.log format.base x) with hlog | hlog
  · have hexponent : format.exponent (format.nearest x) ≤ format.exponent x := by
      have hle := format.log_le_exponent x
      exact format.exponent_le (by omega) hleast
    exact format.nearest_multiple hexponent (format.nearest_eq x)
  · -- the value was rounded up to a power of the base
    have hreach : (format.base : ℚ) ^ (Int.log format.base x + 1) ≤ format.nearest x :=
      (Int.zpow_le_iff_le_log format.base_gt hround).mpr (by omega)
    let k := max (Int.log format.base x + 1) (format.exponent x)
    have hk : ∀ least ∈ format.least, least ≤ k :=
      fun least hmem => (hleast least hmem).trans (le_max_right _ _)
    have hbelow : format.nearest x ≤ (1 : Int) * (format.base : ℚ) ^ k := by
      apply format.nearest_le_multiple (le_max_right _ _)
      have hupper := format.lt_power_log x
      have hpower : (format.base : ℚ) ^ (Int.log format.base x + 1) ≤ (format.base : ℚ) ^ k :=
        zpow_le_zpow_right₀ format.one_le_base (le_max_left _ _)
      push_cast
      linarith
    have hvalue : format.nearest x = (1 : Int) * (format.base : ℚ) ^ k := by
      apply le_antisymm hbelow
      rcases le_total (format.exponent x) (Int.log format.base x + 1) with hle | hle
      · have hmax : k = Int.log format.base x + 1 := max_eq_left hle
        rw [hmax]
        push_cast
        rw [one_mul]
        exact hreach
      · have hmax : k = format.exponent x := max_eq_right hle
        rw [format.nearest_eq] at hround ⊢
        rw [hmax]
        have hmultiple := (mul_pos_iff_of_pos_right (format.unit_pos _)).mp hround
        have hone : (1 : Int) ≤ roundEven (x / (format.base : ℚ) ^ format.exponent x) := by
          exact_mod_cast hmultiple
        exact mul_le_mul_of_nonneg_right (by exact_mod_cast hone) (format.unit_pos _).le
    apply format.nearest_multiple _ hvalue
    rw [hvalue]
    push_cast
    rw [one_mul]
    exact format.exponent_power_le hk

/-- Integers of so many digits are in the format. -/
theorem nearest_natCast {n : Nat} (hleast : ∀ least ∈ format.least, least ≤ 0)
    (h : n < format.base ^ format.precision) : format.nearest n = n := by
  rcases Nat.eq_zero_or_pos n with rfl | hpos
  · simp
  have hcast : (0 : ℚ) < n := by
    exact_mod_cast hpos
  have hlog : Int.log format.base (n : ℚ) < format.precision := by
    apply (Int.lt_zpow_iff_log_lt format.base_gt hcast).mp
    rw [zpow_natCast]
    exact_mod_cast h
  have hexponent : format.exponent n ≤ 0 := format.exponent_le (by omega) hleast
  apply format.nearest_multiple hexponent (n := n)
  simp

end Nearest

section Signed

/-- The nearest number on the value's side of 0. -/
def signedNearest (x : ℚ) : ℚ :=
  if 0 ≤ x then format.nearest x else -format.nearest (-x)

theorem signedNearest_mono {x y : ℚ} (h : x ≤ y) :
    format.signedNearest x ≤ format.signedNearest y := by
  unfold signedNearest
  rcases le_or_gt 0 x with hx | hx
  · rw [if_pos hx, if_pos (hx.trans h)]
    exact format.nearest_mono hx h
  rw [if_neg (not_le.mpr hx)]
  rcases le_or_gt 0 y with hy | hy
  · rw [if_pos hy]
    have hleft := format.nearest_nonneg (neg_nonneg.mpr hx.le)
    have hright := format.nearest_nonneg hy
    linarith
  · rw [if_neg (not_le.mpr hy)]
    exact neg_le_neg (format.nearest_mono (neg_nonneg.mpr hy.le) (neg_le_neg h))

theorem signedNearest_intCast {n : Int} (hleast : ∀ least ∈ format.least, least ≤ 0)
    (h : n.natAbs < format.base ^ format.precision) : format.signedNearest n = n := by
  unfold signedNearest
  have habs := format.nearest_natCast hleast h
  rcases le_or_gt 0 n with hn | hn
  · have hcast : ((n.natAbs : Nat) : ℚ) = n := by
      rw [Nat.cast_natAbs, abs_of_nonneg hn]
    rw [if_pos (by exact_mod_cast hn), ← hcast]
    exact habs
  · have hcast : ((n.natAbs : Nat) : ℚ) = -n := by
      rw [Nat.cast_natAbs, abs_of_neg hn, Int.cast_neg]
    rw [if_neg (not_le.mpr (by exact_mod_cast hn)), ← hcast, habs, hcast, neg_neg]

end Signed

section Error

theorem nearest_le (x : ℚ) :
    format.nearest x ≤ x + (format.base : ℚ) ^ format.exponent x / 2 := by
  have hpos := format.unit_pos (format.exponent x)
  have hround := roundEven_le (x / (format.base : ℚ) ^ format.exponent x)
  have hscaled := mul_le_mul_of_nonneg_right hround hpos.le
  rw [add_mul, div_mul_cancel₀ x hpos.ne'] at hscaled
  rw [format.nearest_eq]
  linarith

/-- Rounding does not go below an integer where the last place is not worth more
than one. -/
theorem floor_le_nearest {x : ℚ} (h : format.exponent x ≤ 0) :
    (⌊x⌋ : ℚ) ≤ format.nearest x := by
  have hfloor : (⌊x⌋ : ℚ) * (format.base : ℚ) ^ (0 : Int) ≤ x := by
    rw [zpow_zero, mul_one]
    exact Int.floor_le x
  have hle := format.multiple_le_nearest h hfloor
  rwa [zpow_zero, mul_one] at hle

/-- The rounding error is at most half of the last place, which is relative to
the value where the last place is not bounded. -/
theorem half_place_le {x : ℚ} (hx : 0 < x)
    (h : format.exponent x = Int.log format.base x + 1 - format.precision) :
    (format.base : ℚ) ^ format.exponent x / 2 ≤
      x * format.base / (2 * format.base ^ format.precision) := by
  have hpower : (format.base : ℚ) ^ format.exponent x / 2 =
      (format.base : ℚ) ^ Int.log format.base x * format.base /
        (2 * format.base ^ format.precision) := by
    rw [h, zpow_sub₀ format.base_pos.ne', zpow_add_one₀ format.base_pos.ne', zpow_natCast]
    have hne : (format.base : ℚ) ^ format.precision ≠ 0 :=
      pow_ne_zero _ format.base_pos.ne'
    field_simp
  have hbase := format.base_pos
  rw [hpower]
  apply div_le_div_of_nonneg_right _ (by positivity)
  exact mul_le_mul_of_nonneg_right (format.power_log_le hx) hbase.le

/-- The rounded value lies between two integers when the value does and the
rounding error does not reach the upper one. -/
theorem floor_nearest_of_lt {x : ℚ} (h : format.exponent x ≤ 0)
    (hlt : x + (format.base : ℚ) ^ format.exponent x / 2 < ⌊x⌋ + 1) :
    ⌊format.nearest x⌋ = ⌊x⌋ :=
  Int.floor_eq_iff.mpr
    ⟨format.floor_le_nearest h, (format.nearest_le x).trans_lt hlt⟩

end Error

end Format

end GameAcc.Rounding
