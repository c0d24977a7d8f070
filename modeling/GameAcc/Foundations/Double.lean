import GameAcc.Foundations.Rounding
import Mathlib.Order.WithBot

/-!
IEEE 754 doubles: signed zeros, infinities, one NaN, and sums that are rounded
to the nearest double. A finite double carries the proof that it is one.

Comparisons look at the extended value, in which the two zeros are one number
and NaN has no place. Rounding is monotone there, and so are sums and
differences; integers below 2^53 are exact.
-/

namespace GameAcc

/-- A rational or an infinity. -/
abbrev Extended : Type := WithBot (WithTop ℚ)

namespace Extended

@[match_pattern] abbrev fin (q : ℚ) : Extended := WithBot.some (WithTop.some q)

theorem fin_le_fin {p q : ℚ} : fin p ≤ fin q ↔ p ≤ q := by simp

theorem fin_lt_fin {p q : ℚ} : fin p < fin q ↔ p < q := by simp

def neg : Extended → Extended
  | ⊥ => ⊤
  | ⊤ => ⊥
  | fin q => fin (-q)

end Extended

namespace Rounding

/-- The format of C's `double`. -/
def double : Format where
  base := 2
  precision := 53
  least := some (-1074)
  base_gt := by decide
  precision_pos := by decide

/-- The least power of two that is too great for a double. -/
def limit : ℚ := power 2 1024

theorem limit_pos : 0 < limit := by
  rw [limit, power_eq]
  positivity

theorem pow_le_limit {n : Nat} (h : n ≤ 1024) : (2 : ℚ) ^ n ≤ limit := by
  rw [limit, power_eq, ← zpow_natCast]
  exact zpow_le_zpow_right₀ one_le_two (by omega)

section Floor

theorem double_cases (x : ℚ) :
    double.exponent x = Int.log 2 x - 52 ∨
      double.exponent x = -1074 ∧ Int.log 2 x - 52 ≤ -1074 := by
  rcases double.exponent_eq x with heq | ⟨least, hmem, heq, hle⟩
  · refine .inl (heq.trans ?_)
    show Int.log 2 x + 1 - ((53 : Nat) : Int) = Int.log 2 x - 52
    omega
  · obtain rfl : -1074 = least := Option.some.inj hmem
    refine .inr ⟨heq, ?_⟩
    have hlog : Int.log 2 x + 1 - ((53 : Nat) : Int) ≤ -1074 := hle
    omega

/-- Below the smallest normal number nothing comes near to 1. -/
theorem floor_double_small {x : ℚ} (hx : 0 < x) (h : Int.log 2 x - 52 ≤ -1074)
    (hexponent : double.exponent x = -1074) : ⌊double.nearest x⌋ = ⌊x⌋ := by
  have hhalf : (2 : ℚ) ^ (-1 : Int) = 1 / 2 := by
    norm_num
  have hvalue : x < 1 / 2 :=
    calc x < ((2 : Nat) : ℚ) ^ (Int.log 2 x + 1) := Int.lt_zpow_succ_log_self (by decide) x
      _ ≤ 2 ^ (-1 : Int) := by
        push_cast
        exact zpow_le_zpow_right₀ one_le_two (by omega)
      _ = 1 / 2 := hhalf
  have herror : (2 : ℚ) ^ double.exponent x ≤ 1 / 2 := by
    rw [hexponent, ← hhalf]
    exact zpow_le_zpow_right₀ one_le_two (by omega)
  have hfloor : ⌊x⌋ = 0 := by
    apply Int.floor_eq_zero_iff.mpr
    exact ⟨hx.le, by linarith⟩
  apply double.floor_nearest_of_lt
  · omega
  · show x + ((2 : Nat) : ℚ) ^ double.exponent x / 2 < ⌊x⌋ + 1
    rw [hfloor]
    push_cast
    linarith

/-- A value that is not within its rounding error of the next integer keeps its
integer part. -/
theorem floor_double {x : ℚ} (hx : 0 ≤ x) (h : x + x / 2 ^ 53 < ⌊x⌋ + 1) :
    ⌊double.nearest x⌋ = ⌊x⌋ := by
  rcases hx.eq_or_lt with rfl | hpos
  · simp
  rcases double_cases x with hnormal | ⟨hexponent, hsmall⟩
  · have herror : ((2 : Nat) : ℚ) ^ double.exponent x / 2 ≤ x / 2 ^ 53 := by
      have hhalf := double.half_place_le hpos (by
        rw [hnormal]
        show _ = Int.log 2 x + 1 - ((53 : Nat) : Int)
        omega)
      refine hhalf.trans_eq ?_
      show x * ((2 : Nat) : ℚ) / (2 * ((2 : Nat) : ℚ) ^ 53) = x / 2 ^ 53
      push_cast
      ring
    apply double.floor_nearest_of_lt
    · -- otherwise the value is so large that its rounding error is 1 or more
      by_contra hlarge
      have hpower : (2 : ℚ) ^ 53 ≤ x := by
        have hlog : ((2 : Nat) : ℚ) ^ (53 : Int) ≤ x :=
          (Int.zpow_le_iff_le_log (by decide) hpos).mpr (by omega)
        exact_mod_cast hlog
      have hone : 1 ≤ x / 2 ^ 53 := (one_le_div (by positivity)).mpr hpower
      have hfloor := Int.floor_le x
      linarith
    · show x + ((2 : Nat) : ℚ) ^ double.exponent x / 2 < ⌊x⌋ + 1
      linarith
  · exact floor_double_small hpos hsmall hexponent

end Floor

section Signed

theorem double_least : ∀ least ∈ double.least, least ≤ 0 := by
  intro least hmem
  obtain rfl : -1074 = least := Option.some.inj hmem
  decide

theorem double_intCast {n : Int} (h : n.natAbs < 2 ^ 53) : double.signedNearest n = n :=
  double.signedNearest_intCast double_least h

/-- Values from the limit on become infinite. -/
def clamp (x : ℚ) : Extended :=
  if limit ≤ x then ⊤ else if x ≤ -limit then ⊥ else .fin x

theorem clamp_mono {x y : ℚ} (h : x ≤ y) : clamp x ≤ clamp y := by
  unfold clamp
  have hlimit := limit_pos
  split_ifs <;> first | exact le_top | exact bot_le | exact Extended.fin_le_fin.mpr h | linarith

theorem clamp_small {x : ℚ} (h : |x| < limit) : clamp x = .fin x := by
  obtain ⟨hlow, hhigh⟩ := abs_lt.mp h
  rw [clamp, if_neg (not_le.mpr hhigh), if_neg (not_le.mpr hlow)]

/-- The extended value of the nearest double. -/
def round (x : ℚ) : Extended := clamp (double.signedNearest x)

theorem round_mono {x y : ℚ} (h : x ≤ y) : round x ≤ round y :=
  clamp_mono (double.signedNearest_mono h)

theorem round_intCast {n : Int} (h : n.natAbs < 2 ^ 53) : round n = .fin n := by
  rw [round, double_intCast h]
  apply clamp_small
  have hcast : |(n : ℚ)| = n.natAbs := by
    rw [Nat.cast_natAbs, Int.cast_abs]
  rw [hcast]
  calc ((n.natAbs : Nat) : ℚ) < 2 ^ 53 := by exact_mod_cast h
    _ ≤ limit := pow_le_limit (by decide)

theorem round_le_intCast {n m : Int} (h : m.natAbs + 1 < 2 ^ 53) :
    round n ≤ .fin m ↔ n ≤ m := by
  constructor
  · intro hround
    by_contra hlt
    have hle := round_mono (x := ((m + 1 : Int) : ℚ)) (y := n) (by exact_mod_cast (by omega))
    rw [round_intCast (n := m + 1) (by omega)] at hle
    have hcast := Extended.fin_le_fin.mp (hle.trans hround)
    push_cast at hcast
    linarith
  · intro hle
    rw [← round_intCast (n := m) (by omega)]
    exact round_mono (by exact_mod_cast hle)

theorem intCast_le_round {n m : Int} (h : m.natAbs + 1 < 2 ^ 53) :
    .fin m ≤ round n ↔ m ≤ n := by
  constructor
  · intro hround
    by_contra hlt
    have hle := round_mono (x := n) (y := ((m - 1 : Int) : ℚ)) (by exact_mod_cast (by omega))
    rw [round_intCast (n := m - 1) (by omega)] at hle
    have hcast := Extended.fin_le_fin.mp (hround.trans hle)
    push_cast at hcast
    linarith
  · intro hle
    rw [← round_intCast (n := m) (by omega)]
    exact round_mono (by exact_mod_cast hle)

/-- No other integer is rounded to a small one. -/
theorem round_eq_intCast {n m : Int} (h : m.natAbs + 1 < 2 ^ 53) :
    round n = .fin m ↔ n = m := by
  rw [le_antisymm_iff, round_le_intCast h, intCast_le_round h, ← le_antisymm_iff]

/-- The integer is a double. -/
def isDouble (n : Int) : Bool := round n = .fin n

theorem isDouble_small {n : Int} (h : n.natAbs < 2 ^ 53) : isDouble n = true :=
  decide_eq_true (round_intCast h)

end Signed

end Rounding

open Rounding

/-- The magnitude of a finite double. -/
structure Magnitude where
  value : ℚ
  nonneg : 0 ≤ value
  bounded : value < limit
  representable : double.nearest value = value
  deriving DecidableEq

namespace Magnitude

def zero : Magnitude := ⟨0, le_rfl, limit_pos, double.nearest_zero⟩

def signed (negative : Bool) (magnitude : Magnitude) : ℚ :=
  if negative then -magnitude.value else magnitude.value

@[simp] theorem signed_zero (negative : Bool) : zero.signed negative = 0 := by
  cases negative
  · rfl
  · exact neg_zero

/-- The nearest finite magnitude; none where that is infinity. -/
def round (x : ℚ) : Option Magnitude :=
  if h : double.nearest |x| < limit then
    some ⟨double.nearest |x|, double.nearest_nonneg (abs_nonneg x), h,
      double.nearest_nearest (abs_nonneg x)⟩
  else none

theorem round_value (x : ℚ) :
    (round x).map value =
      if double.nearest |x| < limit then some (double.nearest |x|) else none := by
  by_cases h : double.nearest |x| < limit
  · have hround : round x = some ⟨_, double.nearest_nonneg (abs_nonneg x), h,
        double.nearest_nearest (abs_nonneg x)⟩ := dif_pos h
    rw [hround, Option.map_some, if_pos h]
  · have hround : round x = none := dif_neg h
    rw [hround, Option.map_none, if_neg h]

/-- A value that is not within its rounding error of the next integer has a
nearest finite magnitude, with its integer part. -/
theorem round_floor {x : ℚ} (hx : 0 ≤ x) (h : x + x / 2 ^ 53 < ⌊x⌋ + 1) :
    ∃ m, round x = some m ∧ ⌊m.value⌋ = ⌊x⌋ := by
  have hfloor := floor_double hx h
  have hlt : x < 2 ^ 53 := by
    have hle := Int.floor_le x
    rw [← div_lt_one (by positivity)]
    linarith
  have hinteger : ⌊x⌋ + 1 ≤ 2 ^ 53 := by
    apply Int.add_one_le_iff.mpr
    apply Int.floor_lt.mpr
    exact_mod_cast hlt
  have hbound : double.nearest x < limit :=
    calc double.nearest x < ⌊x⌋ + 1 := by rw [← hfloor]; exact Int.lt_floor_add_one _
      _ ≤ 2 ^ 53 := by exact_mod_cast hinteger
      _ ≤ limit := pow_le_limit (by decide)
  have hround := round_value x
  rw [abs_of_nonneg hx, if_pos hbound] at hround
  obtain ⟨m, hm, hvalue⟩ := Option.map_eq_some_iff.mp hround
  exact ⟨m, hm, by rw [hvalue, hfloor]⟩

/-- From 2^53 on there are integers only. -/
theorem integer_of_le (m : Magnitude) (h : 2 ^ 53 ≤ m.value) : ∃ n : Nat, m.value = n := by
  have hlog : (53 : Int) ≤ Int.log 2 m.value := by
    have hpos : (0 : ℚ) < 2 ^ 53 := by
      positivity
    have hmono := Int.log_mono_right (b := 2) hpos h
    have hpower : Int.log 2 ((2 : ℚ) ^ 53) = 53 := Int.log_zpow (R := ℚ) (b := 2) (by decide) 53
    rwa [hpower] at hmono
  obtain ⟨k, hk⟩ : ∃ k : Nat, double.exponent m.value = k := by
    apply Int.eq_ofNat_of_zero_le
    have hunbounded : 0 ≤ Int.log 2 m.value + 1 - ((53 : Nat) : Int) := by
      omega
    exact hunbounded.trans (le_max_left _ (-1074))
  have hvalue := m.representable
  rw [double.nearest_eq, hk, zpow_natCast] at hvalue
  have hbase : ((double.base : Nat) : ℚ) = 2 := rfl
  rw [hbase] at hvalue
  generalize roundEven (m.value / 2 ^ k) = digits at hvalue
  have hcast : ((digits * 2 ^ k : Int) : ℚ) = m.value := by
    rw [← hvalue]
    push_cast
    rfl
  refine ⟨(digits * 2 ^ k).toNat, ?_⟩
  have hnonneg : 0 ≤ digits * 2 ^ k := by
    have hm := m.nonneg
    rw [← hcast] at hm
    exact_mod_cast hm
  rw [← hcast]
  exact_mod_cast (Int.toNat_of_nonneg hnonneg).symm

/-- The integer part of a double is one. -/
theorem isDouble_floor (m : Magnitude) : isDouble ⌊m.value⌋ = true := by
  by_cases h : m.value < 2 ^ 53
  · apply isDouble_small
    have hfloor := Int.floor_nonneg.mpr m.nonneg
    have hlt : ⌊m.value⌋ < 2 ^ 53 := Int.floor_lt.mpr (by exact_mod_cast h)
    omega
  · obtain ⟨n, hn⟩ := m.integer_of_le (not_lt.mp h)
    have hfloor : ((⌊m.value⌋ : Int) : ℚ) = m.value := by
      rw [hn, Int.floor_natCast]
      rfl
    apply decide_eq_true
    rw [hfloor, Rounding.round, Format.signedNearest, if_pos m.nonneg, m.representable]
    exact clamp_small ((abs_of_nonneg m.nonneg).trans_lt m.bounded)

end Magnitude

inductive Double where
  | nan
  | infinity (negative : Bool)
  | finite (negative : Bool) (magnitude : Magnitude)
  deriving DecidableEq

namespace Double

section Values

/-- The finite value. -/
def rat : Double → Option ℚ
  | .finite negative magnitude => some (magnitude.signed negative)
  | _ => none

/-- What comparisons look at. -/
def extended : Double → Option Extended
  | .nan => none
  | .infinity negative => some (if negative then ⊥ else ⊤)
  | .finite negative magnitude => some (.fin (magnitude.signed negative))

/-- A magnitude, rounded, behind a sign. -/
def ofSigned (negative : Bool) (x : ℚ) : Double :=
  match Magnitude.round x with
  | some magnitude => .finite negative magnitude
  | none => .infinity negative

/-- The nearest double. -/
def ofRat (x : ℚ) : Double := ofSigned (decide (x < 0)) x

instance (n : Nat) : OfNat Double n := ⟨ofRat n⟩

theorem rat_eq_some {d : Double} {q : ℚ} : d.rat = some q ↔ d.extended = some (.fin q) := by
  cases d with
  | nan => simp [rat, extended]
  | infinity negative => cases negative <;> simp [rat, extended]
  | finite negative magnitude => simp [rat, extended]

theorem extended_ofSigned (negative : Bool) {x : ℚ} (hx : 0 ≤ x) :
    (ofSigned negative x).extended =
      some (clamp (if negative then -double.nearest x else double.nearest x)) := by
  have hround := Magnitude.round_value x
  rw [abs_of_nonneg hx] at hround
  have hnonneg := double.nearest_nonneg hx
  have hlimit := limit_pos
  unfold ofSigned
  by_cases hbound : double.nearest x < limit
  · rw [if_pos hbound] at hround
    obtain ⟨m, hm, hvalue⟩ := Option.map_eq_some_iff.mp hround
    rw [hm, extended, Magnitude.signed, hvalue, clamp_small]
    rw [abs_lt]
    cases negative <;> constructor <;> simp <;> linarith
  · rw [if_neg hbound, Option.map_eq_none_iff] at hround
    rw [hround, extended]
    cases negative with
    | false => simp [clamp, not_lt.mp hbound]
    | true =>
      have hlow : -double.nearest x ≤ -limit := neg_le_neg (not_lt.mp hbound)
      have hhigh : ¬limit ≤ -double.nearest x := by
        linarith
      simp [clamp, hhigh, not_lt.mp hbound]

@[simp] theorem extended_ofRat (x : ℚ) : (ofRat x).extended = some (Rounding.round x) := by
  have hsign : ofSigned (decide (x < 0)) x = ofSigned (decide (x < 0)) |x| := by
    simp [ofSigned, Magnitude.round]
  rw [ofRat, hsign, extended_ofSigned _ (abs_nonneg x), Rounding.round, Format.signedNearest]
  rcases le_or_gt 0 x with hx | hx
  · simp [hx, not_lt.mpr hx, abs_of_nonneg hx]
  · simp [hx, not_le.mpr hx, abs_of_neg hx]

theorem extended_ofInt {n : Int} (h : n.natAbs < 2 ^ 53) :
    (ofRat n).extended = some (.fin n) := by
  rw [extended_ofRat, round_intCast h]

theorem rat_ofInt {n : Int} (h : n.natAbs < 2 ^ 53) : (ofRat n).rat = some (n : ℚ) :=
  rat_eq_some.mpr (extended_ofInt h)

end Values

section Order

instance : LT Double := ⟨fun a b => ∃ x ∈ a.extended, ∃ y ∈ b.extended, x < y⟩

instance : LE Double := ⟨fun a b => ∃ x ∈ a.extended, ∃ y ∈ b.extended, x ≤ y⟩

instance (a b : Double) : Decidable (a < b) :=
  inferInstanceAs (Decidable (∃ x ∈ a.extended, ∃ y ∈ b.extended, x < y))

instance (a b : Double) : Decidable (a ≤ b) :=
  inferInstanceAs (Decidable (∃ x ∈ a.extended, ∃ y ∈ b.extended, x ≤ y))

variable {a b : Double} {x y : Extended}

theorem lt_iff (ha : a.extended = some x) (hb : b.extended = some y) : a < b ↔ x < y := by
  show (∃ x ∈ a.extended, ∃ y ∈ b.extended, x < y) ↔ x < y
  simp [ha, hb]

theorem le_iff (ha : a.extended = some x) (hb : b.extended = some y) : a ≤ b ↔ x ≤ y := by
  show (∃ x ∈ a.extended, ∃ y ∈ b.extended, x ≤ y) ↔ x ≤ y
  simp [ha, hb]

protected theorem not_lt (h : b ≤ a) : ¬a < b := by
  obtain ⟨y, hy, x, hx, hle⟩ := h
  rw [lt_iff hx hy]
  exact hle.not_gt

protected theorem lt_trans {c : Double} (hab : a < b) (hbc : b < c) : a < c := by
  obtain ⟨x, hx, y, hy, hxy⟩ := hab
  obtain ⟨y', hy', z, hz, hyz⟩ := hbc
  obtain rfl := Option.some.inj (hy.symm.trans hy')
  exact ⟨x, hx, z, hz, hxy.trans hyz⟩

protected theorem le_trans {c : Double} (hab : a ≤ b) (hbc : b ≤ c) : a ≤ c := by
  obtain ⟨x, hx, y, hy, hxy⟩ := hab
  obtain ⟨y', hy', z, hz, hyz⟩ := hbc
  obtain rfl : y = y' := Option.some.inj (hy.symm.trans hy')
  exact ⟨x, hx, z, hz, hxy.trans hyz⟩

end Order

section Arithmetic

instance : Neg Double := ⟨fun
  | .nan => .nan
  | .infinity negative => .infinity !negative
  | .finite negative magnitude => .finite (!negative) magnitude⟩

/-- The sum of two finite values; a sum 0 is negative when both are. -/
def addFinite (a : Bool) (m : Magnitude) (b : Bool) (n : Magnitude) : Double :=
  let sum := m.signed a + n.signed b
  if sum = 0 then .finite (a && b) .zero else ofRat sum

instance : Add Double := ⟨fun
  | .nan, _ => .nan
  | _, .nan => .nan
  | .infinity a, .infinity b => if a = b then .infinity a else .nan
  | .infinity a, .finite _ _ => .infinity a
  | .finite _ _, .infinity b => .infinity b
  | .finite a m, .finite b n => addFinite a m b n⟩

instance : Sub Double := ⟨fun a b => a + -b⟩

theorem sub_eq (a b : Double) : a - b = a + -b := rfl

/-- The sum of two extended values, rounded; opposite infinities have none. -/
def addExtended : Extended → Extended → Option Extended
  | ⊥, ⊤ => none
  | ⊤, ⊥ => none
  | ⊥, _ => some ⊥
  | _, ⊥ => some ⊥
  | ⊤, _ => some ⊤
  | _, ⊤ => some ⊤
  | .fin p, .fin q => some (Rounding.round (p + q))

def subExtended (x y : Extended) : Option Extended := addExtended x y.neg

theorem round_zero : Rounding.round 0 = .fin 0 := by
  have h := round_intCast (n := 0) (by decide)
  rwa [Int.cast_zero] at h

theorem extended_addFinite (a : Bool) (m : Magnitude) (b : Bool) (n : Magnitude) :
    (addFinite a m b n).extended = some (Rounding.round (m.signed a + n.signed b)) := by
  unfold addFinite
  dsimp only
  split
  · next hzero => rw [hzero, round_zero, extended, Magnitude.signed_zero]
  · exact extended_ofRat _

theorem extended_add (a b : Double) :
    (a + b).extended = a.extended.bind (fun x => b.extended.bind (addExtended x)) := by
  cases a with
  | nan => cases b <;> rfl
  | infinity negative =>
    cases b with
    | nan => rfl
    | infinity negative' => cases negative <;> cases negative' <;> rfl
    | finite negative' n => cases negative <;> rfl
  | finite negative m =>
    cases b with
    | nan => rfl
    | infinity negative' => cases negative' <;> rfl
    | finite negative' n => exact extended_addFinite negative m negative' n

theorem extended_neg (a : Double) : (-a).extended = a.extended.map Extended.neg := by
  cases a with
  | nan => rfl
  | infinity negative => cases negative <;> rfl
  | finite negative m =>
    show some (Extended.fin (m.signed !negative)) = some (Extended.fin (-m.signed negative))
    cases negative <;> simp [Magnitude.signed]

theorem extended_sub (a b : Double) :
    (a - b).extended = a.extended.bind (fun x => b.extended.bind (subExtended x)) := by
  rw [sub_eq, extended_add, extended_neg]
  cases b.extended <;> rfl

theorem subExtended_fin (p q : ℚ) :
    subExtended (.fin p) (.fin q) = some (Rounding.round (p - q)) := by
  show some (Rounding.round (p + -q)) = _
  rw [← sub_eq_add_neg]

/-- Less of a finite value remains when more is taken away. -/
theorem subExtended_antitone (p : ℚ) {y y' : Extended} (h : y ≤ y') :
    ∃ d ∈ subExtended (.fin p) y, ∃ d' ∈ subExtended (.fin p) y', d' ≤ d := by
  match y, y' with
  | ⊥, ⊥ => exact ⟨⊤, rfl, ⊤, rfl, le_rfl⟩
  | ⊥, ⊤ => exact ⟨⊤, rfl, ⊥, rfl, bot_le⟩
  | ⊥, .fin q' => exact ⟨⊤, rfl, _, subExtended_fin p q', le_top⟩
  | .fin q, .fin q' =>
    refine ⟨_, subExtended_fin p q, _, subExtended_fin p q', round_mono ?_⟩
    have hq := Extended.fin_le_fin.mp h
    linarith
  | .fin q, ⊤ => exact ⟨_, subExtended_fin p q, ⊥, rfl, bot_le⟩
  | ⊤, ⊤ => exact ⟨⊥, rfl, ⊥, rfl, le_rfl⟩
  | ⊤, ⊥ => exact absurd h (by simp)
  | ⊤, .fin _ => exact absurd h (by simp)
  | .fin _, ⊥ => exact absurd h (by simp)

/-- A sum of a value that is not negative and one from 1 on is one from 1 on. -/
theorem one_le_addExtended {x y : Extended} (hx : .fin 0 ≤ x) (hy : .fin 1 ≤ y) :
    ∃ z, addExtended x y = some z ∧ .fin 1 ≤ z := by
  match x, y with
  | ⊥, _ => exact absurd hx (by simp)
  | _, ⊥ => exact absurd hy (by simp)
  | ⊤, ⊤ => exact ⟨⊤, rfl, le_top⟩
  | ⊤, .fin _ => exact ⟨⊤, rfl, le_top⟩
  | .fin _, ⊤ => exact ⟨⊤, rfl, le_top⟩
  | .fin p, .fin q =>
    refine ⟨_, rfl, ?_⟩
    have hone := round_intCast (n := 1) (by decide)
    rw [Int.cast_one] at hone
    rw [← hone]
    apply round_mono
    have hp := Extended.fin_le_fin.mp hx
    have hq := Extended.fin_le_fin.mp hy
    linarith

end Arithmetic

section Near

/-- The difference of the first value and the second is up to a bound. -/
def Near (bound : ℚ) (x y : Extended) : Prop := ∃ d ∈ subExtended x y, d ≤ .fin bound

instance (bound : ℚ) (x y : Extended) : Decidable (Near bound x y) :=
  inferInstanceAs (Decidable (∃ d ∈ subExtended x y, d ≤ .fin bound))

variable {bound : ℚ} {x y x' y' : Extended}

theorem near_fin {p q : ℚ} :
    Near bound (.fin p) (.fin q) ↔ Rounding.round (p - q) ≤ .fin bound := by
  rw [Near, subExtended_fin]
  simp

theorem not_near_bot : ¬Near bound x ⊥ := by
  rintro ⟨d, hd, hle⟩
  match x with
  | ⊥ => cases hd
  | ⊤ =>
    obtain rfl : ⊤ = d := Option.some.inj hd
    exact absurd hle (by simp)
  | .fin p =>
    obtain rfl : ⊤ = d := Option.some.inj hd
    exact absurd hle (by simp)

theorem not_near_top : ¬Near bound ⊤ y := by
  rintro ⟨d, hd, hle⟩
  match y with
  | ⊥ => exact not_near_bot ⟨d, hd, hle⟩
  | ⊤ => cases hd
  | .fin q =>
    obtain rfl : ⊤ = d := Option.some.inj hd
    exact absurd hle (by simp)

theorem near_of_top (hx : x ≠ ⊤) : Near bound x ⊤ := by
  match x with
  | ⊥ => exact ⟨⊥, rfl, bot_le⟩
  | ⊤ => exact absurd rfl hx
  | .fin p => exact ⟨⊥, rfl, bot_le⟩

theorem near_bot (hy : y ≠ ⊥) : Near bound ⊥ y := by
  match y with
  | ⊥ => exact absurd rfl hy
  | ⊤ => exact ⟨⊥, rfl, bot_le⟩
  | .fin q => exact ⟨⊥, rfl, bot_le⟩

/-- A lesser value is near what a greater one is near, and near every greater
value than that. -/
theorem Near.mono (h : Near bound x y) (hx : x' ≤ x) (hy : y ≤ y') : Near bound x' y' := by
  have hxtop : x ≠ ⊤ := by
    rintro rfl
    exact not_near_top h
  have hybot : y ≠ ⊥ := by
    rintro rfl
    exact not_near_bot h
  have hx'top : x' ≠ ⊤ := fun htop => hxtop (top_le_iff.mp (htop ▸ hx))
  have hy'bot : y' ≠ ⊥ := fun hbot => hybot (le_bot_iff.mp (hbot ▸ hy))
  match x', y' with
  | ⊤, _ => exact absurd rfl hx'top
  | _, ⊥ => exact absurd rfl hy'bot
  | ⊥, _ => exact near_bot hy'bot
  | _, ⊤ => exact near_of_top hx'top
  | .fin p', .fin q' =>
    match x, y with
    | ⊤, _ => exact absurd rfl hxtop
    | _, ⊥ => exact absurd rfl hybot
    | ⊥, _ => exact absurd hx (by simp)
    | _, ⊤ => exact absurd hy (by simp)
    | .fin p, .fin q =>
      rw [near_fin] at h ⊢
      apply le_trans (round_mono _) h
      have hp := Extended.fin_le_fin.mp hx
      have hq := Extended.fin_le_fin.mp hy
      linarith

/-- A finite value is near itself. -/
theorem near_self (hbound : 0 ≤ bound) (q : ℚ) : Near bound (.fin q) (.fin q) := by
  rw [near_fin, sub_self, round_zero]
  exact Extended.fin_le_fin.mpr hbound

end Near

theorem sub_le_iff {a b c : Double} {x y : Extended} {bound : ℚ} (ha : a.extended = some x)
    (hb : b.extended = some y) (hc : c.extended = some (.fin bound)) :
    a - b ≤ c ↔ Near bound x y := by
  show (∃ d ∈ (a - b).extended, ∃ z ∈ c.extended, d ≤ z) ↔ _
  rw [extended_sub, ha, hb, hc]
  simp [Near]

end Double

end GameAcc
