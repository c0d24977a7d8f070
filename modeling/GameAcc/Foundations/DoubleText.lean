import GameAcc.Foundations.Decimal
import GameAcc.Foundations.Double

/-!
Doubles in text: what `%.14g` prints, and what `strtod` and Lua's `tonumber`
read of a whole text. A printed double is read back as its value rounded to 14
digits, which keeps the order of doubles and tells 0 from everything else.
-/

namespace GameAcc

namespace Rounding

theorem clamp_neg (x : ℚ) : clamp (-x) = (clamp x).neg := by
  have hlimit := limit_pos
  unfold clamp
  split_ifs <;> first | rfl | linarith

theorem Format.signedNearest_neg (format : Format) (x : ℚ) :
    format.signedNearest (-x) = -format.signedNearest x := by
  unfold Format.signedNearest
  rcases lt_trichotomy x 0 with hx | rfl | hx
  · rw [if_pos (by linarith), if_neg (by linarith), neg_neg]
  · simp
  · rw [if_neg (by linarith), if_pos hx.le, neg_neg]

theorem round_neg (x : ℚ) : round (-x) = (round x).neg := by
  rw [round, Format.signedNearest_neg, clamp_neg, round]

end Rounding

namespace Double

open Rounding

section Text

/-- What `%.14g` prints. -/
def text : Double → String
  | .nan => "nan"
  | .infinity negative => if negative then "-inf" else "inf"
  | .finite negative magnitude =>
    String.ofList ((if negative then ['-'] else []) ++ Numeral.printMagnitude magnitude.value)

theorem ofRat_int {n : Int} (h : n.natAbs < 2 ^ 53) :
    ∃ m, ofRat n = .finite (decide (n < 0)) m ∧ m.value = n.natAbs := by
  have habs : |(n : ℚ)| = n.natAbs := by
    rw [Nat.cast_natAbs, Int.cast_abs]
  have hnearest : double.nearest (n.natAbs : ℚ) = n.natAbs :=
    double.nearest_natCast double_least h
  have hbound : (n.natAbs : ℚ) < limit :=
    calc (n.natAbs : ℚ) < 2 ^ 53 := by exact_mod_cast h
      _ ≤ limit := pow_le_limit (by decide)
  have hround := Magnitude.round_value (n : ℚ)
  rw [habs, hnearest, if_pos hbound] at hround
  obtain ⟨m, hm, hvalue⟩ := Option.map_eq_some_iff.mp hround
  refine ⟨m, ?_, hvalue⟩
  rw [ofRat, ofSigned, hm]
  simp

/-- Integers of at most 14 digits are printed as such. -/
theorem text_ofInt {n : Int} (h : n.natAbs < 10 ^ 14) : (ofRat n).text = Numeral.decimal n := by
  obtain ⟨m, hm, hvalue⟩ := ofRat_int (n := n) (h.trans (by decide))
  apply String.toList_injective
  rw [hm, text, hvalue, Numeral.printMagnitude_natCast h, String.toList_ofList,
    Numeral.decimal_toList]
  by_cases hn : 0 ≤ n
  · have habs : n.natAbs = n.toNat := by
      omega
    simp [hn, habs, not_lt.mpr hn]
  · have habs : n.natAbs = (-n).toNat := by
      omega
    simp [hn, habs, not_le.mp hn]

theorem printMagnitude_chars (x : ℚ) : ∀ c ∈ Numeral.printMagnitude x,
    c.isDigit = true ∨ c = '.' ∨ c = 'e' ∨ c = '+' ∨ c = '-' := by
  have hfixed : ∀ n places : Nat, ∀ c ∈ Numeral.fixed n places,
      c.isDigit = true ∨ c = '.' := by
    intro n places c hc
    unfold Numeral.fixed at hc
    dsimp only at hc
    rcases List.mem_append.mp hc with hwhole | hfraction
    · exact .inl (Numeral.toDigits_digits _ c hwhole)
    · split at hfraction
      · cases hfraction
      · rcases List.mem_cons.mp hfraction with rfl | hdigit
        · exact .inr rfl
        · exact .inl (Numeral.leftpad_digits (Numeral.toDigits_digits _) places c
            ((List.rdropWhile_prefix _ _).subset hdigit))
  intro c hc
  unfold Numeral.printMagnitude at hc
  dsimp only at hc
  split at hc
  · have hcase := hfixed _ _ c hc
    tauto
  · rcases List.mem_append.mp hc with hc | hc
    · have hcase := hfixed _ _ c hc
      tauto
    · rcases List.mem_cons.mp hc with rfl | hc
      · tauto
      · rcases List.mem_cons.mp hc with rfl | hc
        · split <;> tauto
        · exact .inl (Numeral.leftpad_digits (Numeral.toDigits_digits _) 2 c hc)

theorem printMagnitude_head (x : ℚ) :
    ∃ d rest, Numeral.printMagnitude x = d :: rest ∧ d.isDigit = true := by
  have hfixed : ∀ n places tail, ∃ d rest, Numeral.fixed n places ++ tail = d :: rest ∧
      d.isDigit = true := by
    intro n places tail
    obtain ⟨d, rest, hdigits⟩ :=
      List.exists_cons_of_ne_nil (Nat.toDigits_ne_nil (n := n / 10 ^ places) (b := 10))
    have hd : d.isDigit = true := Numeral.toDigits_digits _ d (hdigits ▸ List.mem_cons_self)
    exact ⟨d, _, by rw [Numeral.fixed, hdigits, List.cons_append, List.cons_append], hd⟩
  unfold Numeral.printMagnitude
  dsimp only
  split
  · have h := hfixed (roundEven (Numeral.significant.nearest x /
      power 10 (Int.log 10 (Numeral.significant.nearest x) - 13))).toNat
      (13 - Int.log 10 (Numeral.significant.nearest x)).toNat []
    rwa [List.append_nil] at h
  · exact hfixed _ _ _

end Text

section Read

/-- The values without digits. -/
def special : List (String × Double) :=
  [("inf", .infinity false), ("infinity", .infinity false), ("nan", .nan)]

def readUnsigned (cs : List Char) : Option Double :=
  match Numeral.readMagnitude cs with
  | some q => some (ofRat q)
  | none => special.lookup (String.ofList (cs.map Char.toLower))

/-- A whole text read as a number. -/
def read : List Char → Option Double := Numeral.signed readUnsigned

theorem readUnsigned_of_readMagnitude {cs : List Char} {q : ℚ}
    (h : Numeral.readMagnitude cs = some q) : readUnsigned cs = some (ofRat q) := by
  rw [readUnsigned, h]

/-- A numeral is read as the nearest double. -/
theorem read_of_readRat {cs : List Char} {q : ℚ} (h : Numeral.readRat cs = some q) :
    ∃ d, read cs = some d ∧ d.extended = some (Rounding.round q) := by
  unfold Numeral.readRat Numeral.signed at h
  unfold read Numeral.signed
  split at h
  · obtain ⟨p, hp, rfl⟩ := Option.map_eq_some_iff.mp h
    refine ⟨-ofRat p, ?_, ?_⟩
    · simp only [readUnsigned_of_readMagnitude hp, Option.map_some]
    · rw [extended_neg, extended_ofRat, Option.map_some, round_neg]
  · exact ⟨_, readUnsigned_of_readMagnitude h, extended_ofRat q⟩
  · exact ⟨_, readUnsigned_of_readMagnitude h, extended_ofRat q⟩

/-- What is read as a number without being a numeral has no digit. -/
theorem read_no_digit {cs : List Char} {d : Double} (h : read cs = some d)
    (hnone : Numeral.readRat cs = none) : ∀ c ∈ cs, c.isDigit = false := by
  have hspecial : ∀ entry ∈ special, entry.1.toList.all (fun c => !c.isDigit) = true := by
    decide
  have hunsigned : ∀ {cs : List Char} {d : Double}, readUnsigned cs = some d →
      Numeral.readMagnitude cs = none → ∀ c ∈ cs, c.isDigit = false := by
    intro cs d h hnone c hc
    rw [readUnsigned, hnone] at h
    obtain ⟨before, after, hentries, _⟩ := List.lookup_eq_some_iff.mp h
    have hentry := hspecial (String.ofList (cs.map Char.toLower), d) (by rw [hentries]; simp)
    by_contra hdigit
    have hlower := List.all_eq_true.mp hentry c (by
      rw [String.toList_ofList]
      exact List.mem_map.mpr ⟨c, hc, Numeral.digit_toLower (by simpa using hdigit)⟩)
    exact hdigit (by simpa using hlower)
  unfold Numeral.readRat Numeral.signed at hnone
  unfold read Numeral.signed at h
  split at h
  · obtain ⟨x, hx, _⟩ := Option.map_eq_some_iff.mp h
    intro c hc
    rcases List.mem_cons.mp hc with rfl | hc
    · decide
    · exact hunsigned hx (Option.map_eq_none_iff.mp hnone) c hc
  · intro c hc
    rcases List.mem_cons.mp hc with rfl | hc
    · decide
    · exact hunsigned h hnone c hc
  · next hminus hplus =>
    split at hnone
    · next rest => exact absurd rfl (hminus rest)
    · next rest => exact absurd rfl (hplus rest)
    · exact hunsigned h hnone

theorem readRat_text (negative : Bool) (m : Magnitude) :
    Numeral.readRat (Double.finite negative m).text.toList =
      some (Numeral.significant.signedNearest (m.signed negative)) := by
  have hread := Numeral.readMagnitude_print m.nonneg
  have hpositive : Numeral.significant.signedNearest m.value =
      Numeral.significant.nearest m.value := if_pos m.nonneg
  rw [text, String.toList_ofList, Numeral.readRat]
  cases negative with
  | true =>
    show (Numeral.readMagnitude (Numeral.printMagnitude m.value)).map _ = _
    rw [hread, Option.map_some, Magnitude.signed, if_pos rfl,
      Format.signedNearest_neg, hpositive]
  | false =>
    obtain ⟨d, rest, hprint, hd⟩ := printMagnitude_head m.value
    show Numeral.signed Numeral.readMagnitude (Numeral.printMagnitude m.value) = _
    have hplain : Numeral.signed Numeral.readMagnitude (Numeral.printMagnitude m.value) =
        Numeral.readMagnitude (Numeral.printMagnitude m.value) := by
      rw [hprint]
      unfold Numeral.signed
      split
      · next heq => simp [(List.cons.inj heq).1] at hd
      · next heq => simp [(List.cons.inj heq).1] at hd
      · rfl
    rw [hplain, hread, Magnitude.signed, if_neg (by decide), hpositive]

end Read

section Reprint

/-- What a printed value is read back as. -/
def reprint : Extended → Extended
  | ⊥ => ⊥
  | ⊤ => ⊤
  | .fin q => Rounding.round (Numeral.significant.signedNearest q)

theorem reprint_mono {x y : Extended} (h : x ≤ y) : reprint x ≤ reprint y := by
  match x, y with
  | ⊥, _ => exact bot_le
  | _, ⊤ => exact le_top
  | ⊤, ⊥ => exact absurd h (by simp)
  | ⊤, .fin q => exact absurd h (by simp)
  | .fin p, ⊥ => exact absurd h (by simp)
  | .fin p, .fin q =>
    exact round_mono (Numeral.significant.signedNearest_mono (Extended.fin_le_fin.mp h))

theorem read_text {d : Double} {x : Extended} (h : d.extended = some x) :
    ∃ d', read d.text.toList = some d' ∧ d'.extended = some (reprint x) := by
  cases d with
  | nan => cases h
  | infinity negative =>
    cases negative with
    | true =>
      obtain rfl : ⊥ = x := Option.some.inj h
      exact ⟨.infinity true, by decide +kernel, rfl⟩
    | false =>
      obtain rfl : ⊤ = x := Option.some.inj h
      exact ⟨.infinity false, by decide +kernel, rfl⟩
  | finite negative m =>
    obtain rfl : Extended.fin (m.signed negative) = x := Option.some.inj h
    exact read_of_readRat (readRat_text negative m)

theorem reprint_intCast {n : Int} (h : n.natAbs < 10 ^ 14) : reprint (.fin n) = .fin n := by
  show Rounding.round (Numeral.significant.signedNearest n) = .fin n
  rw [Numeral.significant.signedNearest_intCast (fun _ hmem => by cases hmem) h,
    round_intCast (h.trans (by decide))]

end Reprint

section Decimal

theorem readRat_of_rat {d : Double} {q : ℚ} (h : d.rat = some q) :
    Numeral.readRat d.text.toList = some (Numeral.significant.signedNearest q) := by
  cases d with
  | nan => cases h
  | infinity negative => cases h
  | finite negative m =>
    obtain rfl : m.signed negative = q := Option.some.inj h
    exact readRat_text negative m

/-- Only a finite value has the text of a rational, and that is the value rounded
to 14 digits. -/
theorem rat_of_readRat_text {d : Double} {q : ℚ}
    (h : Numeral.readRat d.text.toList = some q) :
    ∃ x, d.rat = some x ∧ Numeral.significant.signedNearest x = q := by
  cases d with
  | nan =>
    have hnone : Numeral.readRat nan.text.toList = none := by
      decide +kernel
    rw [hnone] at h
    cases h
  | infinity negative =>
    have hnone : ∀ negative, Numeral.readRat (infinity negative).text.toList = none := by
      decide +kernel
    rw [hnone] at h
    cases h
  | finite negative m => exact ⟨_, rfl, Option.some.inj ((readRat_text negative m).symm.trans h)⟩

theorem text_eq_decimal {d : Double} {n : Int} (h : d.text = Numeral.decimal n) :
    ∃ q, d.rat = some q ∧ Numeral.significant.signedNearest q = n := by
  apply rat_of_readRat_text
  rw [h, Numeral.readRat_decimal]

/-- No integer of more than 14 digits is printed as such. -/
theorem natAbs_of_text {d : Double} {n : Int} (h : d.text = Numeral.decimal n) :
    n.natAbs < 10 ^ 14 := by
  obtain ⟨q, hq, hn⟩ := text_eq_decimal h
  cases d with
  | nan => cases hq
  | infinity negative => cases hq
  | finite negative m =>
    obtain rfl : m.signed negative = q := Option.some.inj hq
    have hexponent : 'e' ∉ Numeral.printMagnitude m.value := by
      intro he
      have hmem : 'e' ∈ (Double.finite negative m).text.toList := by
        rw [text, String.toList_ofList]
        exact List.mem_append_right _ he
      rw [h] at hmem
      rcases Numeral.decimal_chars n 'e' hmem with hminus | hdigit
      · exact absurd hminus (by decide)
      · exact absurd hdigit (by decide)
    have hsmall := Numeral.printMagnitude_lt hexponent
    have hpositive : Numeral.significant.signedNearest m.value =
        Numeral.significant.nearest m.value := if_pos m.nonneg
    have habs : (n.natAbs : ℚ) = Numeral.significant.nearest m.value := by
      have hnonneg := Numeral.significant.nearest_nonneg m.nonneg
      rw [Nat.cast_natAbs, Int.cast_abs, ← hn]
      cases negative with
      | false =>
        rw [Magnitude.signed, if_neg (by decide), hpositive, abs_of_nonneg hnonneg]
      | true =>
        rw [Magnitude.signed, if_pos rfl, Format.signedNearest_neg, hpositive, abs_neg,
          abs_of_nonneg hnonneg]
    rw [← habs] at hsmall
    exact_mod_cast hsmall

theorem significant_pos {x : ℚ} (hx : 0 < x) : 0 < Numeral.significant.nearest x := by
  have hexponent : Numeral.significant.exponent x ≤ Int.log 10 x := by
    show Int.log 10 x + 1 - ((14 : Nat) : Int) ≤ Int.log 10 x
    omega
  have hle := Numeral.significant.multiple_le_nearest (n := 1) hexponent (by
    rw [Int.cast_one, one_mul]
    exact Numeral.significant.power_log_le hx)
  rw [Int.cast_one, one_mul] at hle
  exact (Numeral.significant.unit_pos _).trans_le hle

/-- Only 0 is printed as 0. -/
theorem significant_eq_zero {q : ℚ} : Numeral.significant.signedNearest q = 0 ↔ q = 0 := by
  constructor
  · intro h
    rcases lt_trichotomy q 0 with hq | hq | hq
    · have hpos := significant_pos (neg_pos.mpr hq)
      rw [Format.signedNearest, if_neg (not_le.mpr hq)] at h
      linarith
    · exact hq
    · have hpos := significant_pos hq
      rw [Format.signedNearest, if_pos hq.le] at h
      linarith
  · rintro rfl
    simp [Format.signedNearest]

theorem rat_zero_iff {d : Double} {n : Int} (h : d.text = Numeral.decimal n) :
    d.rat = some 0 ↔ n = 0 := by
  obtain ⟨q, hq, hn⟩ := text_eq_decimal h
  rw [hq, Option.some.injEq, ← significant_eq_zero, hn, Int.cast_eq_zero]

theorem rat_of_text_zero {d : Double} (h : d.text = "-0") : d.rat = some 0 := by
  have hread : Numeral.readRat "-0".toList = some 0 := by
    decide +kernel
  rw [← h] at hread
  obtain ⟨q, hq, hzero⟩ := rat_of_readRat_text hread
  rw [hq, significant_eq_zero.mp hzero]

/-- The two zeros have two texts. -/
theorem text_of_rat_zero {d : Double} (h : d.rat = some 0) : d.text = "0" ∨ d.text = "-0" := by
  cases d with
  | nan => cases h
  | infinity negative => cases h
  | finite negative m =>
    have hsigned : m.signed negative = 0 := Option.some.inj h
    have hvalue : m.value = ((0 : Nat) : ℚ) := by
      cases negative with
      | false => simpa [Magnitude.signed] using hsigned
      | true => simpa [Magnitude.signed] using hsigned
    have hprint : Numeral.printMagnitude m.value = ['0'] := by
      rw [hvalue, Numeral.printMagnitude_natCast (by decide)]
      rfl
    cases negative with
    | false => exact .inl (by rw [text, hprint]; rfl)
    | true => exact .inr (by rw [text, hprint]; rfl)

end Decimal

end Double

end GameAcc
