import GameAcc.Foundations.DoubleText
import GameAcc.Foundations.Text

/-!
`detectagent.py`: the average time in a line of ping's output. Times are printed
with fractions of a millisecond and kept as integers.
-/

namespace GameAcc.Agent

open GameAcc.Text

def AVA_INF : Int := 99999

/-- The nearest double, unless that is infinite. -/
def nearestFinite (x : ℚ) : Option ℚ := (Magnitude.round x).map Magnitude.value

/-- `float(text)` where it is finite: a decimal numeral, rounded. What becomes
infinite or is no number has no integer, so it counts as an exception here. -/
def float (text : String) : Option ℚ :=
  Numeral.signed (fun cs => (Numeral.readDecimal cs).bind nearestFinite)
    (Numeral.trim text.toList)

/-- `int(value)` of a float. -/
def truncate (value : ℚ) : Int := if 0 ≤ value then ⌊value⌋ else ⌈value⌉

theorem isDouble_AVA_INF : Rounding.isDouble AVA_INF = true :=
  Rounding.isDouble_small (by decide)

theorem isDouble_neg {n : Int} (h : Rounding.isDouble n = true) : Rounding.isDouble (-n) = true := by
  apply decide_eq_true
  rw [Int.cast_neg, Rounding.round_neg, of_decide_eq_true h]
  rfl

/-- An integer made of a float is one that a float can be. -/
theorem isDouble_truncate {text : String} {value : ℚ} (h : float text = some value) :
    Rounding.isDouble (truncate value) = true := by
  have hnearest : ∀ {cs value}, (Numeral.readDecimal cs).bind nearestFinite = some value →
      0 ≤ value ∧ Rounding.isDouble ⌊value⌋ = true := by
    intro cs value h
    obtain ⟨x, _, hx⟩ := Option.bind_eq_some_iff.mp h
    obtain ⟨m, _, rfl⟩ := Option.map_eq_some_iff.mp hx
    exact ⟨m.nonneg, m.isDouble_floor⟩
  unfold float Numeral.signed at h
  split at h
  · obtain ⟨magnitude, hmagnitude, rfl⟩ := Option.map_eq_some_iff.mp h
    obtain ⟨hnonneg, hfloor⟩ := hnearest hmagnitude
    unfold truncate
    split
    · next hneg =>
      have hzero : magnitude = 0 := by
        linarith
      rw [hzero]
      exact Rounding.isDouble_small (by simp)
    · rw [Int.ceil_neg]
      exact isDouble_neg hfloor
  all_goals
    obtain ⟨hnonneg, hfloor⟩ := hnearest h
    rwa [truncate, if_pos hnonneg]

/-- What stands behind the first `=`, unless the line starts with it. -/
def behindEquals (lineinfo : String) : Option String :=
  match split '=' lineinfo with
  | before :: after =>
    if before = "" ∨ after = [] then none
    else some ((String.singleton '=').intercalate after)
  | [] => none

/-- Every exception leaves the average at `AVA_INF`. -/
def filterAva (lineinfo : String) : Int :=
  match behindEquals lineinfo with
  | none => AVA_INF
  | some tmpstr =>
    match split '/' tmpstr with
    | _ :: ava1 :: _ =>
      match float ava1 with
      | some value => truncate value
      | none => AVA_INF
    | _ => AVA_INF

theorem isDouble_filterAva (lineinfo : String) :
    Rounding.isDouble (filterAva lineinfo) = true := by
  unfold filterAva
  split
  · exact isDouble_AVA_INF
  · split
    · split
      · next hfloat => exact isDouble_truncate hfloat
      · exact isDouble_AVA_INF
    · exact isDouble_AVA_INF

theorem behindEquals_line {before tmpstr : String} (hne : before ≠ "")
    (hfree : Free '=' before) :
    behindEquals (before ++ String.singleton '=' ++ tmpstr) = some tmpstr := by
  have hsplit : split '=' (before ++ String.singleton '=' ++ tmpstr) =
      before :: split '=' tmpstr := by
    rw [split_append, split_free hfree]
    rfl
  have hrest := split_ne_nil '=' tmpstr
  simp only [behindEquals, hsplit, hne, hrest, or_self, if_false, intercalate_split]

/-- A numeral converted and truncated, and 99999 otherwise. -/
def readAva (ava1 : String) : Int := ((float ava1).map truncate).getD AVA_INF

theorem isDouble_readAva (ava1 : String) : Rounding.isDouble (readAva ava1) = true := by
  unfold readAva
  cases hfloat : float ava1 with
  | none => exact isDouble_AVA_INF
  | some value => exact isDouble_truncate hfloat

/-- The average of a line `Q = a/b/…`: the fraction of a millisecond is dropped. -/
theorem filterAva_line {before least ava1 rest : String} (hne : before ≠ "")
    (hfree : Free '=' before) (hleast : Free '/' least) (hava1 : Free '/' ava1) :
    filterAva (before ++ String.singleton '=' ++
      (least ++ String.singleton '/' ++ (ava1 ++ String.singleton '/' ++ rest))) =
        readAva ava1 := by
  have hsplit : split '/'
      (least ++ String.singleton '/' ++ (ava1 ++ String.singleton '/' ++ rest)) =
        least :: ava1 :: split '/' rest := by
    rw [split_append, split_append, split_free hleast, split_free hava1]
    rfl
  simp only [filterAva, behindEquals_line hne hfree, hsplit, readAva]
  cases float ava1 with
  | none => rfl
  | some value => rfl

theorem signed_readDecimal {β : Type} [Neg β] {f : ℚ → Option β} {cs : List Char} {x : ℚ}
    (h : Numeral.readDecimal cs = some x) :
    Numeral.signed (fun cs => (Numeral.readDecimal cs).bind f) cs = f x := by
  unfold Numeral.signed
  split
  · cases h
  · cases h
  · exact congrArg (fun read => read.bind f) h

/-- A numeral without a sign that is not within its rounding error of the next
integer gives its integer part. -/
theorem readAva_floor {ava1 : String} {x : ℚ}
    (h : Numeral.readDecimal (Numeral.trim ava1.toList) = some x) (hx : 0 ≤ x)
    (hnear : x + x / 2 ^ 53 < ⌊x⌋ + 1) : readAva ava1 = ⌊x⌋ := by
  obtain ⟨m, hm, hfloor⟩ := Magnitude.round_floor hx hnear
  have hfloat : float ava1 = some m.value := by
    rw [float, signed_readDecimal h, nearestFinite, hm, Option.map_some]
  rw [readAva, hfloat, Option.map_some, Option.getD_some, truncate, if_pos m.nonneg, hfloor]

example : filterAva "rtt min/avg/max/mdev = 12.411/40.937/41.459/0.018 ms" = 40 := by
  decide +kernel

end GameAcc.Agent
