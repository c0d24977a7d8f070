import Mathlib.Tactic
import Mathlib.Data.Rat.Floor
import Mathlib.Data.List.TakeWhile

/-!
Numerals in text. Three readers of the system take numbers out of the same
texts: the C reader behind Redis scores and Lua's `tonumber`, and Python's
`int`. This file gives the grammars they accept on lists of characters and
shows that on every text both kinds accept they read the same number, and that
the decimal text of an integer is read back as that integer.

Values are exact rationals. The infinities and NaN that some of the readers
also know have no value here.
-/

namespace GameAcc.Numeral

/-- An optional sign in front of a magnitude. -/
def signed {α : Type} [Neg α] (magnitude : List Char → Option α) :
    List Char → Option α
  | '-' :: rest => (magnitude rest).map (fun x => -x)
  | '+' :: rest => magnitude rest
  | rest => magnitude rest

def readNat (cs : List Char) : Option Nat :=
  if cs ≠ [] ∧ cs.all Char.isDigit = true then
    some (Nat.ofDigitChars 10 cs 0)
  else none

/-- A signed string of decimal digits. -/
def readInt : List Char → Option Int :=
  signed (fun cs => (readNat cs).map Int.ofNat)

def hexDigit (c : Char) : Nat :=
  if c.isDigit then c.toNat - '0'.toNat else c.toLower.toNat - 'a'.toNat + 10

def isHexDigit (c : Char) : Bool :=
  c.isDigit || ('a' ≤ c.toLower && c.toLower ≤ 'f')

/-- The digits behind a point, and what follows. -/
def readFraction (isDigit : Char → Bool) : List Char → List Char × List Char
  | '.' :: tail => (tail.takeWhile isDigit, tail.dropWhile isDigit)
  | tail => ([], tail)

/-- An optional exponent after its mark. -/
def readExponent (mark : Char) (expBase mantissa : ℚ) : List Char → Option ℚ
  | [] => some mantissa
  | c :: tail =>
    if c.toLower = mark then (readInt tail).map (fun e => mantissa * expBase ^ e)
    else none

/-- Digits in a base, an optional fraction, and an optional exponent. At least
one digit must stand before the exponent. -/
def readReal (isDigit : Char → Bool) (digit : Char → Nat) (base : Nat)
    (mark : Char) (expBase : ℚ) (cs : List Char) : Option ℚ :=
  let whole := cs.takeWhile isDigit
  let fraction := (readFraction isDigit (cs.dropWhile isDigit)).1
  let rest := (readFraction isDigit (cs.dropWhile isDigit)).2
  if whole ++ fraction = [] then none
  else
    let mantissa : ℚ :=
      ((whole ++ fraction).foldl (fun n c => base * n + digit c) 0 : Nat) /
        (base : ℚ) ^ fraction.length
    readExponent mark expBase mantissa rest

def readDecimal : List Char → Option ℚ :=
  readReal Char.isDigit (fun c => c.toNat - '0'.toNat) 10 'e' 10

def readHex : List Char → Option ℚ :=
  readReal isHexDigit hexDigit 16 'p' 2

def readMagnitude (cs : List Char) : Option ℚ :=
  match cs with
  | '0' :: x :: rest =>
    if x.toLower = 'x' then readHex rest else readDecimal cs
  | _ => readDecimal cs

/-- What C's `strtod` accepts as a finite number when the whole text has to be
consumed: decimal or hexadecimal, with fraction and exponent. -/
def readRat : List Char → Option ℚ := signed readMagnitude

/-- White space as C's `isspace` has it. -/
def isSpace (c : Char) : Bool :=
  c.toNat == 32 || (9 ≤ c.toNat && c.toNat ≤ 13)

/-- White space removed at both ends. -/
def trim (cs : List Char) : List Char :=
  ((cs.dropWhile isSpace).reverse.dropWhile isSpace).reverse

/-- The decimal text of an integer. -/
def decimal (n : Int) : String := toString n

theorem digit_not_space {c : Char} (h : c.isDigit = true) :
    isSpace c = false := by
  have hc := Char.isDigit_iff_toNat.mp h
  simp only [show '0'.toNat = 48 from rfl, show '9'.toNat = 57 from rfl] at hc
  simp only [isSpace, Bool.or_eq_false_iff, beq_eq_false_iff_ne,
    Bool.and_eq_false_iff, decide_eq_false_iff_not]
  omega

/-- Only capital letters have a lower case. -/
theorem toLower_of_lt {c : Char} (h : c.toNat < 65) : c.toLower = c := by
  have hupper : ¬(c.val ≥ 'A'.val ∧ c.val ≤ 'Z'.val) := by
    rintro ⟨hcode, _⟩
    have hle : 65 ≤ c.toNat := UInt32.le_iff_toNat_le.mp hcode
    omega
  exact dif_neg hupper

theorem digit_toLower {c : Char} (h : c.isDigit = true) : c.toLower = c := by
  have hcode := Char.isDigit_iff_toNat.mp h
  have hnine : '9'.toNat = 57 := rfl
  apply toLower_of_lt
  omega

theorem readNat_some {cs : List Char} {n : Nat} (h : readNat cs = some n) :
    cs ≠ [] ∧ (∀ c ∈ cs, c.isDigit = true) ∧ n = Nat.ofDigitChars 10 cs 0 := by
  unfold readNat at h
  split at h
  · next hcs =>
    exact ⟨hcs.1, List.all_eq_true.mp hcs.2, (Option.some.inj h).symm⟩
  · cases h

theorem readNat_toDigits (n : Nat) : readNat (Nat.toDigits 10 n) = some n := by
  have hall : (Nat.toDigits 10 n).all Char.isDigit = true :=
    List.all_eq_true.mpr fun c hc =>
      Nat.isDigit_of_mem_toDigits (by decide) (by decide) hc
  simp [readNat, hall]

theorem decimal_toList (n : Int) :
    (decimal n).toList =
      if 0 ≤ n then Nat.toDigits 10 n.toNat
      else '-' :: Nat.toDigits 10 (-n).toNat := by
  unfold decimal
  rw [Int.toString_eq_repr, Int.repr_eq_if]
  split
  · exact Nat.toList_repr
  · rw [String.toList_append, Nat.toList_repr]
    rfl

/-- Apart from the sign, the decimal text of an integer consists of digits. -/
theorem decimal_chars (n : Int) :
    ∀ c ∈ (decimal n).toList, c = '-' ∨ c.isDigit = true := by
  have hdigits (m : Nat) : ∀ c ∈ Nat.toDigits 10 m, c.isDigit = true :=
    fun c hc => Nat.isDigit_of_mem_toDigits (by decide) (by decide) hc
  intro c hc
  rw [decimal_toList] at hc
  split at hc
  · exact Or.inr (hdigits _ c hc)
  · rcases List.mem_cons.mp hc with rfl | htail
    · exact Or.inl rfl
    · exact Or.inr (hdigits _ c htail)

theorem signed_digits {α : Type} [Neg α] (magnitude : List Char → Option α)
    {cs : List Char} (h : ∀ c ∈ cs, c.isDigit = true) :
    signed magnitude cs = magnitude cs := by
  unfold signed
  split
  · exact absurd (h '-' List.mem_cons_self) (by decide)
  · exact absurd (h '+' List.mem_cons_self) (by decide)
  · rfl

theorem readInt_decimal (n : Int) : readInt (decimal n).toList = some n := by
  rw [decimal_toList]
  split
  · next hn =>
    unfold readInt
    rw [signed_digits _ (fun c hc =>
      Nat.isDigit_of_mem_toDigits (by decide) (by decide) hc), readNat_toDigits]
    simp [Int.toNat_of_nonneg hn]
  · next hn =>
    simp only [readInt, signed, readNat_toDigits, Option.map_some]
    have hneg : Int.ofNat (-n).toNat = -n := Int.toNat_of_nonneg (by omega)
    rw [hneg, neg_neg]

theorem takeWhile_append_stop {α : Type} (p : α → Bool) (ds rest : List α)
    (hds : ∀ d ∈ ds, p d = true) (hrest : ∀ r ∈ rest.head?, p r = false) :
    (ds ++ rest).takeWhile p = ds ∧ (ds ++ rest).dropWhile p = rest := by
  induction ds with
  | nil =>
    cases rest with
    | nil => exact ⟨rfl, rfl⟩
    | cons r rs => simp [hrest r (by simp)]
  | cons d ds ih =>
    obtain ⟨htake, hdrop⟩ := ih (fun x hx => hds x (List.mem_cons_of_mem d hx))
    simp [hds d List.mem_cons_self, htake, hdrop]

theorem readDecimal_digits {ds : List Char} (hne : ds ≠ [])
    (hds : ∀ c ∈ ds, c.isDigit = true) :
    readDecimal ds = some ((Nat.ofDigitChars 10 ds 0 : Nat) : ℚ) := by
  obtain ⟨htake, hdrop⟩ := takeWhile_append_stop Char.isDigit ds [] hds (by simp)
  rw [List.append_nil] at htake hdrop
  simp [readDecimal, readReal, readFraction, readExponent, htake, hdrop, hne, Nat.ofDigitChars]

/-- White space after the digits ends no number: the C reader gives up. -/
theorem readDecimal_digits_space {ds rest : List Char} {w : Char}
    (hds : ∀ c ∈ ds, c.isDigit = true) (hw : isSpace w = true) :
    readDecimal (ds ++ w :: rest) = none := by
  have hcode : w.toNat = 32 ∨ (9 ≤ w.toNat ∧ w.toNat ≤ 13) := by
    simpa [isSpace] using hw
  have hdigit : w.isDigit = false := by
    by_contra h
    simp [digit_not_space (by simpa using h)] at hw
  have hdot : w ≠ '.' := by
    rintro rfl
    simp at hcode
  have hmark : w.toLower ≠ 'e' := by
    rw [toLower_of_lt (by omega)]
    rintro rfl
    cases hw
  obtain ⟨htake, hdrop⟩ :=
    takeWhile_append_stop Char.isDigit ds (w :: rest) hds (by simpa using hdigit)
  have hfraction : readFraction Char.isDigit (w :: rest) = ([], w :: rest) := by
    unfold readFraction
    split
    · next heq => exact absurd (List.cons.inj heq).1 hdot
    · rfl
  simp only [readDecimal, readReal, htake, hdrop, hfraction, readExponent, if_neg hmark]
  split
  · rfl
  · rfl

/-- A text of digits is never taken for a hexadecimal one. -/
theorem readMagnitude_digits (ds rest : List Char)
    (hds : ∀ c ∈ ds, c.isDigit = true) (hne : ds ≠ [])
    (hrest : ∀ r ∈ rest.head?, r.toLower ≠ 'x') :
    readMagnitude (ds ++ rest) = readDecimal (ds ++ rest) := by
  have hdigit : ∀ c : Char, c.isDigit = true → c.toLower ≠ 'x' := by
    intro c hc
    rw [digit_toLower hc]
    rintro rfl
    cases hc
  obtain ⟨d, ds, rfl⟩ := List.exists_cons_of_ne_nil hne
  unfold readMagnitude
  split
  · next x tail heq =>
    have htail : ds ++ rest = x :: tail := (List.cons.inj heq).2
    have hx : x.toLower ≠ 'x' := by
      cases ds with
      | nil =>
        have hr : rest = x :: tail := htail
        exact hrest x (by simp [hr])
      | cons e es =>
        have he : e = x := (List.cons.inj htail).1
        exact hdigit x (hds x (by simp [he]))
    rw [if_neg hx]
  · rfl

/-- A text of a sign and digits, and what it stands for. -/
theorem readInt_some {cs : List Char} {n : Int} (h : readInt cs = some n) :
    ∃ ds, ds ≠ [] ∧ (∀ c ∈ ds, c.isDigit = true) ∧
      ((cs = ds ∧ n = (Nat.ofDigitChars 10 ds 0 : Nat)) ∨
       (cs = '+' :: ds ∧ n = (Nat.ofDigitChars 10 ds 0 : Nat)) ∨
       (cs = '-' :: ds ∧ n = -(Nat.ofDigitChars 10 ds 0 : Nat))) := by
  unfold readInt signed at h
  split at h
  · next ds =>
    obtain ⟨_, hm, rfl⟩ := Option.map_eq_some_iff.mp h
    obtain ⟨m, hread, rfl⟩ := Option.map_eq_some_iff.mp hm
    obtain ⟨hne, hds, rfl⟩ := readNat_some hread
    exact ⟨ds, hne, hds, Or.inr (Or.inr ⟨rfl, rfl⟩)⟩
  · next ds =>
    obtain ⟨m, hread, rfl⟩ := Option.map_eq_some_iff.mp h
    obtain ⟨hne, hds, rfl⟩ := readNat_some hread
    exact ⟨ds, hne, hds, Or.inr (Or.inl ⟨rfl, rfl⟩)⟩
  · obtain ⟨m, hread, rfl⟩ := Option.map_eq_some_iff.mp h
    obtain ⟨hne, hds, rfl⟩ := readNat_some hread
    exact ⟨cs, hne, hds, Or.inl ⟨rfl, rfl⟩⟩

/-- What Python reads as an integer, C reads as the same number. -/
theorem readRat_of_readInt {cs : List Char} {n : Int}
    (h : readInt cs = some n) : readRat cs = some (n : ℚ) := by
  obtain ⟨ds, hne, hds, hcs⟩ := readInt_some h
  have hread : readMagnitude ds = some ((Nat.ofDigitChars 10 ds 0 : Nat) : ℚ) := by
    have hplain := readMagnitude_digits ds [] hds hne (by simp)
    rw [List.append_nil] at hplain
    rw [hplain, readDecimal_digits hne hds]
  unfold readRat
  rcases hcs with ⟨rfl, rfl⟩ | ⟨rfl, rfl⟩ | ⟨rfl, rfl⟩
  · rw [signed_digits _ hds, hread]
    simp
  · simp only [signed, hread]
    simp
  · simp only [signed, hread]
    simp

theorem readRat_decimal (n : Int) : readRat (decimal n).toList = some (n : ℚ) :=
  readRat_of_readInt (readInt_decimal n)

theorem decimal_not_space (n : Int) : ∀ c ∈ (decimal n).toList, isSpace c = false := by
  intro c hc
  rcases decimal_chars n c hc with rfl | hdigit
  · decide
  · exact digit_not_space hdigit

theorem trim_of_not_space {cs : List Char} (h : ∀ c ∈ cs, isSpace c = false) :
    trim cs = cs := by
  have hdrop : ∀ ds : List Char, (∀ c ∈ ds, isSpace c = false) →
      ds.dropWhile isSpace = ds := by
    intro ds hds
    cases ds with
    | nil => rfl
    | cons d rest => simp [hds d List.mem_cons_self]
  rw [trim, hdrop cs h, hdrop cs.reverse, List.reverse_reverse]
  intro c hc
  exact h c (List.mem_reverse.mp hc)

theorem readInt_trim_decimal (n : Int) : readInt (trim (decimal n).toList) = some n := by
  rw [trim_of_not_space (decimal_not_space n), readInt_decimal]

theorem trim_decomposition (cs : List Char) :
    ∃ front back, cs = front ++ trim cs ++ back ∧
      (∀ c ∈ front, isSpace c = true) ∧ (∀ c ∈ back, isSpace c = true) := by
  let body := cs.dropWhile isSpace
  refine ⟨cs.takeWhile isSpace, (body.reverse.takeWhile isSpace).reverse, ?_, ?_, ?_⟩
  · have hbody : trim cs ++ (body.reverse.takeWhile isSpace).reverse = body := by
      rw [trim, ← List.reverse_append, List.takeWhile_append_dropWhile,
        List.reverse_reverse]
    rw [List.append_assoc, hbody, List.takeWhile_append_dropWhile]
  · exact fun c hc => List.mem_takeWhile_imp hc
  · exact fun c hc => List.mem_takeWhile_imp (List.mem_reverse.mp hc)

/-- What reads as an integer has a digit in it. -/
theorem exists_digit {cs : List Char} {n : Int} (h : readInt (trim cs) = some n) :
    ∃ d ∈ cs, d.isDigit = true := by
  obtain ⟨ds, hne, hds, htrim⟩ := readInt_some h
  obtain ⟨d, rest, rfl⟩ := List.exists_cons_of_ne_nil hne
  refine ⟨d, ?_, hds d List.mem_cons_self⟩
  have hmem : d ∈ trim cs := by
    rcases htrim with ⟨hcs, _⟩ | ⟨hcs, _⟩ | ⟨hcs, _⟩ <;> rw [hcs] <;> simp
  obtain ⟨front, back, hcs, _, _⟩ := trim_decomposition cs
  rw [hcs]
  exact List.mem_append_left _ (List.mem_append_right _ hmem)

theorem readRat_space {w : Char} {rest : List Char} (hw : isSpace w = true) :
    readRat (w :: rest) = none := by
  have hsigned : readRat (w :: rest) = readMagnitude (w :: rest) := by
    unfold readRat signed
    split
    · next heq => simp [(List.cons.inj heq).1, isSpace] at hw
    · next heq => simp [(List.cons.inj heq).1, isSpace] at hw
    · rfl
  have hplain : readMagnitude (w :: rest) = readDecimal (w :: rest) := by
    unfold readMagnitude
    split
    · next heq => simp [(List.cons.inj heq).1, isSpace] at hw
    · rfl
  have hnone : readDecimal ([] ++ w :: rest) = none :=
    readDecimal_digits_space (by simp) hw
  rw [hsigned, hplain]
  exact hnone

/-- Python strips white space before it reads and C does not, so a text that
both accept has none, and both read the same number from it. -/
theorem readRat_eq_of_readInt_trim {cs : List Char} {n : Int} {q : ℚ}
    (hrat : readRat cs = some q) (hint : readInt (trim cs) = some n) :
    q = n := by
  obtain ⟨front, back, hcs, hfront, hback⟩ := trim_decomposition cs
  have hfrontNil : front = [] := by
    cases front with
    | nil => rfl
    | cons w ws =>
      rw [hcs, List.append_assoc, List.cons_append,
        readRat_space (hfront w List.mem_cons_self)] at hrat
      cases hrat
  have hbackNil : back = [] := by
    cases back with
    | nil => rfl
    | cons w ws =>
      have hw := hback w List.mem_cons_self
      obtain ⟨ds, hne, hds, htrim⟩ := readInt_some hint
      have hcode : w.toNat = 32 ∨ (9 ≤ w.toNat ∧ w.toNat ≤ 13) := by
        simpa [isSpace] using hw
      have hx : w.toLower ≠ 'x' := by
        rw [toLower_of_lt (by omega)]
        rintro rfl
        cases hw
      have hnone : readMagnitude (ds ++ w :: ws) = none := by
        rw [readMagnitude_digits ds (w :: ws) hds hne (by simpa using hx)]
        exact readDecimal_digits_space hds hw
      exfalso
      rw [hcs, hfrontNil, List.nil_append] at hrat
      rcases htrim with ⟨ht, _⟩ | ⟨ht, _⟩ | ⟨ht, _⟩
      · rw [ht] at hrat
        obtain ⟨d, ds', rfl⟩ := List.exists_cons_of_ne_nil hne
        have hplain : readRat (d :: ds' ++ w :: ws) =
            readMagnitude (d :: ds' ++ w :: ws) := by
          have hd := hds d List.mem_cons_self
          unfold readRat signed
          split
          · next heq => simp [(List.cons.inj heq).1] at hd
          · next heq => simp [(List.cons.inj heq).1] at hd
          · rfl
        rw [hplain, hnone] at hrat
        cases hrat
      · rw [ht] at hrat
        simp [readRat, signed, hnone] at hrat
      · rw [ht] at hrat
        simp [readRat, signed, hnone] at hrat
  rw [hfrontNil, hbackNil, List.nil_append, List.append_nil] at hcs
  rw [← hcs] at hint
  exact Option.some.inj (hrat.symm.trans (readRat_of_readInt hint))

end GameAcc.Numeral
