import Mathlib.Data.List.Sort
import Mathlib.Tactic

/-!
Selection by a running minimum. A scan over a sorted list takes the first key as
the minimum and keeps every element whose key is near it. The scan has no flag
of its own for "no minimum yet": some keys stand for it, and such a key leaves
the minimum unset, so that the next one replaces it.

Over a linear order with one unset key, `scan_unset` says what that makes of a
sorted list without lesser keys, `Kept` what any sorted list can keep, and
`mem_scan_of_kept` that it keeps it when the element stands first among its
equals. Near need not be reflexive: nothing is near an infinite minimum.

A sort is known by its result alone: a permutation, with ascending keys when
every element has one. The order among equal keys is left open.
-/

namespace GameAcc.Window

section Scan

variable {α K : Type} (key : α → K) (unset : K → Prop) (near : K → K → Prop)
  [DecidablePred unset] [DecidableRel near]

def scan : K → List α → List α
  | _, [] => []
  | minimum, a :: rest =>
    if unset minimum then a :: scan (key a) rest
    else if near (key a) minimum then a :: scan minimum rest
    else scan minimum rest

variable {key unset near}

theorem scan_sublist (minimum : K) (xs : List α) :
    (scan key unset near minimum xs).Sublist xs := by
  induction xs generalizing minimum with
  | nil => exact List.Sublist.refl []
  | cons a rest ih =>
    unfold scan
    split
    · exact (ih _).cons_cons a
    split
    · exact (ih _).cons_cons a
    · exact (ih _).cons a

theorem scan_set {minimum : K} (h : ¬unset minimum) (xs : List α) :
    scan key unset near minimum xs = xs.filter (fun a => decide (near (key a) minimum)) := by
  induction xs with
  | nil => rfl
  | cons a rest ih =>
    rw [scan, if_neg h, ih]
    by_cases hnear : near (key a) minimum
    · rw [if_pos hnear, List.filter_cons_of_pos (by simpa using hnear)]
    · rw [if_neg hnear, List.filter_cons_of_neg (by simpa using hnear)]

theorem scan_cons {minimum : K} (h : unset minimum) (a : α) (rest : List α) :
    scan key unset near minimum (a :: rest) = a :: scan key unset near (key a) rest := by
  rw [scan, if_pos h]

/-- A scan that starts unset keeps the first element. -/
theorem scan_eq_nil {minimum : K} (h : unset minimum) {xs : List α} :
    scan key unset near minimum xs = [] ↔ xs = [] := by
  cases xs with
  | nil => exact iff_of_true rfl rfl
  | cons a rest =>
    rw [scan_cons h]
    simp

/-- An element is kept when it is near every set key before it. -/
theorem mem_scan_append {minimum : K} (before : List α) (a : α) (after : List α)
    (hminimum : unset minimum ∨ near (key a) minimum)
    (hbefore : ∀ b ∈ before, ¬unset (key b) → near (key a) (key b)) :
    a ∈ scan key unset near minimum (before ++ a :: after) := by
  induction before generalizing minimum with
  | nil =>
    rw [List.nil_append, scan]
    by_cases hunset : unset minimum
    · rw [if_pos hunset]
      exact List.mem_cons_self
    · rw [if_neg hunset, if_pos (hminimum.resolve_left hunset)]
      exact List.mem_cons_self
  | cons b rest ih =>
    have hrest : ∀ c ∈ rest, ¬unset (key c) → near (key a) (key c) :=
      fun c hc => hbefore c (List.mem_cons_of_mem b hc)
    rw [List.cons_append, scan]
    by_cases hunset : unset minimum
    · rw [if_pos hunset]
      apply List.mem_cons_of_mem
      apply ih _ hrest
      by_cases hb : unset (key b)
      · exact .inl hb
      · exact .inr (hbefore b List.mem_cons_self hb)
    · rw [if_neg hunset]
      split
      · exact List.mem_cons_of_mem _ (ih hminimum hrest)
      · exact ih hminimum hrest

/-- Keys that compare alike are scanned alike. -/
theorem scan_congr {K' : Type} {key' : α → K'} {unset' : K' → Prop} {near' : K' → K' → Prop}
    [DecidablePred unset'] [DecidableRel near'] (like : K → K' → Prop)
    (hunset : ∀ {x x'}, like x x' → (unset x ↔ unset' x'))
    (hnear : ∀ {x x' y y'}, like x x' → like y y' → (near x y ↔ near' x' y'))
    {minimum : K} {minimum' : K'} (hminimum : like minimum minimum') {xs : List α}
    (hxs : ∀ a ∈ xs, like (key a) (key' a)) :
    scan key unset near minimum xs = scan key' unset' near' minimum' xs := by
  induction xs generalizing minimum minimum' with
  | nil => rfl
  | cons a rest ih =>
    have ha := hxs a List.mem_cons_self
    have hrest : ∀ b ∈ rest, like (key b) (key' b) :=
      fun b hb => hxs b (List.mem_cons_of_mem a hb)
    rw [scan, scan, ih ha hrest, ih hminimum hrest]
    simp only [hunset hminimum, hnear ha hminimum]

end Scan

section Ordered

variable {α K : Type} [LinearOrder K]

/-- The one key is not greater than the other, or near it. -/
def Close (near : K → K → Prop) (x y : K) : Prop := x ≤ y ∨ near x y

/-- The element is within the tolerance of every key above `zero`. -/
def Near (key : α → K) (zero : K) (near : K → K → Prop) (xs : List α) (a : α) : Prop :=
  ∀ b ∈ xs, zero < key b → near (key a) (key b)

/-- A scan of the sorted list that starts unset can keep the element. -/
def Kept (key : α → K) (zero : K) (near : K → K → Prop) (xs : List α) (a : α) : Prop :=
  ((∃ b ∈ xs, key b < zero) ∧ ∀ b ∈ xs, Close near (key a) (key b)) ∨
    (∀ b ∈ xs, zero ≤ key b) ∧
      (key a = zero ∨ ∀ b ∈ xs, zero < key b → Close near (key a) (key b))

variable {key : α → K} {zero : K} {near : K → K → Prop} [DecidableRel near]

instance (xs : List α) (a : α) : Decidable (Near key zero near xs a) := by
  unfold Near; infer_instance

omit [DecidableRel near] in
theorem Kept.congr {xs ys : List α} (h : ∀ b, b ∈ xs ↔ b ∈ ys) (a : α) :
    Kept key zero near xs a ↔ Kept key zero near ys a := by
  simp only [Kept, h]

theorem scan_zero (a : α) (rest : List α) :
    scan key (· = zero) near zero (a :: rest) = a :: scan key (· = zero) near (key a) rest := by
  apply scan_cons
  rfl

theorem scan_nonzero {minimum : K} (h : minimum ≠ zero) (xs : List α) :
    scan key (· = zero) near minimum xs =
      xs.filter (fun a => decide (near (key a) minimum)) := by
  apply scan_set
  exact h

/-- What a scan of a sorted list makes of its least key. -/
theorem close_of_mem_scan (hmono : ∀ x y y', near x y → y ≤ y' → near x y') {b : α}
    {rest : List α} (hleast : ∀ c ∈ rest, key b ≤ key c) (hset : key b ≠ zero) {a : α}
    (h : a ∈ scan key (· = zero) near zero (b :: rest)) :
    ∀ c ∈ b :: rest, Close near (key a) (key c) := by
  have hle : ∀ c ∈ b :: rest, key b ≤ key c := by
    intro c hc
    rcases List.mem_cons.mp hc with rfl | hc
    · exact le_rfl
    · exact hleast c hc
  rw [scan_zero, scan_nonzero hset] at h
  intro c hc
  rcases List.mem_cons.mp h with rfl | hrest
  · exact .inl (hle c hc)
  · have hnear := of_decide_eq_true (List.mem_filter.mp hrest).2
    exact .inr (hmono _ _ _ hnear (hle c hc))

/-- A scan of a sorted list keeps nothing else. -/
theorem kept_of_mem_scan (hmono : ∀ x y y', near x y → y ≤ y' → near x y') {xs : List α}
    (hsorted : xs.Pairwise (fun a b => key a ≤ key b)) {a : α}
    (h : a ∈ scan key (· = zero) near zero xs) : Kept key zero near xs a := by
  induction xs with
  | nil => cases h
  | cons b rest ih =>
    obtain ⟨hleast, hrest⟩ := List.pairwise_cons.mp hsorted
    rcases lt_trichotomy (key b) zero with hneg | hzero | hpos
    · exact .inl ⟨⟨b, List.mem_cons_self, hneg⟩,
        close_of_mem_scan hmono hleast hneg.ne h⟩
    · have hnonneg : ∀ c ∈ b :: rest, zero ≤ key c := by
        intro c hc
        rcases List.mem_cons.mp hc with rfl | hc
        · exact hzero.ge
        · exact hzero ▸ hleast c hc
      refine .inr ⟨hnonneg, ?_⟩
      rw [scan_zero, hzero] at h
      rcases List.mem_cons.mp h with rfl | hmem
      · exact .inl hzero
      rcases ih hrest hmem with ⟨⟨c, hc, hlt⟩, _⟩ | ⟨_, hkeys⟩
      · exact absurd (hnonneg c (List.mem_cons_of_mem b hc)) (not_le.mpr hlt)
      · refine hkeys.imp_right ?_
        intro hclose c hc hpos
        rcases List.mem_cons.mp hc with rfl | hc
        · exact absurd hzero hpos.ne'
        · exact hclose c hc hpos
    · refine .inr ⟨?_, .inr fun c hc _ => close_of_mem_scan hmono hleast hpos.ne' h c hc⟩
      intro c hc
      rcases List.mem_cons.mp hc with rfl | hc
      · exact hpos.le
      · exact hpos.le.trans (hleast c hc)

/-- It can keep all that: an element that stands in front of its equals is
kept. -/
theorem mem_scan_of_kept {before after : List α} {a : α}
    (hbefore : ∀ b ∈ before, key b < key a)
    (h : Kept key zero near (before ++ a :: after) a) :
    a ∈ scan key (· = zero) near zero (before ++ a :: after) := by
  have hmem : ∀ b ∈ before, b ∈ before ++ a :: after := fun b hb => List.mem_append_left _ hb
  refine mem_scan_append before a after (.inl rfl) ?_
  intro b hb hset
  have hlt := hbefore b hb
  rcases h with ⟨_, hclose⟩ | ⟨hnonneg, hzero | hclose⟩
  · exact (hclose b (hmem b hb)).resolve_left (not_le.mpr hlt)
  · exact absurd (hnonneg b (hmem b hb)) (not_le.mpr (hzero ▸ hlt))
  · have hpos : zero < key b := lt_of_le_of_ne (hnonneg b (hmem b hb)) (Ne.symm hset)
    exact (hclose b (hmem b hb) hpos).resolve_left (not_le.mpr hlt)

/-- Nothing is near the first key: nothing else is kept. -/
theorem scan_first {a : α} {rest : List α} (hset : key a ≠ zero)
    (h : ∀ b ∈ rest, ¬near (key b) (key a)) :
    scan key (· = zero) near zero (a :: rest) = [a] := by
  rw [scan_zero, scan_nonzero hset, List.filter_eq_nil_iff.mpr]
  intro b hb
  simpa using h b hb

/-- What a scan that starts unset keeps: the keys `zero`, and the keys near every
greater one, when the least of these is near itself. -/
theorem scan_unset (hmono : ∀ x x' y y', near x y → x' ≤ x → y ≤ y' → near x' y')
    {xs : List α} (hsorted : xs.Pairwise (fun a b => key a ≤ key b))
    (hnonneg : ∀ a ∈ xs, zero ≤ key a)
    (hself : ∀ a ∈ xs, zero < key a → (∀ b ∈ xs, zero < key b → key a ≤ key b) →
      near (key a) (key a)) :
    scan key (· = zero) near zero xs =
      xs.filter (fun a => decide (key a = zero ∨ Near key zero near xs a)) := by
  induction xs with
  | nil => rfl
  | cons a rest ih =>
    obtain ⟨hleast, hrest⟩ := List.pairwise_cons.mp hsorted
    have hnonneg_rest : ∀ b ∈ rest, zero ≤ key b :=
      fun b hb => hnonneg b (List.mem_cons_of_mem a hb)
    rw [scan_zero]
    rcases (hnonneg a List.mem_cons_self).eq_or_lt with hzero | hpos
    · have hnear : ∀ b, Near key zero near (a :: rest) b ↔ Near key zero near rest b := by
        intro b
        unfold Near
        simp [hzero.not_lt]
      have hself_rest : ∀ b ∈ rest, zero < key b →
          (∀ c ∈ rest, zero < key c → key b ≤ key c) → near (key b) (key b) := by
        intro b hb hpos hle
        apply hself b (List.mem_cons_of_mem a hb) hpos
        intro c hc hcpos
        rcases List.mem_cons.mp hc with rfl | hc
        · exact absurd hzero hcpos.ne
        · exact hle c hc hcpos
      rw [← hzero, ih hrest hnonneg_rest hself_rest,
        List.filter_cons_of_pos (by simp [hzero.symm])]
      congr 1
      apply List.filter_congr
      intro b _
      simp only [hnear]
    · have hkeep : ∀ b, Near key zero near (a :: rest) b ↔ near (key b) (key a) := by
        intro b
        constructor
        · exact fun h => h a List.mem_cons_self hpos
        · intro h c hc _
          rcases List.mem_cons.mp hc with rfl | hc
          · exact h
          · exact hmono _ _ _ _ h le_rfl (hleast c hc)
      have hall : ∀ b ∈ a :: rest, zero < key b → key a ≤ key b := by
        intro b hb _
        rcases List.mem_cons.mp hb with rfl | hb
        · exact le_rfl
        · exact hleast b hb
      have hfirst : Near key zero near (a :: rest) a :=
        (hkeep a).mpr (hself a List.mem_cons_self hpos hall)
      rw [scan_nonzero hpos.ne', List.filter_cons_of_pos (by simp [hfirst])]
      congr 1
      apply List.filter_congr
      intro b hb
      have hset : key b ≠ zero := (hpos.trans_le (hleast b hb)).ne'
      simp only [hkeep, hset, false_or]

end Ordered

section Sorting

variable {α K : Type} [LinearOrder K]

/-- A sort by a key that some elements lack. Its result is in ascending order
when all elements have the key. -/
structure Sorter (key : α → Option K) where
  sort : List α → List α
  perm : ∀ l, (sort l).Perm l
  ascending : ∀ l, (∀ a ∈ l, (key a).isSome) →
    (sort l).Pairwise (fun a b => ∀ x ∈ key a, ∀ y ∈ key b, x ≤ y)

/-- An element without a key counts as the least one. -/
def keyBot (key : α → Option K) (a : α) : WithBot K := key a

/-- The stable sort is one of them. -/
def Sorter.stable (key : α → Option K) : Sorter key where
  sort := fun l => l.mergeSort (fun a b => decide (keyBot key a ≤ keyBot key b))
  perm := fun l => List.mergeSort_perm l _
  ascending := by
    intro l _
    have htrans : ∀ a b c, decide (keyBot key a ≤ keyBot key b) = true →
        decide (keyBot key b ≤ keyBot key c) = true →
          decide (keyBot key a ≤ keyBot key c) = true := by
      intro a b c hab hbc
      simp only [decide_eq_true_eq] at hab hbc ⊢
      exact hab.trans hbc
    have htotal : ∀ a b, (decide (keyBot key a ≤ keyBot key b) ||
        decide (keyBot key b ≤ keyBot key a)) = true := by
      intro a b
      simpa using le_total (keyBot key a) (keyBot key b)
    have hsorted := List.pairwise_mergeSort htrans htotal l
    apply hsorted.imp
    intro a b hle x hx y hy
    have hkeys : keyBot key a ≤ keyBot key b := of_decide_eq_true hle
    rw [keyBot, keyBot, Option.mem_def.mp hx, Option.mem_def.mp hy] at hkeys
    exact WithBot.coe_le_coe.mp hkeys

section Front

variable [DecidableEq α] {key : α → Option K}

/-- A list with one element in front of those whose keys are not less; in front
of all when an element has no key. -/
def frontSort (key : α → Option K) (a : α) (l : List α) : List α :=
  if a ∈ l then
    if ∀ b ∈ l, (key b).isSome then
      (Sorter.stable key).sort ((l.erase a).filter (fun b => keyBot key b < keyBot key a)) ++
        a :: (Sorter.stable key).sort
          ((l.erase a).filter (fun b => !decide (keyBot key b < keyBot key a)))
    else a :: l.erase a
  else (Sorter.stable key).sort l

theorem frontSort_perm (a : α) (l : List α) : (frontSort key a l).Perm l := by
  unfold frontSort
  split
  · next hmem =>
    have herase := (List.perm_cons_erase hmem).symm
    split
    · have hbelow := (Sorter.stable key).perm
        ((l.erase a).filter (fun b => keyBot key b < keyBot key a))
      have habove := (Sorter.stable key).perm
        ((l.erase a).filter (fun b => !decide (keyBot key b < keyBot key a)))
      have hparts := List.filter_append_perm (fun b => decide (keyBot key b < keyBot key a))
        (l.erase a)
      exact ((hbelow.append (habove.cons a)).trans
        (List.perm_middle.trans (hparts.cons a))).trans herase
    · exact herase
  · exact (Sorter.stable key).perm l

omit [DecidableEq α] in
theorem keyBot_le {a b : α} (h : keyBot key a ≤ keyBot key b) :
    ∀ x ∈ key a, ∀ y ∈ key b, x ≤ y := by
  intro x hx y hy
  rw [keyBot, keyBot, Option.mem_def.mp hx, Option.mem_def.mp hy] at h
  exact WithBot.coe_le_coe.mp h

/-- The sort that puts the element in front of its equals. -/
def Sorter.front (key : α → Option K) (a : α) : Sorter key where
  sort := frontSort key a
  perm := frontSort_perm a
  ascending := by
    intro l hkeys
    unfold frontSort
    split
    · have hpart : ∀ p : α → Bool, ((Sorter.stable key).sort ((l.erase a).filter p)).Pairwise
          (fun a b => ∀ x ∈ key a, ∀ y ∈ key b, x ≤ y) := by
        intro p
        apply (Sorter.stable key).ascending
        intro b hb
        exact hkeys b (List.mem_of_mem_erase (List.mem_filter.mp hb).1)
      have hbelow : ∀ b ∈ (Sorter.stable key).sort
          ((l.erase a).filter (fun b => keyBot key b < keyBot key a)),
            keyBot key b < keyBot key a := by
        intro b hb
        have hmem := ((Sorter.stable key).perm _).mem_iff.mp hb
        exact of_decide_eq_true (List.mem_filter.mp hmem).2
      have habove : ∀ b ∈ (Sorter.stable key).sort
          ((l.erase a).filter (fun b => !decide (keyBot key b < keyBot key a))),
            keyBot key a ≤ keyBot key b := by
        intro b hb
        have hmem := ((Sorter.stable key).perm _).mem_iff.mp hb
        simpa using (List.mem_filter.mp hmem).2
      refine List.pairwise_append.mpr ⟨hpart _, List.pairwise_cons.mpr ⟨?_, hpart _⟩, ?_⟩
      · intro b hb
        exact keyBot_le (habove b hb)
      · intro b hb c hc
        rcases List.mem_cons.mp hc with rfl | hc
        · exact keyBot_le (hbelow b hb).le
        · exact keyBot_le ((hbelow b hb).le.trans (habove c hc))
    · exact (Sorter.stable key).ascending l hkeys

/-- Where the element stands. -/
theorem front_sort {a : α} {l : List α} (hmem : a ∈ l) :
    ∃ before after, (Sorter.front key a).sort l = before ++ a :: after ∧
      ((∀ b ∈ l, (key b).isSome) → ∀ b ∈ before, keyBot key b < keyBot key a) ∧
      ((∃ b ∈ l, key b = none) → before = []) := by
  show ∃ before after, frontSort key a l = before ++ a :: after ∧ _
  unfold frontSort
  rw [if_pos hmem]
  by_cases hkeys : ∀ b ∈ l, (key b).isSome
  · rw [if_pos hkeys]
    refine ⟨_, _, rfl, fun _ b hb => ?_, ?_⟩
    · have hmem := ((Sorter.stable key).perm _).mem_iff.mp hb
      exact of_decide_eq_true (List.mem_filter.mp hmem).2
    · rintro ⟨b, hb, hnone⟩
      have hsome := hkeys b hb
      rw [hnone] at hsome
      cases hsome
  · rw [if_neg hkeys]
    exact ⟨[], _, rfl, fun h => absurd h hkeys, fun _ => rfl⟩

end Front

end Sorting

end GameAcc.Window
