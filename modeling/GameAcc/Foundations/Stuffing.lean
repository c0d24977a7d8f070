import Mathlib.Data.List.Basic
import Mathlib.Tactic.Common

/-!
Byte stuffing over any alphabet. A frame ends with a flag. Inside a frame a
symbol may be sent as the escape and a transformed symbol, and flags and escapes
have to be. The reader below holds what came since the last flag, up to a limit;
it forgets a pending escape when it finds that nothing is there to be read, which
is what a gap stands for.
-/

namespace GameAcc

structure Stuffing (α : Type*) where
  flag : α
  escape : α
  trans : α → α
  trans_trans : ∀ a, trans (trans a) = a
  flag_ne_escape : flag ≠ escape

namespace Stuffing

variable {α : Type*} (s : Stuffing α)

/-- Neither a flag nor an escape. -/
def Ordinary (a : α) : Prop := a ≠ s.flag ∧ a ≠ s.escape

instance [DecidableEq α] (a : α) : Decidable (s.Ordinary a) := inferInstanceAs (Decidable (_ ∧ _))

/-- The ways to send a sequence of symbols inside a frame. -/
inductive Stuffed : List α → List α → Prop
  | nil : Stuffed [] []
  | plain {a : α} {xs cs : List α} (hplain : s.Ordinary a) (hrest : Stuffed xs cs) :
      Stuffed (a :: xs) (a :: cs)
  | escaped {a : α} {xs cs : List α} (htrans : s.Ordinary (s.trans a)) (hrest : Stuffed xs cs) :
      Stuffed (a :: xs) (s.escape :: s.trans a :: cs)

/-- A stream of frames, each closed by a flag; there may be flags in excess. -/
inductive Framed : List (List α) → List α → Prop
  | nil : Framed [] []
  | flag {fs : List (List α)} {cs : List α} (hrest : Framed fs cs) : Framed fs (s.flag :: cs)
  | frame {f : List α} {fs : List (List α)} {cs rest : List α} (hf : f ≠ [])
      (hstuffed : s.Stuffed f cs) (hrest : Framed fs rest) :
      Framed (f :: fs) (cs ++ s.flag :: rest)

/-- The symbols as a writer sends them that escapes those with `must`. -/
def stuff (must : α → Bool) (xs : List α) : List α :=
  xs.flatMap (fun a => if must a then [s.escape, s.trans a] else [a])

theorem stuffed_stuff {must : α → Bool} (hmust : ∀ a, must a = false → s.Ordinary a)
    (htrans : ∀ a, must a = true → s.Ordinary (s.trans a)) (xs : List α) :
    s.Stuffed xs (s.stuff must xs) := by
  induction xs with
  | nil => exact Stuffed.nil
  | cons a xs ih =>
    rw [stuff, List.flatMap_cons]
    cases ha : must a with
    | true => exact Stuffed.escaped (htrans a ha) ih
    | false => exact Stuffed.plain (hmust a ha) ih

theorem Stuffed.append {xs ys cs ds : List α} (hxs : s.Stuffed xs cs) (hys : s.Stuffed ys ds) :
    s.Stuffed (xs ++ ys) (cs ++ ds) := by
  induction hxs with
  | nil => exact hys
  | plain hplain _ ih => exact Stuffed.plain hplain ih
  | escaped htrans _ ih => exact Stuffed.escaped htrans ih

inductive Symbol (α : Type*) where
  | put (a : α)
  | gap
deriving DecidableEq

structure Reader (α : Type*) where
  held : List α
  escaped : Bool
  broken : Bool
deriving DecidableEq

def Reader.start : Reader α := { held := [], escaped := false, broken := false }

/-- No gap follows an escape. -/
def Unsplit (xs : List (Symbol α)) : Prop := ¬ [Symbol.put s.escape, .gap] <:+: xs

instance [DecidableEq α] (xs : List (Symbol α)) : Decidable (s.Unsplit xs) :=
  inferInstanceAs (Decidable (¬ _))

/-- The symbols without the gaps. -/
def puts : List (Symbol α) → List α
  | [] => []
  | .put a :: xs => a :: puts xs
  | .gap :: xs => puts xs

@[simp] theorem puts_append (xs ys : List (Symbol α)) : puts (xs ++ ys) = puts xs ++ puts ys := by
  induction xs with
  | nil => rfl
  | cons x xs ih => cases x <;> simp [puts, ih]

theorem Unsplit.tail {x : Symbol α} {xs : List (Symbol α)} (h : s.Unsplit (x :: xs)) :
    s.Unsplit xs :=
  fun hinside => h (hinside.trans (List.suffix_cons x xs).isInfix)

section Reading

variable [DecidableEq α]

/-- The reader takes a symbol; a flag completes the frame it holds. An escaped flag
and a frame beyond the limit break it. -/
def take (limit : Nat) (r : Reader α) : Symbol α → Reader α × List (List α)
  | .gap => ({ r with escaped := false }, [])
  | .put a =>
    if r.broken then ({ r with escaped := false }, [])
    else if a = s.flag then
      if r.escaped then ({ r with escaped := false, broken := true }, [])
      else if r.held = [] then (r, [])
      else ({ r with held := [] }, [r.held])
    else if a = s.escape then ({ r with escaped := true }, [])
    else if r.held.length < limit then
      ({ r with held := r.held ++ [if r.escaped then s.trans a else a], escaped := false }, [])
    else ({ r with escaped := false, broken := true }, [])

def read (limit : Nat) : Reader α → List (Symbol α) → Reader α × List (List α)
  | r, [] => (r, [])
  | r, x :: xs =>
    let taken := s.take limit r x
    let rest := read limit taken.1 xs
    (rest.1, taken.2 ++ rest.2)

variable {limit : Nat} (r : Reader α)

@[simp] theorem read_nil : s.read limit r [] = (r, []) := rfl

theorem read_append (xs ys : List (Symbol α)) :
    s.read limit r (xs ++ ys) =
      ((s.read limit (s.read limit r xs).1 ys).1,
        (s.read limit r xs).2 ++ (s.read limit (s.read limit r xs).1 ys).2) := by
  induction xs generalizing r with
  | nil => simp
  | cons x xs ih => simp [read, ih, List.append_assoc]

/-- A reader with nothing of a frame lost holds what it holds and one more frame part. -/
theorem read_stuffed {xs cs : List α} (h : s.Stuffed xs cs) (held : List α)
    (hlimit : held.length + xs.length ≤ limit) :
    s.read limit ⟨held, false, false⟩ (cs.map .put) = (⟨held ++ xs, false, false⟩, []) := by
  induction h generalizing held with
  | nil => simp
  | @plain a xs cs hplain _ ih =>
    obtain ⟨hflag, hescape⟩ := hplain
    have hroom : held.length < limit := by
      simp only [List.length_cons] at hlimit
      omega
    rw [List.map_cons, read]
    simp only [take, hflag, hescape, hroom, if_true, if_false, Bool.false_eq_true]
    rw [ih (held ++ [a]) (by
      simp only [List.length_append, List.length_cons, List.length_nil] at hlimit ⊢
      omega)]
    simp
  | @escaped a xs cs htrans _ ih =>
    obtain ⟨hflag, hescape⟩ := htrans
    have hroom : held.length < limit := by
      simp only [List.length_cons] at hlimit
      omega
    rw [List.map_cons, List.map_cons, read, read]
    simp only [take, hflag, hescape, hroom, s.flag_ne_escape.symm, if_true, if_false,
      Bool.false_eq_true, s.trans_trans]
    rw [ih (held ++ [a]) (by
      simp only [List.length_append, List.length_cons, List.length_nil] at hlimit ⊢
      omega)]
    simp

/-- Frames that fit are read as they were sent. -/
theorem read_framed {fs : List (List α)} {cs : List α} (h : s.Framed fs cs)
    (hlimit : ∀ f ∈ fs, f.length ≤ limit) :
    s.read limit Reader.start (cs.map .put) = (Reader.start, fs) := by
  induction h with
  | nil => rfl
  | flag _ ih =>
    rw [List.map_cons, read]
    simp only [take, Reader.start, if_true, if_false, Bool.false_eq_true] at ih ⊢
    rw [ih hlimit]
    rfl
  | @frame f fs cs rest hf hstuffed _ ih =>
    have hroom : ([] : List α).length + f.length ≤ limit := by
      simpa using hlimit f List.mem_cons_self
    have hfirst := s.read_stuffed hstuffed [] hroom
    rw [List.nil_append] at hfirst
    rw [List.map_append, List.map_cons, read_append, Reader.start, hfirst, read]
    simp only [take, hf, if_true, if_false, Bool.false_eq_true]
    have hrest := ih (fun g hg => hlimit g (List.mem_cons_of_mem _ hg))
    rw [Reader.start] at hrest
    rw [hrest]
    rfl

/-- A broken reader stays so, and has no more frames. -/
theorem read_broken (hbroken : r.broken = true) (xs : List (Symbol α)) :
    (s.read limit r xs).2 = [] := by
  induction xs generalizing r with
  | nil => rfl
  | cons x xs ih =>
    have hstep : (s.take limit r x).1.broken = true ∧ (s.take limit r x).2 = [] := by
      cases x <;> simp [take, hbroken]
    rw [read]
    simp only [hstep.2, List.nil_append]
    exact ih _ hstep.1

theorem eq_escape_of_escaped {x : Symbol α} (h : (s.take limit r x).1.escaped = true) :
    x = .put s.escape := by
  cases x with
  | gap => simp [take] at h
  | put a =>
    by_contra hne
    have ha : a ≠ s.escape := fun heq => hne (by rw [heq])
    simp only [take, ha, if_false] at h
    split at h
    · simp at h
    · split at h
      · split at h
        · simp at h
        · rename_i hescaped
          split at h <;> exact hescaped h
      · split at h <;> simp at h

/-- Where no escape is forgotten, gaps make no difference. -/
theorem read_unsplit {xs : List (Symbol α)} (hunsplit : s.Unsplit xs)
    (hpending : r.escaped = true → ¬ [Symbol.gap] <+: xs) :
    s.read limit r xs = s.read limit r ((puts xs).map .put) := by
  induction xs generalizing r with
  | nil => rfl
  | cons x xs ih =>
    cases x with
    | gap =>
      have hnone : r.escaped = false := by
        by_contra hescaped
        exact hpending (by simpa using hescaped) (List.prefix_append [Symbol.gap] xs)
      have hsame : ({ r with escaped := false } : Reader α) = r := by
        rw [← hnone]
      rw [read, puts, ← ih r (hunsplit.tail s) (by simp [hnone])]
      simp only [take, hsame, List.nil_append]
    | put a =>
      rw [puts, List.map_cons, read, read]
      rw [ih _ (hunsplit.tail s)]
      intro hescaped hfront
      rw [s.eq_escape_of_escaped r hescaped] at hunsplit
      obtain ⟨rest, rfl⟩ := hfront
      exact hunsplit ⟨[], rest, rfl⟩

/-- A part of a stream of frames has some of its frames, and the whole has all. -/
theorem frames_of_prefix {fs : List (List α)} {xs ys : List (Symbol α)}
    (hframed : s.Framed fs (puts (xs ++ ys))) (hlimit : ∀ f ∈ fs, f.length ≤ limit)
    (hunsplit : s.Unsplit (xs ++ ys)) :
    (s.read limit Reader.start xs).2 <+: fs ∧
      (ys = [] → (s.read limit Reader.start xs).2 = fs) := by
  have hfirst : s.Unsplit xs :=
    fun hinside => hunsplit (hinside.trans (List.prefix_append xs ys).isInfix)
  have hread := s.read_framed hframed hlimit
  rw [puts_append, List.map_append, read_append,
    ← s.read_unsplit Reader.start hfirst (by simp [Reader.start])] at hread
  have hframes := congrArg Prod.snd hread
  refine ⟨⟨_, hframes⟩, ?_⟩
  rintro rfl
  simpa [puts] using hframes

/-- Part of a frame with gaps that forget no escape. -/
theorem read_part {xs : List α} {us : List (Symbol α)} (h : s.Stuffed xs (puts us))
    (hunsplit : s.Unsplit us) (held : List α) (hlimit : held.length + xs.length ≤ limit) :
    s.read limit ⟨held, false, false⟩ us = (⟨held ++ xs, false, false⟩, []) := by
  rw [s.read_unsplit _ hunsplit (by simp)]
  exact s.read_stuffed h held hlimit

/-- A frame cut behind an escape is read with one symbol changed: behind the gap the
symbol stands for itself. -/
theorem read_cut {before after ds : List α} {us vs : List (Symbol α)} {a : α}
    (hbefore : s.Stuffed before (puts us)) (hafter : s.Stuffed after ds)
    (htrans : s.Ordinary (s.trans a)) (hvs : puts vs = s.trans a :: (ds ++ [s.flag]))
    (hcalm : s.Unsplit us) (hcalm' : s.Unsplit vs)
    (hlimit : before.length + after.length < limit) :
    s.read limit Reader.start (us ++ ([.put s.escape, .gap] ++ vs)) =
      (Reader.start, [before ++ s.trans a :: after]) := by
  have hroom : ([] : List α).length + before.length ≤ limit := by
    rw [List.length_nil]
    omega
  have hroom' : before.length + (s.trans a :: after).length ≤ limit := by
    rw [List.length_cons]
    omega
  have hfirst := s.read_part hbefore hcalm [] hroom
  have hforget : s.read limit ⟨before, false, false⟩ [.put s.escape, .gap] =
      (⟨before, false, false⟩, []) := by
    simp [read, take, s.flag_ne_escape.symm]
  have hlast := s.read_stuffed (Stuffed.plain htrans hafter) before hroom'
  have hrest : s.read limit ⟨before, false, false⟩ vs =
      (Reader.start, [before ++ s.trans a :: after]) := by
    rw [s.read_unsplit _ hcalm' (by simp), hvs, ← List.cons_append, List.map_append, read_append,
      hlast]
    simp [read, take, Reader.start]
  rw [List.nil_append] at hfirst
  rw [read_append, Reader.start, hfirst, read_append, hforget, hrest]
  rfl

/-- Frames that fit are read as they were sent, with gaps that forget no escape. -/
theorem read_frames {fs : List (List α)} {xs : List (Symbol α)}
    (hframed : s.Framed fs (puts xs)) (hlimit : ∀ f ∈ fs, f.length ≤ limit)
    (hunsplit : s.Unsplit xs) : s.read limit Reader.start xs = (Reader.start, fs) := by
  rw [s.read_unsplit Reader.start hunsplit (by simp [Reader.start])]
  exact s.read_framed hframed hlimit

end Reading

end Stuffing

end GameAcc
