import Mathlib.Data.List.Infix
import Mathlib.Data.List.ReduceOption
import Mathlib.Logic.Relation

/-!
A numbered channel. The sender numbers its messages one after the other. The
receiver takes the number it expects next, and with it either the message of
that number or nothing at all.

Nothing is said about what carries the messages: whatever lies between the two
ends, the receiver holds under each number the message the sender gave that
number, or nothing.
-/

namespace GameAcc.NumberedChannel

variable {α : Type}

theorem map_some_reduceOption {xs : List (Option α)} (hfull : none ∉ xs) :
    xs = xs.reduceOption.map some := by
  induction xs with
  | nil => rfl
  | cons x rest ih =>
    simp only [List.mem_cons, not_or] at hfull
    cases x with
    | none => exact absurd rfl hfull.1
    | some a =>
      rw [List.reduceOption_cons_of_some, List.map_cons]
      exact congrArg (some a :: ·) (ih hfull.2)

structure Channel (α : Type) where
  sent : List α
  taken : List (Option α)

inductive Step : Channel α → Channel α → Prop
  | send (c : Channel α) (a : α) : Step c { c with sent := c.sent ++ [a] }
  | take (c : Channel α) (a : α) (hnext : c.sent[c.taken.length]? = some a) :
      Step c { c with taken := c.taken ++ [some a] }
  | skip (c : Channel α) (hnext : c.taken.length ≤ c.sent.length) :
      Step c { c with taken := c.taken ++ [none] }

/-- Any number of steps, none included. -/
abbrev Steps : Channel α → Channel α → Prop := Relation.ReflTransGen Step

/-- Under each number the receiver holds the sender's message, or nothing, and
it is at most one number ahead. -/
structure Faithful (c : Channel α) : Prop where
  genuine : ∀ (k : Nat) (a : α), c.taken[k]? = some (some a) → c.sent[k]? = some a
  bounded : c.taken.length ≤ c.sent.length + 1

namespace Faithful

theorem empty : Faithful (⟨[], []⟩ : Channel α) where
  genuine := by simp
  bounded := by simp

theorem step {c c' : Channel α} (h : Faithful c) (hstep : Step c c') : Faithful c' := by
  cases hstep with
  | send a =>
    refine ⟨?_, ?_⟩
    · intro k b hk
      have hold : c.sent[k]? = some b := h.genuine k b hk
      obtain ⟨hlt, -⟩ := List.getElem?_eq_some_iff.mp hold
      rw [List.getElem?_append_left hlt, hold]
    · have := h.bounded
      simp only [List.length_append, List.length_singleton]
      omega
  | take a hnext =>
    obtain ⟨hlt, -⟩ := List.getElem?_eq_some_iff.mp hnext
    refine ⟨?_, ?_⟩
    · intro k b hk
      rw [List.getElem?_append] at hk
      split at hk
      · exact h.genuine k b hk
      · have hend : k = c.taken.length := by
          by_contra hne
          rw [List.getElem?_eq_none (by simp; omega)] at hk
          simp at hk
        subst hend
        simp only [Nat.sub_self, List.getElem?_cons_zero, Option.some.injEq] at hk
        exact hk ▸ hnext
    · simp only [List.length_append, List.length_singleton]
      omega
  | skip hnext =>
    refine ⟨?_, ?_⟩
    · intro k b hk
      rw [List.getElem?_append] at hk
      split at hk
      · exact h.genuine k b hk
      · rw [List.getElem?_singleton] at hk
        split at hk <;> simp at hk
    · simp only [List.length_append, List.length_singleton]
      omega

theorem steps {c c' : Channel α} (h : Faithful c) (hsteps : Steps c c') : Faithful c' := by
  induction hsteps with
  | refl => exact h
  | tail _ hstep ih => exact ih.step hstep

/-- A receiver that took a message with every number holds, in order and
without a gap, what the sender sent first. -/
theorem isPrefix {c : Channel α} (h : Faithful c) (hfull : none ∉ c.taken) :
    c.taken.reduceOption <+: c.sent := by
  have hsome : c.taken = c.taken.reduceOption.map some := map_some_reduceOption hfull
  rw [List.prefix_iff_getElem?]
  intro k hk
  apply h.genuine
  have hat : (c.taken.reduceOption.map some)[k]? = some (some c.taken.reduceOption[k]) := by
    rw [List.getElem?_map, List.getElem?_eq_getElem hk, Option.map_some]
  exact (congrArg (·[k]?) hsome).trans hat

end Faithful

/-- What lies under the same number on both sides is taken in order. -/
theorem reduceOption_sublist {taken : List (Option α)} {sent : List α}
    (h : ∀ (k : Nat) (a : α), taken[k]? = some (some a) → sent[k]? = some a) :
    taken.reduceOption.Sublist sent := by
  induction taken generalizing sent with
  | nil => exact List.nil_sublist sent
  | cons x rest ih =>
    have htail : rest.reduceOption.Sublist sent.tail := by
      apply ih
      intro k a hk
      rw [List.getElem?_tail]
      exact h (k + 1) a hk
    cases x with
    | none =>
      rw [List.reduceOption_cons_of_none]
      exact htail.trans (List.tail_sublist sent)
    | some a =>
      have hhead : sent[0]? = some a := h 0 a rfl
      cases sent with
      | nil => simp at hhead
      | cons b bs =>
        simp only [List.getElem?_cons_zero, Option.some.injEq] at hhead
        rw [List.reduceOption_cons_of_some, hhead]
        exact htail.cons_cons a

/-- A number that was skipped is missing from what was taken. -/
theorem reduceOption_sublist_eraseIdx {taken : List (Option α)} {sent : List α} {n : Nat}
    (h : ∀ (k : Nat) (a : α), taken[k]? = some (some a) → sent[k]? = some a)
    (hskipped : taken[n]? = some none) : taken.reduceOption.Sublist (sent.eraseIdx n) := by
  induction n generalizing taken sent with
  | zero =>
    cases taken with
    | nil => simp at hskipped
    | cons x rest =>
      simp only [List.getElem?_cons_zero, Option.some.injEq] at hskipped
      subst hskipped
      rw [List.reduceOption_cons_of_none, List.eraseIdx_zero]
      apply reduceOption_sublist
      intro k a hk
      rw [List.getElem?_tail]
      exact h (k + 1) a hk
  | succ n ih =>
    cases taken with
    | nil => simp at hskipped
    | cons x rest =>
      have htail : rest.reduceOption.Sublist (sent.tail.eraseIdx n) := by
        apply ih
        · intro k a hk
          rw [List.getElem?_tail]
          exact h (k + 1) a hk
        · simpa using hskipped
      cases x with
      | none =>
        rw [List.reduceOption_cons_of_none]
        apply htail.trans
        cases sent with
        | nil => simp
        | cons b bs => exact List.sublist_cons_self b (bs.eraseIdx n)
      | some a =>
        have hhead : sent[0]? = some a := h 0 a rfl
        cases sent with
        | nil => simp at hhead
        | cons b bs =>
          simp only [List.getElem?_cons_zero, Option.some.injEq] at hhead
          rw [List.reduceOption_cons_of_some, hhead, List.eraseIdx_cons_succ]
          exact htail.cons_cons a

/-- Sending any number of messages, one after the other. -/
theorem Steps.sends (c : Channel α) (as : List α) :
    Steps c { c with sent := c.sent ++ as } := by
  induction as generalizing c with
  | nil => rw [List.append_nil]
  | cons a rest ih =>
    have hfirst : Steps c { c with sent := c.sent ++ [a] } := .single (.send c a)
    have hrest := ih { c with sent := c.sent ++ [a] }
    rw [List.append_assoc] at hrest
    exact hfirst.trans hrest

end GameAcc.NumberedChannel
