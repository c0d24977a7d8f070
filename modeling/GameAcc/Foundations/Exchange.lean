import Mathlib.Data.List.Pairwise
import Mathlib.Logic.Relation

/-!
One end asks the other for something, and may change what it asks for. Every
request has a number; a new one gets a larger number, and a request may be sent
again under its own. The other end answers the requests that reach it, with an
acknowledgement or without. The two lines between the ends lose what they carry,
but they keep its order.

When the asking end has an acknowledgement for what it asks now, the last request
the other end answered is this very one.
-/

namespace GameAcc

structure Exchange (α : Type) where
  number : Nat
  content : α
  live : Bool
  acked : Bool
  asks : List (Nat × α)
  asked : Option (Nat × α)
  acks : List (Nat × α)

namespace Exchange

variable {α : Type}

inductive Step : Exchange α → Exchange α → Prop
  | ask (x : Exchange α) (n : Nat) (a : α) (hnew : x.number < n) :
      Step x { x with
        number := n, content := a, live := true, acked := false, asks := x.asks ++ [(n, a)] }
  | again (x : Exchange α) :
      Step x { x with asks := x.asks ++ [(x.number, x.content)] }
  | forget (x : Exchange α) : Step x { x with acked := false }
  | rest (x : Exchange α) (n : Nat) (a : α) (hnumber : x.number ≤ n) :
      Step x { x with number := n, content := a, live := false, acked := false }
  | answer (x : Exchange α) (p : Nat × α) (rest : List (Nat × α)) (grant : Bool)
      (hasks : x.asks = p :: rest) :
      Step x { x with
        asks := rest, asked := some p, acks := if grant then x.acks ++ [p] else x.acks }
  | hear (x : Exchange α) (p : Nat × α) (rest : List (Nat × α)) (hacks : x.acks = p :: rest)
      (hlive : x.live = true) (hnumber : p.1 = x.number) :
      Step x { x with acks := rest, acked := true }
  | lose (x : Exchange α) (asks acks : List (Nat × α)) (hasks : asks.Sublist x.asks)
      (hacks : acks.Sublist x.acks) : Step x { x with asks, acks }

/-- Any number of steps, none included. -/
abbrev Steps : Exchange α → Exchange α → Prop := Relation.ReflTransGen Step

/-- A request or an answer with the number in use says what is asked for. -/
def Current (x : Exchange α) (p : Nat × α) : Prop :=
  p.1 ≤ x.number ∧ (x.live = true → p.1 = x.number → p.2 = x.content)

structure Ordered (x : Exchange α) : Prop where
  asks : ∀ p ∈ x.asks, Current x p
  sorted : x.asks.Pairwise (·.1 ≤ ·.1)
  asked : ∀ q ∈ x.asked, Current x q ∧ ∀ p ∈ x.asks, q.1 ≤ p.1
  acks : ∀ p ∈ x.acks, ∃ q ∈ x.asked, p.1 ≤ q.1
  acked : x.acked = true → x.live = true ∧ ∃ q ∈ x.asked, q.1 = x.number

namespace Ordered

variable {x y : Exchange α}

/-- Nothing with a larger number has been asked for. -/
theorem asked_le (h : Ordered x) {q : Nat × α} (hq : q ∈ x.asked) : q.1 ≤ x.number :=
  (h.asked q hq).1.1

theorem ask (h : Ordered x) (n : Nat) (a : α) (hnew : x.number < n) :
    Ordered { x with
      number := n, content := a, live := true, acked := false, asks := x.asks ++ [(n, a)] } where
  asks p hp := by
    rcases List.mem_append.mp hp with hold | hnewest
    · have hle := (h.asks p hold).1
      exact ⟨by simp only; omega, fun _ heq => by simp only at heq; omega⟩
    · rw [List.mem_singleton.mp hnewest]
      exact ⟨Nat.le_refl n, fun _ _ => rfl⟩
  sorted := by
    rw [List.pairwise_append]
    refine ⟨h.sorted, List.pairwise_singleton _ _, ?_⟩
    intro p hp p' hp'
    rw [List.mem_singleton.mp hp']
    have hle := (h.asks p hp).1
    simp only
    omega
  asked q hq := by
    have hle := h.asked_le hq
    refine ⟨⟨by simp only; omega, fun _ heq => by simp only at heq; omega⟩, ?_⟩
    intro p hp
    rcases List.mem_append.mp hp with hold | hnewest
    · exact (h.asked q hq).2 p hold
    · rw [List.mem_singleton.mp hnewest]
      simp only
      omega
  acks := h.acks
  acked := by simp

theorem again (h : Ordered x) :
    Ordered { x with asks := x.asks ++ [(x.number, x.content)] } where
  asks p hp := by
    rcases List.mem_append.mp hp with hold | hnewest
    · exact h.asks p hold
    · rw [List.mem_singleton.mp hnewest]
      exact ⟨Nat.le_refl _, fun _ _ => rfl⟩
  sorted := by
    rw [List.pairwise_append]
    refine ⟨h.sorted, List.pairwise_singleton _ _, ?_⟩
    intro p hp p' hp'
    rw [List.mem_singleton.mp hp']
    exact (h.asks p hp).1
  asked q hq := by
    refine ⟨(h.asked q hq).1, ?_⟩
    intro p hp
    rcases List.mem_append.mp hp with hold | hnewest
    · exact (h.asked q hq).2 p hold
    · rw [List.mem_singleton.mp hnewest]
      exact h.asked_le hq
  acks := h.acks
  acked := h.acked

theorem forget (h : Ordered x) : Ordered { x with acked := false } where
  asks := h.asks
  sorted := h.sorted
  asked := h.asked
  acks := h.acks
  acked := by simp

theorem rest (h : Ordered x) (n : Nat) (a : α) (hnumber : x.number ≤ n) :
    Ordered { x with number := n, content := a, live := false, acked := false } where
  asks p hp := ⟨Nat.le_trans (h.asks p hp).1 hnumber, by simp⟩
  sorted := h.sorted
  asked q hq := ⟨⟨Nat.le_trans (h.asked_le hq) hnumber, by simp⟩, (h.asked q hq).2⟩
  acks := h.acks
  acked := by simp

/-- The first request that is still on its way is not older than the last one
that was answered. -/
theorem answer (h : Ordered x) (p : Nat × α) (rest : List (Nat × α)) (grant : Bool)
    (hasks : x.asks = p :: rest) :
    Ordered { x with
      asks := rest, asked := some p, acks := if grant then x.acks ++ [p] else x.acks } := by
  have hsorted : (p :: rest).Pairwise (·.1 ≤ ·.1) := hasks ▸ h.sorted
  have hfirst : p ∈ x.asks := by simp [hasks]
  have hlater : ∀ q ∈ x.asked, q.1 ≤ p.1 := fun q hq => (h.asked q hq).2 p hfirst
  refine ⟨?_, hsorted.of_cons, ?_, ?_, ?_⟩
  · intro p' hp'
    exact h.asks p' (by simp only [hasks]; exact List.mem_cons_of_mem p hp')
  · intro q hq
    obtain rfl : p = q := by simpa using hq
    exact ⟨h.asks p hfirst, fun p' hp' => List.rel_of_pairwise_cons hsorted hp'⟩
  · intro p' hp'
    have hcases : p' ∈ x.acks ∨ p' = p := by
      cases grant
      · exact .inl (by simpa using hp')
      · simpa using hp'
    rcases hcases with hold | rfl
    · obtain ⟨q, hq, hle⟩ := h.acks p' hold
      exact ⟨p, rfl, Nat.le_trans hle (hlater q hq)⟩
    · exact ⟨p', rfl, Nat.le_refl _⟩
  · intro hacked
    obtain ⟨hlive, q, hq, hnumber⟩ := h.acked hacked
    refine ⟨hlive, p, rfl, ?_⟩
    have hle := (h.asks p hfirst).1
    have hge := hlater q hq
    simp only
    omega

theorem hear (h : Ordered x) (p : Nat × α) (rest : List (Nat × α)) (hacks : x.acks = p :: rest)
    (hlive : x.live = true) (hnumber : p.1 = x.number) :
    Ordered { x with acks := rest, acked := true } where
  asks := h.asks
  sorted := h.sorted
  asked := h.asked
  acks p' hp' := h.acks p' (by rw [hacks]; exact List.mem_cons_of_mem p hp')
  acked _ := by
    obtain ⟨q, hq, hle⟩ := h.acks p (by simp [hacks])
    have hge := h.asked_le hq
    exact ⟨hlive, q, hq, by simp only; omega⟩

theorem lose (h : Ordered x) (asks acks : List (Nat × α)) (hasks : asks.Sublist x.asks)
    (hacks : acks.Sublist x.acks) : Ordered { x with asks, acks } where
  asks p hp := h.asks p (hasks.subset hp)
  sorted := h.sorted.sublist hasks
  asked q hq := ⟨(h.asked q hq).1, fun p hp => (h.asked q hq).2 p (hasks.subset hp)⟩
  acks p hp := h.acks p (hacks.subset hp)
  acked := h.acked

theorem step (h : Ordered x) (hstep : Step x y) : Ordered y := by
  cases hstep with
  | ask n a hnew => exact h.ask n a hnew
  | again => exact h.again
  | forget => exact h.forget
  | rest n a hnumber => exact h.rest n a hnumber
  | answer p rest grant hasks => exact h.answer p rest grant hasks
  | hear p rest hacks hlive hnumber => exact h.hear p rest hacks hlive hnumber
  | lose asks acks hasks hacks => exact h.lose asks acks hasks hacks

theorem steps (h : Ordered x) (hsteps : Steps x y) : Ordered y := by
  induction hsteps with
  | refl => exact h
  | tail _ hstep ih => exact ih.step hstep

/-- What is acknowledged now is the last request that was answered. -/
theorem agree (h : Ordered x) (hacked : x.acked = true) :
    x.asked = some (x.number, x.content) := by
  obtain ⟨hlive, q, hq, hnumber⟩ := h.acked hacked
  have hcontent := (h.asked q hq).1.2 hlive hnumber
  rw [Option.mem_def.mp hq, ← hnumber, ← hcontent]

end Ordered

end Exchange

end GameAcc
