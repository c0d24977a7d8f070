import Mathlib.Logic.Function.Basic

/-!
Double buffering. One writer drafts a new content in a slot that is not active
and then makes that slot the active one; it may also give a draft up. Readers
first look which slot is active and look into the slot later.

Two facts make this safe. The active slot always holds what was published last.
And a reader finds in the slot it saw active what it held then, unless the
writer both publishes and starts a new draft between the reader's two looks:
one publication alone leaves the old slot as it was.
-/

namespace GameAcc.DoubleBuffer

variable {Slot α : Type} [DecidableEq Slot]

@[ext]
structure State (Slot α : Type) where
  active : Option Slot
  content : Slot → α
  drafting : Bool
  published : Option α

inductive Action (Slot : Type) where
  | clear (slot : Slot)
  | put (slot : Slot)
  | publish (slot : Slot)
  | leave
  | idle

namespace State

def clear (s : State Slot α) (slot : Slot) (x : α) : State Slot α :=
  { s with content := Function.update s.content slot x, drafting := true }

def put (s : State Slot α) (slot : Slot) (x : α) : State Slot α :=
  { s with content := Function.update s.content slot x }

def publish (s : State Slot α) (slot : Slot) : State Slot α :=
  { s with active := some slot, drafting := false, published := some (s.content slot) }

def leave (s : State Slot α) : State Slot α := { s with drafting := false }

/-- The active slot holds what was published last. -/
def Consistent (s : State Slot α) : Prop :=
  ∀ slot, s.active = some slot → s.published = some (s.content slot)

end State

inductive Step : State Slot α → Action Slot → State Slot α → Prop
  | clear (s : State Slot α) (slot : Slot) (x : α) (inactive : s.active ≠ some slot) :
      Step s (.clear slot) (s.clear slot x)
  | put (s : State Slot α) (slot : Slot) (x : α) (drafting : s.drafting = true)
      (inactive : s.active ≠ some slot) : Step s (.put slot) (s.put slot x)
  | publish (s : State Slot α) (slot : Slot) : Step s (.publish slot) (s.publish slot)
  | leave (s : State Slot α) : Step s .leave s.leave
  | idle (s : State Slot α) : Step s .idle s

inductive Run : State Slot α → List (Action Slot) → State Slot α → Prop
  | nil (s : State Slot α) : Run s [] s
  | cons {s s' s'' : State Slot α} {a : Action Slot} {actions : List (Action Slot)}
      (hstep : Step s a s') (hrest : Run s' actions s'') : Run s (a :: actions) s''

theorem update_inactive {s : State Slot α} {active slot : Slot} (x : α)
    (hactive : s.active = some active) (hinactive : s.active ≠ some slot) :
    Function.update s.content slot x active = s.content active := by
  have hne : active ≠ slot := by
    rintro rfl
    exact hinactive hactive
  exact Function.update_of_ne hne x s.content

theorem Step.consistent {s s' : State Slot α} {a : Action Slot} (h : Step s a s')
    (hs : s.Consistent) : s'.Consistent := by
  cases h with
  | clear slot x hinactive =>
    intro active hactive
    have hbefore : s.active = some active := hactive
    have hkept := update_inactive x hbefore hinactive
    exact (hs active hactive).trans (congrArg some hkept.symm)
  | put slot x _ hinactive =>
    intro active hactive
    have hbefore : s.active = some active := hactive
    have hkept := update_inactive x hbefore hinactive
    exact (hs active hactive).trans (congrArg some hkept.symm)
  | publish slot =>
    intro active hactive
    obtain rfl := Option.some.inj hactive
    rfl
  | leave => exact hs
  | idle => exact hs

/-- Without a new draft, all slots stay as they are. -/
theorem Run.content_of_no_clear {s s' : State Slot α} {actions : List (Action Slot)}
    (h : Run s actions s') (hdraft : s.drafting = false)
    (hclear : ∀ slot, Action.clear slot ∉ actions) : s'.content = s.content := by
  induction h with
  | nil s => rfl
  | @cons s s₁ s₂ a actions hstep _ ih =>
    have hrest : ∀ slot, Action.clear slot ∉ actions :=
      fun slot hmem => hclear slot (List.mem_cons_of_mem a hmem)
    cases hstep with
    | clear slot x _ => exact absurd List.mem_cons_self (hclear slot)
    | put slot x hdrafting _ =>
      rw [hdraft] at hdrafting
      cases hdrafting
    | publish slot => exact ih rfl hrest
    | leave => exact ih rfl hrest
    | idle => exact ih hdraft hrest

/-- Something is published, and a new draft is started later. -/
def PublishedThenCleared (actions : List (Action Slot)) : Prop :=
  ∃ before slot rest, actions = before ++ .publish slot :: rest ∧
    ∃ slot', Action.clear slot' ∈ rest

/-- The reader's window. -/
theorem Run.content_of_active {s s' : State Slot α} {actions : List (Action Slot)}
    (h : Run s actions s') {slot : Slot} (hactive : s.active = some slot)
    (hwindow : ¬PublishedThenCleared actions) : s'.content slot = s.content slot := by
  induction h with
  | nil s => rfl
  | @cons s s₁ s₂ a actions hstep hrun ih =>
    have hrest : ¬PublishedThenCleared actions := by
      rintro ⟨before, slot', rest, rfl, hclear⟩
      exact hwindow ⟨a :: before, slot', rest, rfl, hclear⟩
    cases hstep with
    | clear slot' x hinactive =>
      rw [ih hactive hrest]
      exact update_inactive x hactive hinactive
    | put slot' x _ hinactive =>
      rw [ih hactive hrest]
      exact update_inactive x hactive hinactive
    | publish slot' =>
      -- From here on no slot may change at all.
      have hclear : ∀ slot'', Action.clear slot'' ∉ actions := by
        intro slot'' hmem
        exact hwindow ⟨[], slot', actions, rfl, slot'', hmem⟩
      rw [hrun.content_of_no_clear rfl hclear]
      rfl
    | leave => exact ih hactive hrest
    | idle => exact ih hactive hrest

end GameAcc.DoubleBuffer
