import GameAcc.Foundations.Command

/-!
Programs that do not disturb each other. Two commands commute when neither
changes the other's reply and their effects can be exchanged. Programs all of
whose commands commute can be run in either order: each gives the value it
gives alone, and the state is the same.
-/

namespace GameAcc.Command

open Program

variable {C : Type} {R : C → Type} {E α β S : Type}

/-- The reply to a command. -/
def reply (server : Server C R E S) (c : C) (s : S) : Except E (R c) :=
  (server c s).map Prod.fst

/-- The state after a command; a refused one has no effect. -/
def after (server : Server C R E S) (c : C) (s : S) : S :=
  match server c s with
  | .ok (_, s') => s'
  | .error _ => s

structure Commute (server : Server C R E S) (c d : C) : Prop where
  reply_left : ∀ s, reply server c (after server d s) = reply server c s
  reply_right : ∀ s, reply server d (after server c s) = reply server d s
  state : ∀ s, after server d (after server c s) = after server c (after server d s)

variable {server : Server C R E S}

theorem Commute.symm {c d : C} (h : Commute server c d) : Commute server d c :=
  ⟨h.reply_right, h.reply_left, fun s => (h.state s).symm⟩

theorem run_issue_ok {c : C} {next : R c → Program C R E α} {s : S} {r : R c}
    (h : reply server c s = .ok r) :
    run server (.issue c next) s = run server (next r) (after server c s) := by
  unfold reply at h
  unfold after
  rw [run]
  cases hexec : server c s with
  | ok out =>
    rw [hexec] at h
    obtain rfl := Except.ok.inj h
    rfl
  | error e =>
    rw [hexec] at h
    cases h

theorem run_issue_error {c : C} {next : R c → Program C R E α} {s : S} {e : E}
    (h : reply server c s = .error e) :
    run server (.issue c next) s = (.error e, s) := by
  unfold reply at h
  rw [run]
  cases hexec : server c s with
  | ok out =>
    rw [hexec] at h
    cases h
  | error e' =>
    rw [hexec] at h
    obtain rfl := Except.error.inj h
    rfl

/-- A program and a command that commutes with all of its commands. -/
theorem run_after {d : C} {p : Program C R E α} (h : Only (Commute server d) p) (s : S) :
    run server p (after server d s) =
        ((run server p s).1, after server d (run server p s).2) ∧
      reply server d (run server p s).2 = reply server d s := by
  induction p generalizing s with
  | done a => exact ⟨rfl, rfl⟩
  | stop e => exact ⟨rfl, rfl⟩
  | issue c next ih =>
    obtain ⟨hc, hnext⟩ := h
    have hreply := hc.reply_right s
    cases hr : reply server c s with
    | ok r =>
      rw [hr] at hreply
      obtain ⟨hrun, hd⟩ := ih r (hnext r) (after server c s)
      rw [run_issue_ok hr, run_issue_ok hreply, hc.state s, hrun]
      exact ⟨rfl, hd.trans (hc.reply_left s)⟩
    | error e =>
      rw [hr] at hreply
      rw [run_issue_error hr, run_issue_error hreply]
      exact ⟨rfl, rfl⟩

/-- Two programs whose commands commute: the second one gives what it gives
alone, and the state does not depend on the order. -/
theorem run_comm {p : Program C R E α} {q : Program C R E β}
    (h : Only (fun c => Only (Commute server c) q) p) (s : S) :
    (run server q (run server p s).2).1 = (run server q s).1 ∧
      (run server q (run server p s).2).2 = (run server p (run server q s).2).2 := by
  induction p generalizing s with
  | done a => exact ⟨rfl, rfl⟩
  | stop e => exact ⟨rfl, rfl⟩
  | issue c next ih =>
    obtain ⟨hc, hnext⟩ := h
    obtain ⟨hrun, hreply⟩ := run_after hc s
    cases hr : reply server c s with
    | ok r =>
      rw [hr] at hreply
      obtain ⟨hvalue, hstate⟩ := ih r (hnext r) (after server c s)
      rw [run_issue_ok hr, run_issue_ok hreply, hvalue, hstate, hrun]
      exact ⟨rfl, rfl⟩
    | error e =>
      rw [hr] at hreply
      rw [run_issue_error hr, run_issue_error hreply]
      exact ⟨rfl, rfl⟩

theorem Only.mono {P Q : C → Prop} (himp : ∀ c, P c → Q c) {p : Program C R E α}
    (h : Only P p) : Only Q p := by
  induction p with
  | done a => trivial
  | stop e => trivial
  | issue c next ih => exact ⟨himp c h.1, fun r => ih r (h.2 r)⟩

theorem Only.foldlM {γ : Type} {P : C → Prop} {f : β → γ → Program C R E β}
    (h : ∀ b x, Only P (f b x)) (l : List γ) (b : β) : Only P (l.foldlM f b) := by
  induction l generalizing b with
  | nil => trivial
  | cons x rest ih =>
    rw [List.foldlM_cons]
    exact (h b x).bind ih

end GameAcc.Command
