import Mathlib.Tactic

/-!
Programs that talk to a server one command at a time. A program is a tree: it
ends with a value, stops with an error, or issues a command and continues on
the reply. The server executes one command atomically on its state, or refuses
it and leaves the state alone.

Three questions are asked about such programs. What does a whole run do
(`run`)? Which states lie between two commands (`Steps`), where another party
may look or the run may be cut short? And what holds at all of these states
(`Holds`)? `Holds` is a Hoare logic with three postconditions: one where the
program ends, one where it stops with an error, and one at every command it is
about to issue. The rules at the end of the file compose it along `>>=`.
-/

namespace GameAcc.Command

variable {C : Type} {R : C → Type} {E α β S : Type}

inductive Program (C : Type) (R : C → Type) (E α : Type) : Type where
  | done : α → Program C R E α
  | stop : E → Program C R E α
  | issue : (c : C) → (R c → Program C R E α) → Program C R E α

namespace Program

def bind (p : Program C R E α) (f : α → Program C R E β) : Program C R E β :=
  match p with
  | .done a => f a
  | .stop e => .stop e
  | .issue c next => .issue c (fun r => (next r).bind f)

instance : Monad (Program C R E) where
  pure := .done
  bind := bind

@[simp] theorem done_bind (a : α) (f : α → Program C R E β) :
    (Program.done a >>= f) = f a := rfl

@[simp] theorem stop_bind (e : E) (f : α → Program C R E β) :
    ((Program.stop e : Program C R E α) >>= f) = .stop e := rfl

@[simp] theorem issue_bind (c : C) (next : R c → Program C R E α)
    (f : α → Program C R E β) :
    (Program.issue c next >>= f) = .issue c (fun r => next r >>= f) := rfl

theorem bind_done (p : Program C R E α) : p >>= .done = p := by
  induction p with
  | done a => rfl
  | stop e => rfl
  | issue c next ih => exact congrArg (Program.issue c) (funext ih)

theorem bind_assoc {γ : Type} (p : Program C R E α) (f : α → Program C R E β)
    (g : β → Program C R E γ) : p >>= f >>= g = p >>= fun a => f a >>= g := by
  induction p with
  | done a => rfl
  | stop e => rfl
  | issue c next ih => exact congrArg (Program.issue c) (funext ih)

end Program

/-- One command executed on a state, or refused without effect. -/
abbrev Server (C : Type) (R : C → Type) (E S : Type) : Type :=
  (c : C) → S → Except E (R c × S)

def run (server : Server C R E S) : Program C R E α → S → Except E α × S
  | .done a, s => (.ok a, s)
  | .stop e, s => (.error e, s)
  | .issue c next, s =>
    match server c s with
    | .ok (r, s') => run server (next r) s'
    | .error e => (.error e, s)

/-- A program that ends with a function of another one's value. -/
theorem run_bind_done {server : Server C R E S} (p : Program C R E α)
    {f : α → Program C R E β} {g : α → β} (h : ∀ a, f a = .done (g a)) (s : S) :
    run server (p >>= f) s = ((run server p s).1.map g, (run server p s).2) := by
  induction p generalizing s with
  | done a =>
    rw [Program.done_bind, h a]
    rfl
  | stop e => rfl
  | issue c next ih =>
    rw [Program.issue_bind]
    unfold run
    cases hexec : server c s with
    | ok out => exact ih out.1 out.2
    | error e => rfl

/-- `Steps server p s p' s'`: after some executed commands the program `p`
started in `s` has become `p'` in state `s'`. -/
inductive Steps (server : Server C R E S) :
    Program C R E α → S → Program C R E α → S → Prop where
  | refl (p : Program C R E α) (s : S) : Steps server p s p s
  | step {c : C} {next : R c → Program C R E α} {s s' s'' : S} {r : R c}
      {p : Program C R E α} (hexec : server c s = .ok (r, s'))
      (hrest : Steps server (next r) s' p s'') :
      Steps server (.issue c next) s p s''

/-- The end of a whole run is one of the points the program passes. -/
theorem steps_of_run_ok {server : Server C R E S} (p : Program C R E α) (s : S)
    {a : α} {s' : S} (h : run server p s = (.ok a, s')) :
    Steps server p s (.done a) s' := by
  induction p generalizing s with
  | done b =>
    cases h
    exact .refl _ _
  | stop e => cases h
  | issue c next ih =>
    unfold run at h
    cases hexec : server c s with
    | ok out =>
      obtain ⟨r, t⟩ := out
      simp only [hexec] at h
      exact .step hexec (ih r t h)
    | error e => simp [hexec] at h

theorem Steps.trans {server : Server C R E S} {p p' p'' : Program C R E α} {s s' s'' : S}
    (h : Steps server p s p' s') (h' : Steps server p' s' p'' s'') :
    Steps server p s p'' s'' := by
  induction h with
  | refl p s => exact h'
  | step hexec _ ih => exact .step hexec (ih h')

/-- The points of the first part are points of a sequence. -/
theorem Steps.bind {server : Server C R E S} {p p' : Program C R E α} {s s' : S}
    (h : Steps server p s p' s') (f : α → Program C R E β) :
    Steps server (p >>= f) s (p' >>= f) s' := by
  induction h with
  | refl p s => exact .refl _ _
  | step hexec _ ih => exact .step hexec ih

/-- A run that fails stops at one of the points the program passes. -/
theorem steps_of_run_error {server : Server C R E S} (p : Program C R E α) (s : S)
    {e : E} {s' : S} (h : run server p s = (.error e, s')) :
    ∃ p', Steps server p s p' s' := by
  induction p generalizing s with
  | done a => cases h
  | stop e' =>
    cases h
    exact ⟨_, .refl _ _⟩
  | issue c next ih =>
    unfold run at h
    cases hexec : server c s with
    | ok out =>
      obtain ⟨r, t⟩ := out
      simp only [hexec] at h
      obtain ⟨p', hsteps⟩ := ih r t h
      exact ⟨p', .step hexec hsteps⟩
    | error e' =>
      simp only [hexec] at h
      cases h
      exact ⟨_, .refl _ _⟩

/-- The three conditions of a program: `at_` where it is about to issue a
command, `err` where it stops, `post` where it ends. -/
structure Conditions (C : Type) (E α S : Type) where
  pending : C → S → Prop
  stopped : E → S → Prop
  ended : α → S → Prop

def Holds (server : Server C R E S) (Φ : Conditions C E α S) :
    Program C R E α → S → Prop
  | .done a, s => Φ.ended a s
  | .stop e, s => Φ.stopped e s
  | .issue c next, s =>
    Φ.pending c s ∧
      match server c s with
      | .ok (r, s') => Holds server Φ (next r) s'
      | .error e => Φ.stopped e s

section Rules

variable {server : Server C R E S} {Φ : Conditions C E α S}

@[simp] theorem holds_done {a : α} {s : S} :
    Holds server Φ (.done a) s ↔ Φ.ended a s := Iff.rfl

@[simp] theorem holds_stop {e : E} {s : S} :
    Holds server Φ (.stop e : Program C R E α) s ↔ Φ.stopped e s := Iff.rfl

theorem holds_issue {c : C} {next : R c → Program C R E α} {s : S} :
    Holds server Φ (.issue c next) s ↔
      Φ.pending c s ∧
        match server c s with
        | .ok (r, s') => Holds server Φ (next r) s'
        | .error e => Φ.stopped e s := by
  rw [Holds]

/-- What holds of a program holds of everything it becomes. -/
theorem Holds.steps {p p' : Program C R E α} {s s' : S}
    (h : Holds server Φ p s) (hsteps : Steps server p s p' s') :
    Holds server Φ p' s' := by
  induction hsteps with
  | refl p s => exact h
  | step hexec _ ih =>
    apply ih
    have hnext := (holds_issue.mp h).2
    simpa only [hexec] using hnext

theorem Holds.run {p : Program C R E α} {s : S} (h : Holds server Φ p s) :
    match run server p s with
    | (.ok a, s') => Φ.ended a s'
    | (.error e, s') => Φ.stopped e s' := by
  induction p generalizing s with
  | done a => exact h
  | stop e => exact h
  | issue c next ih =>
    obtain ⟨_, hnext⟩ := holds_issue.mp h
    unfold Command.run
    cases hexec : server c s with
    | ok out =>
      obtain ⟨r, s'⟩ := out
      simp only [hexec] at hnext ⊢
      exact ih r hnext
    | error e =>
      simp only [hexec] at hnext ⊢
      exact hnext

theorem Holds.mono {Ψ : Conditions C E α S} {p : Program C R E α} {s : S}
    (h : Holds server Φ p s)
    (hpending : ∀ c s, Φ.pending c s → Ψ.pending c s)
    (hstopped : ∀ e s, Φ.stopped e s → Ψ.stopped e s)
    (hended : ∀ a s, Φ.ended a s → Ψ.ended a s) :
    Holds server Ψ p s := by
  induction p generalizing s with
  | done a => exact hended a s h
  | stop e => exact hstopped e s h
  | issue c next ih =>
    obtain ⟨hc, hnext⟩ := holds_issue.mp h
    refine holds_issue.mpr ⟨hpending c s hc, ?_⟩
    cases hexec : server c s with
    | ok out =>
      obtain ⟨r, s'⟩ := out
      simp only [hexec] at hnext ⊢
      exact ih r hnext
    | error e =>
      simp only [hexec] at hnext ⊢
      exact hstopped e s hnext

/-- Sequencing: the first part has to end where the second one can start. -/
theorem Holds.bind {Φ : Conditions C E β S} {p : Program C R E α}
    {f : α → Program C R E β} {s : S}
    (h : Holds server
      { pending := Φ.pending, stopped := Φ.stopped,
        ended := fun a s' => Holds server Φ (f a) s' } p s) :
    Holds server Φ (p >>= f) s := by
  induction p generalizing s with
  | done a => exact h
  | stop e => exact h
  | issue c next ih =>
    obtain ⟨hc, hnext⟩ := holds_issue.mp h
    refine holds_issue.mpr ⟨hc, ?_⟩
    cases hexec : server c s with
    | ok out =>
      obtain ⟨r, s'⟩ := out
      simp only [hexec] at hnext ⊢
      exact ih r hnext
    | error e =>
      simp only [hexec] at hnext ⊢
      exact hnext

theorem Holds.issue {c : C} {next : R c → Program C R E α} {s s' : S} {r : R c}
    (hc : Φ.pending c s) (hexec : server c s = .ok (r, s'))
    (hnext : Holds server Φ (next r) s') :
    Holds server Φ (.issue c next) s := by
  refine holds_issue.mpr ⟨hc, ?_⟩
  simpa only [hexec] using hnext

/-- One command that is answered, and the rest of the program on the answer. -/
theorem Holds.command {Φ : Conditions C E β S} {c : C} {f : R c → Program C R E β}
    {s s' : S} {r : R c} (hc : Φ.pending c s) (hexec : server c s = .ok (r, s'))
    (hnext : Holds server Φ (f r) s') :
    Holds server Φ (Program.issue c .done >>= f) s :=
  Holds.issue hc hexec hnext

/-- A loop: `Inv` relates what is left to be done to the accumulator and the
state, and every pass of the body keeps it. -/
theorem Holds.foldlM {γ : Type} {Φ : Conditions C E β S}
    (Inv : List γ → β → S → Prop) {body : β → γ → Program C R E β} {as : List γ}
    {b : β} {s : S} (hinit : Inv as b s)
    (hbody : ∀ a rest b s, Inv (a :: rest) b s →
      Holds server
        { pending := Φ.pending, stopped := Φ.stopped,
          ended := fun b' s' => Inv rest b' s' } (body b a) s)
    (hdone : ∀ b s, Inv [] b s → Φ.ended b s) :
    Holds server Φ (as.foldlM body b) s := by
  induction as generalizing b s with
  | nil => exact hdone b s hinit
  | cons a rest ih =>
    rw [List.foldlM_cons]
    apply Holds.bind
    apply (hbody a rest b s hinit).mono
    · exact fun _ _ h => h
    · exact fun _ _ h => h
    · intro b' s' hnext
      exact ih hnext

end Rules

/-- Every command the program may issue, whatever the replies, has the property,
and so has the way it goes on. -/
def Always (P : (c : C) → (R c → Program C R E α) → Prop) : Program C R E α → Prop
  | .done _ => True
  | .stop _ => True
  | .issue c next => P c next ∧ ∀ r, Always P (next r)

theorem Always.bind {P : (c : C) → (R c → Program C R E β) → Prop}
    {p : Program C R E α} {f : α → Program C R E β}
    (hp : Always (fun c next => P c (fun r => next r >>= f)) p)
    (hf : ∀ a, Always P (f a)) : Always P (p >>= f) := by
  induction p with
  | done a => exact hf a
  | stop e => trivial
  | issue c next ih => exact ⟨hp.1, fun r => ih r (hp.2 r)⟩

/-- `Always` for a property of the commands alone. -/
def Only (P : C → Prop) : Program C R E α → Prop := Always (fun c _ => P c)

theorem Only.bind {P : C → Prop} {p : Program C R E α} {f : α → Program C R E β}
    (hp : Only P p) (hf : ∀ a, Only P (f a)) : Only P (p >>= f) :=
  Always.bind hp hf

/-- Every error the program may stop with, whatever the replies, has the
property. -/
def Stops (P : E → Prop) : Program C R E α → Prop
  | .done _ => True
  | .stop e => P e
  | .issue _ next => ∀ r, Stops P (next r)

theorem Stops.bind {P : E → Prop} {p : Program C R E α} {f : α → Program C R E β}
    (hp : Stops P p) (hf : ∀ a, Stops P (f a)) : Stops P (p >>= f) := by
  induction p with
  | done a => exact hf a
  | stop e => exact hp
  | issue c next ih => exact fun r => ih r (hp r)

/-- So has the error of a run, when the server's own errors have it. -/
theorem Stops.run {server : Server C R E S} {P : E → Prop} {p : Program C R E α}
    (hp : Stops P p) (hserver : ∀ c s e, server c s = .error e → P e) (s : S) {e : E}
    (h : (Command.run server p s).1 = .error e) : P e := by
  induction p generalizing s with
  | done a => cases h
  | stop e' =>
    obtain rfl := Except.error.inj h
    exact hp
  | issue c next ih =>
    unfold Command.run at h
    cases hexec : server c s with
    | ok out =>
      obtain ⟨r, s'⟩ := out
      simp only [hexec] at h
      exact ih r (hp r) s' h
    | error e' =>
      simp only [hexec] at h
      obtain rfl := Except.error.inj h
      exact hserver c s e' hexec

/-- Every value the program may end with, whatever the replies, has the
property. -/
def Ends (P : α → Prop) : Program C R E α → Prop
  | .done a => P a
  | .stop _ => True
  | .issue _ next => ∀ r, Ends P (next r)

/-- What comes last decides. -/
theorem Ends.bind {P : β → Prop} {p : Program C R E α} {f : α → Program C R E β}
    (hf : ∀ a, Ends P (f a)) : Ends P (p >>= f) := by
  induction p with
  | done a => exact hf a
  | stop e => trivial
  | issue c next ih => exact fun r => ih r

theorem Ends.run {server : Server C R E S} {P : α → Prop} {p : Program C R E α}
    (hp : Ends P p) (s : S) {a : α} (h : (Command.run server p s).1 = .ok a) : P a := by
  induction p generalizing s with
  | done b =>
    obtain rfl := Except.ok.inj h
    exact hp
  | stop e => cases h
  | issue c next ih =>
    unfold Command.run at h
    cases hexec : server c s with
    | ok out =>
      obtain ⟨r, s'⟩ := out
      simp only [hexec] at h
      exact ih r (hp r) s' h
    | error e =>
      simp only [hexec] at h
      cases h

/-- A ghost value that follows the executed commands and never influences them. -/
def ghosted {G : Type} (server : Server C R E S) (update : C → G → G) :
    Server C R E (S × G) :=
  fun c sg =>
    match server c sg.1 with
    | .ok (r, s') => .ok (r, (s', update c sg.2))
    | .error e => .error e

theorem run_ghosted {G : Type} {server : Server C R E S} (update : C → G → G)
    (p : Program C R E α) (s : S) (g : G) :
    ∃ g', run (ghosted server update) p (s, g) =
      ((run server p s).1, ((run server p s).2, g')) := by
  induction p generalizing s g with
  | done a => exact ⟨g, rfl⟩
  | stop e => exact ⟨g, rfl⟩
  | issue c next ih =>
    cases hexec : server c s with
    | ok out =>
      obtain ⟨r, s'⟩ := out
      obtain ⟨g', hg⟩ := ih r s' (update c g)
      refine ⟨g', ?_⟩
      simpa only [run, ghosted, hexec] using hg
    | error e =>
      refine ⟨g, ?_⟩
      simp only [run, ghosted, hexec]

/-- A ghost counter that goes up by at most one with every command passes each
value between its first and its last one. -/
theorem exists_steps_counter {G : Type} {server : Server C R E S} {update : C → G → G}
    {count : G → Nat} (hcount : ∀ c g, count (update c g) ≤ count g + 1) {k : Nat}
    (p : Program C R E α) {s s' : S} {g g' : G} {a : α}
    (hrun : run (ghosted server update) p (s, g) = (.ok a, (s', g')))
    (hfirst : count g ≤ k) (hlast : k < count g') :
    ∃ c next s₁ g₁, Steps (ghosted server update) p (s, g) (.issue c next) (s₁, g₁) ∧
      count g₁ = k ∧ count (update c g₁) = k + 1 := by
  induction p generalizing s g with
  | done b =>
    cases hrun
    omega
  | stop e => cases hrun
  | issue c next ih =>
    cases hexec : server c s with
    | error e =>
      simp only [run, ghosted, hexec] at hrun
      cases hrun
    | ok out =>
      obtain ⟨r, t⟩ := out
      have hghost : ghosted server update c (s, g) = .ok (r, (t, update c g)) := by
        simp only [ghosted, hexec]
      simp only [run, hghost] at hrun
      by_cases hnext : count (update c g) ≤ k
      · obtain ⟨c₁, next₁, s₁, g₁, hsteps, hk⟩ := ih r hrun hnext
        exact ⟨c₁, next₁, s₁, g₁, .step hghost hsteps, hk⟩
      · have hstep := hcount c g
        refine ⟨c, next, s, g, .refl _ _, ?_, ?_⟩
        · omega
        · omega

end GameAcc.Command
