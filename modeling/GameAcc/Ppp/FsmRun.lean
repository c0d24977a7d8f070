import GameAcc.Ppp.Fsm

/-!
What holds of an automaton after any events, whatever its callbacks do: in the
states that wait for an answer exactly one timer runs, and none in the others;
the layer above hears of an opened link and of its end by turns; and what
answers the last request has been seen once a request is acknowledged.
-/

namespace GameAcc.Ppp

variable {σ : Type}

/-- The states in which `fsm_timeout` is due some time. -/
def waits (s : State) : Bool := s = .closing || s = .stopping || negotiating s

/-- Whether the layer above believes the link up, after these actions; nothing
if it was told the same twice. -/
def believed : Bool → List Action → Option Bool
  | b, [] => some b
  | b, .up :: rest => if b then none else believed true rest
  | b, .down :: rest => if b then believed false rest else none
  | b, .starting :: rest | b, .finished :: rest | b, .newId :: rest | b, .asked _ _ _ :: rest
  | b, .send _ :: rest => believed b rest

theorem believed_append (b : Bool) (front back : List Action) :
    believed b (front ++ back) = (believed b front).bind (believed · back) := by
  induction front generalizing b with
  | nil => rfl
  | cons a rest ih =>
    cases a <;> simp only [List.cons_append, believed, ih] <;> split <;> rfl

/-- What the layer above believes after the log. -/
def Fsm.believes (f : Fsm σ) : Option Bool := believed false f.log

section Fields

variable (c : Callbacks σ) (f : Fsm σ)

@[simp] theorem state_setState (s : State) : (f.setState s).state = s := rfl
@[simp] theorem state_timeout : f.timeout.state = f.state := rfl
@[simp] theorem state_untimeout : f.untimeout.state = f.state := rfl
@[simp] theorem state_callback (call : Option (σ → σ)) (a : List Action) :
    (f.callback call a).state = f.state := rfl
@[simp] theorem state_sdata (code id : UInt8) (data : List UInt8) :
    (f.sdata code id data).state = f.state := rfl
@[simp] theorem state_nextId : f.nextId.state = f.state := rfl
@[simp] theorem state_sendTermreq : (sendTermreq f).state = f.state := rfl
@[simp] theorem state_resetOptions : (resetOptions c f).state = f.state := by
  unfold resetOptions
  split <;> rfl
@[simp] theorem state_sconfreq (r : Bool) : (sconfreq c f r).state = f.state := by
  cases r <;> exact state_resetOptions c f

@[simp] theorem timers_setState (s : State) : (f.setState s).timers = f.timers := rfl
@[simp] theorem timers_timeout : f.timeout.timers = f.timers + 1 := rfl
@[simp] theorem timers_untimeout : f.untimeout.timers = f.timers - 1 := rfl
@[simp] theorem timers_callback (call : Option (σ → σ)) (a : List Action) :
    (f.callback call a).timers = f.timers := rfl
@[simp] theorem timers_sdata (code id : UInt8) (data : List UInt8) :
    (f.sdata code id data).timers = f.timers := rfl
@[simp] theorem timers_nextId : f.nextId.timers = f.timers := rfl
@[simp] theorem timers_sendTermreq : (sendTermreq f).timers = f.timers := rfl
@[simp] theorem timers_resetOptions : (resetOptions c f).timers = f.timers := by
  unfold resetOptions
  split <;> rfl
@[simp] theorem timers_sconfreq (r : Bool) : (sconfreq c f r).timers = f.timers + 1 := by
  cases r <;> exact congrArg (· + 1) (timers_resetOptions c f)

@[simp] theorem seenAck_setState (s : State) : (f.setState s).seenAck = f.seenAck := rfl
@[simp] theorem seenAck_timeout : f.timeout.seenAck = f.seenAck := rfl
@[simp] theorem seenAck_untimeout : f.untimeout.seenAck = f.seenAck := rfl
@[simp] theorem seenAck_callback (call : Option (σ → σ)) (a : List Action) :
    (f.callback call a).seenAck = f.seenAck := rfl
@[simp] theorem seenAck_sdata (code id : UInt8) (data : List UInt8) :
    (f.sdata code id data).seenAck = f.seenAck := rfl

@[simp] theorem believes_setState (s : State) : (f.setState s).believes = f.believes := rfl
@[simp] theorem believes_timeout : f.timeout.believes = f.believes := rfl
@[simp] theorem believes_untimeout : f.untimeout.believes = f.believes := rfl

theorem believes_callback (call : Option (σ → σ)) (a : List Action) :
    (f.callback call a).believes = f.believes.bind (believed · a) :=
  believed_append false f.log a

@[simp] theorem believes_sdata (code id : UInt8) (data : List UInt8) :
    (f.sdata code id data).believes = f.believes := by
  simp [Fsm.sdata, Fsm.believes, believed_append, believed]

@[simp] theorem believes_nextId : f.nextId.believes = f.believes := by
  simp [Fsm.nextId, Fsm.believes, believed_append, believed]

@[simp] theorem believes_sendTermreq : (sendTermreq f).believes = f.believes := by
  simp [sendTermreq, Fsm.sdata, Fsm.nextId, Fsm.believes, believed_append, believed]

@[simp] theorem believes_resetOptions : (resetOptions c f).believes = f.believes := by
  unfold resetOptions
  split
  · rfl
  · simp [Fsm.callback, Fsm.believes]

@[simp] theorem believes_newRequest : (newRequest f).believes = f.believes :=
  believes_nextId { f with retransmits := f.maxconfreqtransmits }

@[simp] theorem believes_sconfreq (r : Bool) : (sconfreq c f r).believes = f.believes := by
  have hsend : (sconfreq c f r).believes =
      (if r then resetOptions c f else newRequest (resetOptions c f)).believes :=
    believes_sdata _ _ _ _
  rw [hsend]
  cases r <;> simp

end Fields

theorem negotiating_cases {s : State} (h : negotiating s = true) :
    s = .reqsent ∨ s = .ackrcvd ∨ s = .acksent := by
  cases s <;> simp_all [negotiating]

structure Sound (f : Fsm σ) : Prop where
  timers : f.timers = if waits f.state then 1 else 0
  believes : f.believes = some (decide (f.state = .opened))
  seenAck : f.state = .ackrcvd ∨ f.state = .opened → f.seenAck = true

namespace Sound

variable {c : Callbacks σ} {f : Fsm σ}

theorem init (s : Setup) (ci : σ) : Sound (fsmInit s ci) where
  timers := rfl
  believes := rfl
  seenAck := by simp [fsmInit]

/-- The other fields do not matter. -/
theorem congr {g : Fsm σ} (h : Sound f) (hstate : g.state = f.state)
    (htimers : g.timers = f.timers) (hlog : g.log = f.log) (hseen : g.seenAck = f.seenAck) :
    Sound g where
  timers := by rw [htimers, hstate, h.timers]
  believes := by
    have hsame : g.believes = f.believes := by rw [Fsm.believes, hlog, Fsm.believes]
    rw [hsame, hstate, h.believes]
  seenAck := by
    rw [hstate, hseen]
    exact h.seenAck

theorem lowerup (h : Sound f) : Sound (Ppp.lowerup c f) := by
  obtain ⟨htimers, hbelieves, hseen⟩ := id h
  unfold Ppp.lowerup
  cases hs : f.state <;> simp only [hs, waits, negotiating] at htimers hbelieves hseen ⊢
  case initial => constructor <;> simp_all [waits, negotiating]
  case starting => split <;> constructor <;> simp_all [waits, negotiating]
  all_goals exact h

theorem lowerdown (h : Sound f) : Sound (Ppp.lowerdown c f) := by
  obtain ⟨htimers, hbelieves, hseen⟩ := id h
  unfold Ppp.lowerdown
  cases hs : f.state <;> simp only [hs, waits, negotiating] at htimers hbelieves hseen ⊢
  case initial => exact h
  case starting => exact h
  all_goals constructor <;> simp_all [waits, negotiating, believes_callback, believed]

theorem reopen (h : Sound f) : Sound (Ppp.reopen c f) := by
  unfold Ppp.reopen
  split
  · exact h.lowerdown.lowerup
  · exact h

theorem setStopping (h : Sound f) (hs : f.state = .closing) : Sound (f.setState .stopping) := by
  obtain ⟨htimers, hbelieves, hseen⟩ := h
  constructor <;> simp_all [waits, negotiating]

theorem fsmOpen (h : Sound f) : Sound (Ppp.fsmOpen c f) := by
  obtain ⟨htimers, hbelieves, hseen⟩ := id h
  unfold Ppp.fsmOpen
  cases hs : f.state <;> simp only [hs, waits, negotiating] at htimers hbelieves hseen ⊢
  case initial => constructor <;> simp_all [waits, negotiating, believes_callback, believed]
  case closed => split <;> constructor <;> simp_all [waits, negotiating]
  case closing => exact (h.setStopping hs).reopen
  case stopped => exact h.reopen
  case opened => exact h.reopen
  all_goals exact h

theorem terminateLayer (h : Sound f) (hs : negotiating f.state = true ∨ f.state = .opened)
    (nextstate : State) (hnext : nextstate = .closing ∨ nextstate = .stopping) :
    Sound (Ppp.terminateLayer c f nextstate) := by
  obtain ⟨htimers, hbelieves, hseen⟩ := h
  let f₁ := if f.state ≠ .opened then f.untimeout else f.callback c.down [.down]
  have htimers₁ : f₁.timers = 0 := by
    by_cases hopen : f.state = .opened
    · simp_all [f₁, waits, negotiating]
    · simp_all [f₁, waits]
  have hbelieves₁ : f₁.believes = some false := by
    by_cases hopen : f.state = .opened
    · simp_all [f₁, believes_callback, believed]
    · simp_all [f₁]
  let f₂ := sendTermreq { f₁ with retransmits := f₁.maxtermtransmits }
  have htimers₂ : f₂.timers = 0 := htimers₁
  have hbelieves₂ : f₂.believes = some false :=
    (believes_sendTermreq { f₁ with retransmits := f₁.maxtermtransmits }).trans hbelieves₁
  have hbody : Ppp.terminateLayer c f nextstate =
      if f₂.retransmits = 0 then
        (f₂.setState (if nextstate = .closing then .closed else .stopped)).callback c.finished
          [.finished]
      else { f₂.timeout with retransmits := f₂.timeout.retransmits - 1 }.setState nextstate := rfl
  rw [hbody]
  split
  · rcases hnext with rfl | rfl <;> constructor <;>
      simp_all [waits, negotiating, believes_callback, believed]
  · have hbelieves₃ : ({ f₂.timeout with retransmits := f₂.timeout.retransmits - 1 } :
        Fsm σ).believes = some false := hbelieves₂
    rcases hnext with rfl | rfl <;> constructor <;> simp_all [waits, negotiating]

theorem fsmClose (h : Sound f) (reason : List UInt8) : Sound (Ppp.fsmClose c f reason) := by
  have h' : Sound { f with termReason := reason } := h.congr rfl rfl rfl rfl
  obtain ⟨htimers, hbelieves, hseen⟩ := id h'
  have hterminate : negotiating f.state = true ∨ f.state = .opened →
      Sound (Ppp.terminateLayer c { f with termReason := reason } .closing) :=
    fun hs => h'.terminateLayer hs _ (.inl rfl)
  simp only [Ppp.fsmClose]
  split
  case h_1 => constructor <;> simp_all [waits, negotiating]
  case h_2 => constructor <;> simp_all [waits, negotiating]
  case h_3 => constructor <;> simp_all [waits, negotiating]
  case h_4 hs => exact hterminate (.inl (by simp [negotiating, hs]))
  case h_5 hs => exact hterminate (.inl (by simp [negotiating, hs]))
  case h_6 hs => exact hterminate (.inl (by simp [negotiating, hs]))
  case h_7 hs => exact hterminate (.inr hs)
  case h_8 => exact h'

theorem sdata (h : Sound f) (code id : UInt8) (data : List UInt8) :
    Sound (f.sdata code id data) where
  timers := h.timers
  believes := (believes_sdata f code id data).trans h.believes
  seenAck := h.seenAck

theorem nextId (h : Sound f) : Sound f.nextId where
  timers := h.timers
  believes := (believes_nextId f).trans h.believes
  seenAck := h.seenAck

theorem ci (h : Sound f) (ci : σ) : Sound { f with ci } := h.congr rfl rfl rfl rfl

theorem asked (h : Sound f) (own id : UInt8) (data : List UInt8) :
    Sound { f with log := f.log ++ [.asked own id data] } where
  timers := h.timers
  believes := by
    have hbelieves := h.believes
    simp only [Fsm.believes] at hbelieves
    simp [Fsm.believes, believed_append, hbelieves, believed]
  seenAck := h.seenAck

/-- An automaton whose timer has been taken from the queue, or that never had
one, waits after a new request. -/
theorem sconfreq (htimers : f.timers = 0) (hbelieves : f.believes = some false) (r : Bool)
    (s : State) (hs : s = .reqsent ∨ s = .acksent) : Sound ((Ppp.sconfreq c f r).setState s) := by
  rcases hs with rfl | rfl <;> constructor <;> simp_all [waits, negotiating]

theorem fsmTimeout (h : Sound f) : Sound (Ppp.fsmTimeout c f.untimeout) := by
  obtain ⟨htimers, hbelieves, hseen⟩ := id h
  unfold Ppp.fsmTimeout
  cases hs : f.state <;>
    simp only [hs, state_untimeout, waits, negotiating] at htimers hbelieves hseen ⊢
  case closing =>
    split
    · constructor <;> simp_all [waits, negotiating, believes_callback, believed]
    · have hsent : Sound (sendTermreq f.untimeout).timeout := by
        constructor <;> simp_all [waits, negotiating]
      exact hsent.congr rfl rfl rfl rfl
  case stopping =>
    split
    · constructor <;> simp_all [waits, negotiating, believes_callback, believed]
    · have hsent : Sound (sendTermreq f.untimeout).timeout := by
        constructor <;> simp_all [waits, negotiating]
      exact hsent.congr rfl rfl rfl rfl
  case reqsent =>
    split
    · split <;> constructor <;> simp_all [waits, negotiating, believes_callback, believed]
    · split <;> constructor <;> simp_all [waits, negotiating, believes_callback, believed]
  case ackrcvd =>
    split
    · split <;> constructor <;> simp_all [waits, negotiating, believes_callback, believed]
    · split <;> constructor <;> simp_all [waits, negotiating, believes_callback, believed]
  case acksent =>
    split
    · split <;> constructor <;> simp_all [waits, negotiating, believes_callback, believed]
    · split <;> constructor <;> simp_all [waits, negotiating, believes_callback, believed]
  all_goals constructor <;> simp_all [waits, negotiating]

theorem replied (h : Sound f) (hs : negotiating f.state = true) (code : Verdict) :
    Sound (Ppp.replied c f code) := by
  have hfields := h
  obtain ⟨htimers, hbelieves, hseen⟩ := hfields
  have htimer : f.timers = 1 := by simp [htimers, waits, hs]
  have hdown : f.believes = some false := by
    rcases negotiating_cases hs with hs | hs | hs <;> simp [hbelieves, hs]
  simp only [Ppp.replied]
  split
  · split
    · have hopen : Sound ((f.untimeout.setState .opened).callback c.up [.up]) := by
        constructor <;> simp_all [waits, negotiating, believes_callback, believed]
      exact hopen.congr rfl rfl rfl rfl
    · have hacksent : Sound (f.setState .acksent) := by
        constructor <;> simp [htimer, hdown, waits, negotiating]
      exact hacksent.congr rfl rfl rfl rfl
  · have hreqsent : Sound (if f.state ≠ .ackrcvd then f.setState .reqsent else f) := by
      split
      · constructor <;> simp [htimer, hdown, waits, negotiating]
      · exact h
    split
    · exact hreqsent.congr rfl rfl rfl rfl
    · exact hreqsent

theorem replyConfreq (h : Sound f) (hs : negotiating f.state = true) (id : UInt8)
    (data : List UInt8) : Sound (Ppp.replyConfreq c f id data) := by
  have hasked : Sound
      { f with ci := (c.check f data).2.2, log := f.log ++ [Action.asked f.reqid id data] } :=
    (h.ci (c.check f data).2.2).asked f.reqid id data
  exact (hasked.sdata _ id _).replied hs _

/-- A link that is up goes down and asks again. -/
theorem restart (h : Sound f) (hs : f.state = .opened) :
    Sound ((Ppp.sconfreq c (f.callback c.down [.down]) false).setState .reqsent) := by
  apply sconfreq
  · simp [h.timers, hs, waits, negotiating]
  · simp [believes_callback, h.believes, hs, believed]
  · exact .inl rfl

theorem rconfreq (h : Sound f) (hup : f.state ≠ .initial ∧ f.state ≠ .starting) (id : UInt8)
    (data : List UInt8) : Sound (Ppp.rconfreq c f id data) := by
  have hfields := h
  obtain ⟨htimers, hbelieves, hseen⟩ := hfields
  unfold Ppp.rconfreq
  split
  case h_1 => exact h.sdata _ _ _
  case h_2 => exact h
  case h_3 => exact h
  case h_4 hs => exact (h.restart hs).replyConfreq rfl id data
  case h_5 hs =>
    have hask : Sound ((Ppp.sconfreq c f false).setState .reqsent) :=
      sconfreq (by simp [htimers, hs, waits, negotiating]) (by simp [hbelieves, hs]) false _
        (.inl rfl)
    exact hask.replyConfreq rfl id data
  case h_6 hclosed hclosing hstopping hopened hstopped =>
    apply h.replyConfreq
    cases hs : f.state <;> simp_all [negotiating]

/-- A waiting automaton whose timer is cancelled asks again. -/
theorem askAgain (h : Sound f) (hs : negotiating f.state = true) (s : State)
    (hnext : s = .reqsent ∨ s = .acksent) :
    Sound ((Ppp.sconfreq c f.untimeout false).setState s) := by
  have hdown : f.believes = some false := by
    rcases negotiating_cases hs with hs | hs | hs <;> simp [h.believes, hs]
  exact sconfreq (by simp [h.timers, waits, hs]) (by simp [hdown]) false s hnext

theorem acknowledged (h : Sound f) (hseen : f.seenAck = true) (id : UInt8) :
    Sound (Ppp.acknowledged c f id) := by
  have hfields := h
  obtain ⟨htimers, hbelieves, -⟩ := hfields
  unfold Ppp.acknowledged
  split
  case h_1 => exact h.sdata _ _ _
  case h_2 => exact h.sdata _ _ _
  case h_3 hs =>
    have hackrcvd : Sound (f.setState .ackrcvd) := by
      constructor <;> simp_all [waits, negotiating]
    exact hackrcvd.congr rfl rfl rfl rfl
  case h_4 hs => exact h.askAgain (by simp [negotiating, hs]) _ (.inl rfl)
  case h_5 hs =>
    have hopen : Sound ((f.untimeout.setState .opened).callback c.up [.up]) := by
      constructor <;> simp_all [waits, negotiating, believes_callback, believed]
    exact hopen.congr rfl rfl rfl rfl
  case h_6 hs => exact h.restart hs
  case h_7 => exact h

theorem seen (h : Sound f) : Sound { f with seenAck := true } where
  timers := h.timers
  believes := h.believes
  seenAck := fun _ => rfl

theorem rconfack (h : Sound f) (id : UInt8) (data : List UInt8) :
    Sound (Ppp.rconfack c f id data) := by
  unfold Ppp.rconfack
  split
  · exact h
  · split
    · exact h
    · have hseen : Sound { f with seenAck := true, rnakloops := 0 } :=
        h.seen.congr rfl rfl rfl rfl
      exact hseen.acknowledged rfl id

theorem refused (h : Sound f) (ret : Int) (id : UInt8) : Sound (Ppp.refused c f ret id) := by
  have hfields := h
  obtain ⟨htimers, hbelieves, -⟩ := hfields
  have hagain : ∀ s, f.state = s → s = .reqsent ∨ s = .acksent →
      Sound (if ret < 0 then f.untimeout.setState .stopped
        else Ppp.sconfreq c f.untimeout false) := by
    intro s hs hnext
    have hneg : negotiating f.state = true := by
      rcases hnext with rfl | rfl <;> simp [negotiating, hs]
    split
    · rcases hnext with rfl | rfl <;> constructor <;> simp_all [waits, negotiating]
    · exact (h.askAgain hneg s hnext).congr (by simp [hs]) rfl rfl rfl
  unfold Ppp.refused
  split
  case h_1 => exact h.sdata _ _ _
  case h_2 => exact h.sdata _ _ _
  case h_3 hs => exact hagain _ hs (.inl rfl)
  case h_4 hs => exact hagain _ hs (.inr rfl)
  case h_5 hs => exact h.askAgain (by simp [negotiating, hs]) _ (.inl rfl)
  case h_6 hs => exact h.restart hs
  case h_7 => exact h

theorem rconfnakrej (h : Sound f) (code id : UInt8) (data : List UInt8) :
    Sound (Ppp.rconfnakrej c f code id data) := by
  unfold Ppp.rconfnakrej
  split
  · exact h
  · split
    · split
      · exact h.congr rfl rfl rfl rfl
      · rename_i nakci _
        have hci : ∀ ci : σ, Sound { f with rnakloops := f.rnakloops + 1, ci } := fun ci =>
          h.congr rfl rfl rfl rfl
        simp only
        split
        · exact hci _
        · exact (hci _).seen.refused _ id
    · split
      · exact h.congr rfl rfl rfl rfl
      · have hci : ∀ ci : σ, Sound { f with rnakloops := 0, ci } := fun ci =>
          h.congr rfl rfl rfl rfl
        simp only
        split
        · exact hci _
        · exact (hci _).seen.refused _ id

theorem rtermreq (h : Sound f) (id : UInt8) : Sound (Ppp.rtermreq c f id) := by
  have hfields := h
  obtain ⟨htimers, hbelieves, -⟩ := hfields
  simp only [Ppp.rtermreq]
  apply sdata
  split
  case h_1 => constructor <;> simp_all [waits, negotiating]
  case h_2 => constructor <;> simp_all [waits, negotiating]
  case h_3 hs =>
    have hstopping : Sound ((f.setState .stopping).callback c.down [.down]).timeout := by
      constructor <;> simp_all [waits, negotiating, believes_callback, believed]
    exact hstopping.congr rfl rfl rfl rfl
  case h_4 => exact h

theorem rtermack (h : Sound f) : Sound (Ppp.rtermack c f) := by
  have hfields := h
  obtain ⟨htimers, hbelieves, -⟩ := hfields
  unfold Ppp.rtermack
  split
  case h_1 => constructor <;> simp_all [waits, negotiating, believes_callback, believed]
  case h_2 => constructor <;> simp_all [waits, negotiating, believes_callback, believed]
  case h_3 => constructor <;> simp_all [waits, negotiating]
  case h_4 hs => exact h.restart hs
  case h_5 => exact h

theorem rcoderej (h : Sound f) (data : List UInt8) : Sound (Ppp.rcoderej f data) := by
  have hfields := h
  obtain ⟨htimers, hbelieves, -⟩ := hfields
  unfold Ppp.rcoderej
  split
  · exact h
  · split
    · constructor <;> simp_all [waits, negotiating]
    · exact h

theorem protreject (h : Sound f) : Sound (Ppp.protreject c f) := by
  have hfields := h
  obtain ⟨htimers, hbelieves, -⟩ := hfields
  unfold Ppp.protreject
  split
  case h_8 hs => exact h.terminateLayer (.inr hs) _ (.inr rfl)
  case h_9 => exact h
  all_goals constructor <;> simp_all [waits, negotiating, believes_callback, believed]

theorem replies (h : Sound f) (packets : List Packet) :
    Sound (packets.foldl (fun f r => f.sdata r.code r.id r.data) f) := by
  induction packets generalizing f with
  | nil => exact h
  | cons r rest ih => exact ih (h.sdata r.code r.id r.data)

theorem otherCode (h : Sound f) (p : Packet) (packet : List UInt8) :
    Sound (Ppp.otherCode c f p packet) := by
  unfold Ppp.otherCode
  split
  · exact h.nextId.sdata _ _ _
  · simp only
    split
    · exact (h.ci _).nextId.sdata _ _ _
    · exact (h.ci _).replies _

theorem fsmInput (h : Sound f) (bytes : List UInt8) : Sound (Ppp.fsmInput c f bytes) := by
  unfold Ppp.fsmInput
  split
  · exact h
  · split
    · exact h
    · rename_i hup
      simp only [Bool.or_eq_true, decide_eq_true_eq, not_or] at hup
      split
      · exact h.rconfreq hup _ _
      · split
        · exact h.rconfack _ _
        · split
          · exact h.rconfnakrej _ _ _
          · split
            · exact h.rtermreq _
            · split
              · exact h.rtermack
              · split
                · exact h.rcoderej _
                · exact h.otherCode _ _

theorem step (h : Sound f) (e : Event) : Sound (Ppp.step c f e) := by
  cases e with
  | lowerup => exact h.lowerup
  | lowerdown => exact h.lowerdown
  | «open» => exact h.fsmOpen
  | close reason => exact h.fsmClose reason
  | timeout =>
    simp only [Ppp.step]
    split
    · exact h
    · exact h.fsmTimeout
  | input bytes => exact h.fsmInput bytes
  | protreject => exact h.protreject
  | flags passive silent => exact h.congr rfl rfl rfl rfl

theorem run (h : Sound f) (events : List Event) : Sound (Ppp.run c f events) := by
  induction events generalizing f with
  | nil => exact h
  | cons e rest ih => exact ih (h.step e)

end Sound

/-- Once a request is acknowledged, what answers requests has no effect. -/
theorem answers_ignored (c : Callbacks σ) {f : Fsm σ} (hseen : f.seenAck = true) {p : Packet}
    {bytes : List UInt8} (hparse : parse bytes = some p)
    (hcode : p.code = confack ∨ p.code = confnak ∨ p.code = confrej) : fsmInput c f bytes = f := by
  unfold fsmInput
  rw [hparse]
  rcases hcode with hcode | hcode | hcode <;>
    simp [hcode, confreq, confack, confnak, confrej, rconfack, rconfnakrej, hseen]

/-- After any events, whatever the callbacks make of their options: one timer runs in the states
that wait and none in the others; the layer above is told of the link by turns,
and last what is true; and an opened link is not taken down by another answer to
its request. -/
theorem fsm_invariants (c : Callbacks σ) (s : Setup) (ci : σ) (events : List Event) :
    (run c (fsmInit s ci) events).timers =
        (if waits (run c (fsmInit s ci) events).state then 1 else 0) ∧
      believed false (run c (fsmInit s ci) events).log =
        some (decide ((run c (fsmInit s ci) events).state = .opened)) ∧
      ((run c (fsmInit s ci) events).state = .opened → ∀ bytes p, parse bytes = some p →
        p.code = confack ∨ p.code = confnak ∨ p.code = confrej →
          step c (run c (fsmInit s ci) events) (.input bytes) = run c (fsmInit s ci) events) := by
  have hsound : Sound (run c (fsmInit s ci) events) := (Sound.init s ci).run events
  refine ⟨hsound.timers, hsound.believes, ?_⟩
  intro hopen bytes p hparse hcode
  exact answers_ignored c (hsound.seenAck (.inr hopen)) hparse hcode

end GameAcc.Ppp
