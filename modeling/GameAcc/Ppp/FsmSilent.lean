import GameAcc.Ppp.FsmRun

/-!
A peer that answers nothing. Timeouts alone bring an automaton that waits to
rest after exactly one more than the retransmissions it has left, with one packet
sent for each of these; and the layer below is told that it is done, unless the
protocol was to wait for the peer.
-/

namespace GameAcc.Ppp

variable {σ : Type}

def sent : List Action → List Packet := List.filterMap fun
  | .send p => some p
  | _ => none

@[simp] theorem sent_append (a b : List Action) : sent (a ++ b) = sent a ++ sent b :=
  List.filterMap_append

/-- Where an automaton that waits comes to rest. -/
def restState (s : State) : State := if s = .closing then .closed else .stopped

/-- Whether the end of waiting is told to the layer below. -/
def tells (f : Fsm σ) : Bool := !(negotiating f.state && f.passive)

/-- A timeout with retransmissions left sends one packet and waits again. -/
structure Waits (f g : Fsm σ) : Prop where
  waits : waits g.state = true
  rest : restState g.state = restState f.state
  tells : tells g = tells f
  retransmits : g.retransmits = f.retransmits - 1
  sent : (sent g.log).length = (sent f.log).length + 1
  finished : g.log.count .finished = f.log.count .finished

theorem sconfreq_again (c : Callbacks σ) {f : Fsm σ} (hs : negotiating f.state = true) :
    sconfreq c f true =
      { ({ f with seenAck := false }.sdata confreq f.reqid (c.request f.ci)) with
        retransmits := f.retransmits - 1 }.timeout := by
  simp only [sconfreq, resetOptions, hs, if_true]
  rfl

theorem fsmTimeout_waits (c : Callbacks σ) {f : Fsm σ} (hs : waits f.state = true)
    (hleft : 0 < f.retransmits) : Waits f (fsmTimeout c f.untimeout) := by
  have hmore : ¬ f.untimeout.retransmits ≤ 0 := by
    have : f.untimeout.retransmits = f.retransmits := rfl
    omega
  have hask : ∀ s, f.state = s → negotiating s = true →
      Waits f (if (sconfreq c (f.untimeout.callback c.retransmit []) true).state = .ackrcvd then
          (sconfreq c (f.untimeout.callback c.retransmit []) true).setState .reqsent
        else sconfreq c (f.untimeout.callback c.retransmit []) true) := by
    intro s hstate hneg
    have hsame : negotiating (f.untimeout.callback c.retransmit []).state = true := by
      simp [hstate, hneg]
    rw [sconfreq_again c hsame]
    rcases negotiating_cases hneg with rfl | rfl | rfl <;>
      constructor <;>
      simp [hstate, Ppp.waits, negotiating, restState, Ppp.tells, Ppp.sent, Fsm.sdata,
        Fsm.callback, Fsm.untimeout, Fsm.timeout, Fsm.setState]
  unfold fsmTimeout
  split
  case h_1 hstate =>
    rw [if_neg hmore]
    constructor <;>
      simp_all [Ppp.waits, negotiating, restState, Ppp.tells, Ppp.sent, sendTermreq, Fsm.sdata,
        Fsm.nextId, Fsm.untimeout, Fsm.timeout]
  case h_2 hstate =>
    rw [if_neg hmore]
    constructor <;>
      simp_all [Ppp.waits, negotiating, restState, Ppp.tells, Ppp.sent, sendTermreq, Fsm.sdata,
        Fsm.nextId, Fsm.untimeout, Fsm.timeout]
  case h_3 hstate =>
    rw [if_neg hmore]
    exact hask _ hstate rfl
  case h_4 hstate =>
    rw [if_neg hmore]
    exact hask _ hstate rfl
  case h_5 hstate =>
    rw [if_neg hmore]
    exact hask _ hstate rfl
  case h_6 => cases hstate : f.state <;> simp_all [Ppp.waits, negotiating]

/-- The last timeout sends nothing. -/
structure Rests (f g : Fsm σ) : Prop where
  state : g.state = restState f.state
  sent : sent g.log = sent f.log
  finished : g.log.count .finished = f.log.count .finished + if tells f then 1 else 0

theorem fsmTimeout_rests (c : Callbacks σ) {f : Fsm σ} (hs : waits f.state = true)
    (hdone : f.retransmits ≤ 0) : Rests f (fsmTimeout c f.untimeout) := by
  have hnone : f.untimeout.retransmits ≤ 0 := hdone
  have hstop : negotiating f.state = true → Rests f
      (if (f.untimeout.setState .stopped).passive then f.untimeout.setState .stopped
        else (f.untimeout.setState .stopped).callback c.finished [.finished]) := by
    intro hneg
    have hrest : restState f.state = .stopped := by
      rcases negotiating_cases hneg with hstate | hstate | hstate <;> simp [restState, hstate]
    have hpassive : (f.untimeout.setState .stopped).passive = f.passive := rfl
    rw [hpassive]
    split
    · rename_i hp
      exact ⟨hrest.symm, rfl, by simp [Ppp.tells, hneg, hp, Fsm.setState, Fsm.untimeout]⟩
    · rename_i hp
      simp only [Bool.not_eq_true] at hp
      refine ⟨hrest.symm, ?_, ?_⟩
      · simp [Ppp.sent, Fsm.callback, Fsm.setState, Fsm.untimeout]
      · simp [Ppp.tells, hneg, hp, Fsm.callback, Fsm.setState, Fsm.untimeout]
  unfold fsmTimeout
  split
  case h_1 hstate =>
    rw [if_pos hnone]
    constructor <;>
      simp_all [restState, Ppp.tells, negotiating, Ppp.sent, Fsm.callback, Fsm.setState,
        Fsm.untimeout]
  case h_2 hstate =>
    rw [if_pos hnone]
    constructor <;>
      simp_all [restState, Ppp.tells, negotiating, Ppp.sent, Fsm.callback, Fsm.setState,
        Fsm.untimeout]
  case h_3 hstate =>
    rw [if_pos hnone]
    exact hstop (by simp [negotiating, show f.state = .reqsent from hstate])
  case h_4 hstate =>
    rw [if_pos hnone]
    exact hstop (by simp [negotiating, show f.state = .ackrcvd from hstate])
  case h_5 hstate =>
    rw [if_pos hnone]
    exact hstop (by simp [negotiating, show f.state = .acksent from hstate])
  case h_6 => cases hstate : f.state <;> simp_all [Ppp.waits, negotiating]

/-- From any state that waits: as long as retransmissions are left every timeout
sends one packet, and the next one is the last. -/
theorem timeouts_rest (c : Callbacks σ) {f : Fsm σ} (hsound : Sound f)
    (hs : waits f.state = true) (n : Nat) (hn : f.retransmits.toNat = n) :
    (run c f (List.replicate (n + 1) .timeout)).state = restState f.state ∧
      (sent (run c f (List.replicate (n + 1) .timeout)).log).length =
        (sent f.log).length + n ∧
      (run c f (List.replicate (n + 1) .timeout)).log.count .finished =
        f.log.count .finished + if tells f then 1 else 0 := by
  induction n generalizing f with
  | zero =>
    have hrests := fsmTimeout_rests c hs (by omega)
    have hstep : run c f (List.replicate (0 + 1) .timeout) = fsmTimeout c f.untimeout := by
      simp [run, step, hsound.timers, hs]
    rw [hstep]
    exact ⟨hrests.state, by rw [hrests.sent]; rfl, hrests.finished⟩
  | succ n ih =>
    have hwaits := fsmTimeout_waits c hs (by omega)
    have hstep : run c f (List.replicate (n + 1 + 1) .timeout) =
        run c (fsmTimeout c f.untimeout) (List.replicate (n + 1) .timeout) := by
      rw [List.replicate_succ]
      simp [run, step, hsound.timers, hs]
    obtain ⟨hstate, hsent, hfinished⟩ :=
      ih hsound.fsmTimeout hwaits.waits (by rw [hwaits.retransmits]; omega)
    rw [hstep]
    refine ⟨hstate.trans hwaits.rest, ?_, ?_⟩
    · rw [hsent, hwaits.sent]
      omega
    · rw [hfinished, hwaits.finished, hwaits.tells]

/-- Until then it waits. -/
theorem timeouts_wait (c : Callbacks σ) {f : Fsm σ} (hsound : Sound f)
    (hs : waits f.state = true) (k : Nat) (hk : k ≤ f.retransmits.toNat) :
    waits (run c f (List.replicate k .timeout)).state = true := by
  induction k generalizing f with
  | zero => exact hs
  | succ k ih =>
    have hwaits := fsmTimeout_waits c hs (by omega)
    have hstep : run c f (List.replicate (k + 1) .timeout) =
        run c (fsmTimeout c f.untimeout) (List.replicate k .timeout) := by
      rw [List.replicate_succ]
      simp [run, step, hsound.timers, hs]
    rw [hstep]
    apply ih hsound.fsmTimeout hwaits.waits
    rw [hwaits.retransmits]
    omega

/-- A peer that falls silent, whatever came before: the automaton waits for as
many timeouts as it has retransmissions left, sends one packet at each, and comes
to rest at the next one with no timer left; `finished` is called once then, or
not at all where the protocol was to wait for its peer. -/
theorem silent_peer (c : Callbacks σ) (s : Setup) (ci : σ) (events : List Event) (f : Fsm σ)
    (hf : f = run c (fsmInit s ci) events) (hs : waits f.state = true) :
    (∀ k ≤ f.retransmits.toNat, waits (run c f (List.replicate k .timeout)).state = true) ∧
      (run c f (List.replicate (f.retransmits.toNat + 1) .timeout)).state = restState f.state ∧
      (run c f (List.replicate (f.retransmits.toNat + 1) .timeout)).timers = 0 ∧
      (sent (run c f (List.replicate (f.retransmits.toNat + 1) .timeout)).log).length =
        (sent f.log).length + f.retransmits.toNat ∧
      (run c f (List.replicate (f.retransmits.toNat + 1) .timeout)).log.count .finished =
        f.log.count .finished + if tells f then 1 else 0 := by
  subst hf
  have hsound : Sound (run c (fsmInit s ci) events) := (Sound.init s ci).run events
  obtain ⟨hstate, hsent, hfinished⟩ := timeouts_rest c hsound hs _ rfl
  refine ⟨timeouts_wait c hsound hs, hstate, ?_, hsent, hfinished⟩
  rw [(hsound.run _).timers, hstate]
  unfold restState
  split <;> rfl

/-- A protocol whose callbacks are all missing. -/
def noCallbacks : Callbacks Unit where
  resetci := none
  addci := none
  ackci := none
  nakci := none
  rejci := none
  reqci := none
  up := none
  down := none
  starting := none
  finished := none
  retransmit := none
  extcode := none

/-- Opened and with the lower layer up it has asked once; nine requests are
left. -/
theorem silent_peer_opening :
    (run noCallbacks (run noCallbacks (fsmInit (defaults 1500) ()) [.open, .lowerup])
        (List.replicate 10 .timeout)).state = .stopped :=
  (silent_peer noCallbacks (defaults 1500) () [.open, .lowerup] _ rfl (by decide)).2.1

end GameAcc.Ppp
