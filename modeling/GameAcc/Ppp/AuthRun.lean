import GameAcc.Ppp.AuthGate

/-!
Every event keeps the invariant, and what follows for a run.
-/

namespace GameAcc.Ppp.Auth

variable {cfg : Config} {s : Link}

section Establishing

/-- A link that is coming up: nothing has been answered and nothing is open. -/
structure Rising (cfg : Config) (s : Link) (go ho : Options) : Prop where
  opened : s.opened = true
  serving : Serving cfg s
  answers : Answers s
  networks : s.networks = false
  ccp : s.ccp = false
  npOpen : s.numNpOpen = 0
  npUp : s.numNpUp = 0
  asked : s.asked = go.proto
  offered : s.offered = ho.proto
  verdicts : s.verdicts = []
  accepted : s.accepted = []

variable {go ho : Options}

theorem Rising.newPhase (rising : Rising cfg s go ho) (phase : Phase) :
    Rising cfg (s.newPhase phase) go ho :=
  { rising with serving := { rising.serving with }, answers := { rising.answers with } }

/-- What PAP does when it starts is its own affair. -/
def Aside (s s' : Link) : Prop :=
  ∃ pap papTimers papReqtimers sent, s' = { s with pap, papTimers, papReqtimers, sent }

theorem Aside.trans {s₁ s₂ s₃ : Link} (h : Aside s₁ s₂) (h' : Aside s₂ s₃) : Aside s₁ s₃ := by
  obtain ⟨pap, papTimers, papReqtimers, sent, rfl⟩ := h
  obtain ⟨pap', papTimers', papReqtimers', sent', rfl⟩ := h'
  exact ⟨pap', papTimers', papReqtimers', sent', rfl⟩

theorem upapLowerup_aside (cfg : Config) (s : Link) : Aside s (upapLowerup cfg s) := by
  have hclient : Aside s (upapClientUp cfg s) := by
    unfold upapClientUp
    split
    · exact ⟨_, _, _, _, rfl⟩
    · exact ⟨_, _, _, _, rfl⟩
    · exact ⟨_, _, _, _, rfl⟩
  apply hclient.trans
  simp only [upapLowerup]
  split
  · exact ⟨_, _, _, _, rfl⟩
  · exact ⟨_, _, _, _, rfl⟩
  · exact ⟨_, _, _, _, rfl⟩

theorem upapAuthpeer_aside (cfg : Config) (s : Link) : Aside s (upapAuthpeer cfg s) := by
  unfold upapAuthpeer
  split
  · exact ⟨_, _, _, _, rfl⟩
  · exact ⟨_, _, _, _, rfl⟩

theorem upapAuthwithpeer_aside (cfg : Config) (s : Link) : Aside s (upapAuthwithpeer cfg s) := by
  simp only [upapAuthwithpeer]
  split
  · exact ⟨_, _, _, _, rfl⟩
  · exact ⟨_, _, _, _, rfl⟩

theorem Rising.aside (rising : Rising cfg s go ho) {s' : Link} (haside : Aside s s') :
    Rising cfg s' go ho ∧ s'.phase = s.phase := by
  obtain ⟨pap, papTimers, papReqtimers, sent, rfl⟩ := haside
  exact ⟨{ rising with serving := { rising.serving with }, answers := { rising.answers with } },
    rfl⟩

/-- LCP is up; of the link before, the server has kept that it was done. -/
theorem chapLowerup_rising (cfg : Config) (halone : s.doingMultilink = false) (down : Down s)
    (go ho : Options) {s' : Link}
    (haside : Aside
      { s with
        opened := true, gotOptions := go, hisOptions := ho, asked := go.proto, offered := ho.proto,
        verdicts := [], accepted := [], since := s.draws, wrongBefore := s.wrong } s') :
    Rising cfg (chapLowerup cfg s') go ho ∧
      (chapLowerup cfg s').server.flags =
        { lowerup := true, authDone := (chapLowerup cfg s').wrongBefore } := by
  obtain ⟨pap, papTimers, papReqtimers, sent, rfl⟩ := haside
  have hflags := down.flags
  simp only [chapLowerup, Link.setServer, Link.setClient, hflags, Bool.false_eq_true, if_false]
  refine ⟨?_, trivial⟩
  exact
    { opened := rfl
      serving :=
        { lowerup := rfl
          calm := rfl
          timed := down.timers
          done := by simp [Link.challenged]
          outstanding := fun h => absurd (show false = true from h) Bool.false_ne_true }
      answers :=
        { alone := halone
          since_le := le_rfl
          drawn := fun v hv => absurd hv List.not_mem_nil
          once := .nil
          pap_once := by simp }
      networks := down.networks
      ccp := down.ccp
      npOpen := down.npOpen
      npUp := down.npUp
      asked := rfl
      offered := rfl
      verdicts := rfl
      accepted := rfl }

/-- CHAP asks the peer, with a challenge of its own. -/
theorem chapAuthPeer_rising (rising : Rising cfg s go ho)
    (hflags : s.server.flags = { lowerup := true, authDone := s.wrongBefore }) (digest : UInt8) :
    Rising cfg (chapAuthPeer cfg s digest) go ho ∧
      (chapAuthPeer cfg s digest).phase = s.phase := by
  have hstart : chapAuthPeer cfg s digest = chapTimeout cfg
      { s with server := { s.server with
        digest, id := cfg.startId s.draws
        flags := { lowerup := true, authStarted := true, authDone := s.wrongBefore } } } := by
    simp [chapAuthPeer, hflags]
  have hquiet : s.chapTimers = 0 := by simpa [Timed, hflags] using rising.serving.timed
  have hserving : Serving cfg (Link.rest { s with server := { s.server with
      digest, id := cfg.startId s.draws
      flags := { lowerup := true, authStarted := true, authDone := s.wrongBefore } } }) :=
    { lowerup := rfl
      calm := rfl
      timed := hquiet
      done := by simp [Link.rest, Link.setServer, Link.challenged, rising.verdicts]
      outstanding := fun h => absurd (show false = true from h) Bool.false_ne_true }
  have hanswers : Answers { s with server := { s.server with
      digest, id := cfg.startId s.draws
      flags := { lowerup := true, authStarted := true, authDone := s.wrongBefore } } } :=
    { rising.answers with }
  obtain ⟨server, draws, sent, hdraws, heq, serving⟩ :=
    chapTimeout_serving hanswers hserving (.inl rfl)
  rw [hstart, heq]
  exact ⟨{ rising with serving, answers := { rising.answers.draw hdraws with } }, rfl⟩

theorem startPeer_rising (rising : Rising cfg s go ho)
    (hflags : s.server.flags = { lowerup := true, authDone := s.wrongBefore }) :
    Rising cfg (startPeer cfg s go) go ho ∧ (startPeer cfg s go).phase = s.phase := by
  unfold startPeer
  split
  · exact ⟨{ rising with serving := { rising.serving with }, answers := { rising.answers with } },
      rfl⟩
  · exact chapAuthPeer_rising rising hflags go.chapMdtype
  · exact rising.aside (upapAuthpeer_aside cfg s)
  · exact ⟨rising, rfl⟩

theorem startWithpeer_rising (rising : Rising cfg s go ho) :
    Rising cfg (startWithpeer cfg s ho) go ho ∧ (startWithpeer cfg s ho).phase = s.phase := by
  unfold startWithpeer
  split
  · exact ⟨{ rising with serving := { rising.serving with }, answers := { rising.answers with } },
      rfl⟩
  · unfold chapAuthWithPeer
    split
    · exact ⟨rising, rfl⟩
    · exact ⟨{ rising with
        serving := { rising.serving with }, answers := { rising.answers with } }, rfl⟩
  · exact rising.aside (upapAuthwithpeer_aside cfg s)
  · exact ⟨rising, rfl⟩

theorem mem_pendingBits_peer (p : Proto) :
    Bit.peer p ∈ pendingBits go ho ↔ go.proto = some p := by
  cases hgo : go.proto <;> cases hho : ho.proto <;> simp [pendingBits, hgo, hho, eq_comm]

theorem mem_pendingBits_withpeer (p : Proto) :
    Bit.withpeer p ∈ pendingBits go ho ↔ ho.proto = some p := by
  cases hgo : go.proto <;> cases hho : ho.proto <;> simp [pendingBits, hgo, hho, eq_comm]

/-- Who was asked has to prove himself, and when nobody was the networks start. -/
theorem Rising.inv (single : Single cfg) (rising : Rising cfg s go ho)
    (hphase : s.phase = .authenticate) (hlenient : go.proto = none → lenient cfg = true) :
    Inv cfg
      (if pendingBits go ho = ∅ then networkPhase cfg { s with authPending := pendingBits go ho }
        else { s with authPending := pendingBits go ho }) := by
  have hanswers : Answers { s with authPending := pendingBits go ho } := { rising.answers with }
  have hpending : Pending cfg s (pendingBits go ho) :=
    { lenient := fun h => hlenient (rising.asked ▸ h)
      peer := fun p => by
        simp [mem_pendingBits_peer, rising.asked, Link.proved, rising.verdicts]
      withpeer := fun p => by
        simp [mem_pendingBits_withpeer, rising.offered, rising.accepted] }
  have hnone : ∀ v ∈ s.verdicts, v.proto ≠ .pap := by simp [rising.verdicts]
  have hright : ∀ v ∈ s.verdicts, v.ok = true := by simp [rising.verdicts]
  split
  next hempty =>
    obtain ⟨phase, networks, ccp, numNpOpen, hopen, hnumber, heq⟩ :=
      networkPhase_eq (s := { s with authPending := pendingBits go ho }) single
        rising.npOpen.ge
    rw [heq]
    exact ⟨{ hanswers with }, .inl ⟨rising.opened, { rising.serving with },
      .inr ⟨hnumber, hempty⟩, { hpending with }, hopen, fun _ => hnone, hright⟩⟩
  next hsome =>
    exact ⟨hanswers, .inl ⟨rising.opened, { rising.serving with },
      .inl ⟨hphase, hsome, rising.networks, rising.ccp, rising.npUp⟩, { hpending with },
      rising.npOpen.ge, fun _ => hnone, hright⟩⟩

/-- A link that is coming up and is closed again. -/
theorem Rising.close (rising : Rising cfg s go ho) : Inv cfg (lcpClose cfg s) := by
  have hwrong : s.wrong = false := by simp [Link.wrong, rising.verdicts]
  obtain ⟨hclosed, hdown⟩ :=
    lcpClose_down cfg rising.answers rising.opened rising.serving.timed hwrong
  exact ⟨hclosed, .inr hdown⟩

theorem lcpUp_inv (single : Single cfg) (halone : s.doingMultilink = false) (down : Down s)
    (go ho : Options) :
    Inv cfg (lcpUp cfg s go ho) := by
  have haside := upapLowerup_aside cfg { s with
    opened := true, gotOptions := go, hisOptions := ho, asked := go.proto, offered := ho.proto
    verdicts := [], accepted := [], since := s.draws, wrongBefore := s.wrong }
  obtain ⟨rising, hflags⟩ := chapLowerup_rising cfg halone down go ho haside
  have hapart : ¬ s.doingMultilink = true := Bool.eq_false_iff.mp halone
  simp only [lcpUp, linkEstablished, if_neg hapart]
  split
  · exact rising.close
  next hasked =>
    split
    · exact rising.close
    · obtain ⟨risingPeer, hpeer⟩ := startPeer_rising (rising.newPhase .authenticate) hflags
      obtain ⟨risingBoth, hboth⟩ := startWithpeer_rising risingPeer
      have hlenient : go.proto = none → lenient cfg = true := by
        intro hnone
        by_contra hstrict
        exact hasked ⟨hnone, hstrict⟩
      exact risingBoth.inv single (hboth.trans hpeer) hlenient

end Establishing

section Running

theorem startNetworks_inv (single : Single cfg) (answers : Answers s)
    (up : Up cfg s s.authPending) (hempty : s.authPending = ∅) : Inv cfg (startNetworks cfg s) := by
  obtain ⟨numNpOpen, hopen, heq⟩ := startNetworks_eq single up.npOpen
  have hnumber : Phase.authenticate.number < Phase.network.number := by decide
  rw [heq]
  exact ⟨{ answers with }, .inl
    { up with
      serving := { up.serving with }
      pending := { up.pending with }
      npOpen := hopen
      gate := .inr ⟨hnumber, hempty⟩ }⟩

theorem continueNetworks_inv (single : Single cfg) (answers : Answers s)
    (up : Up cfg s s.authPending) (hccp : s.ccp = true) : Inv cfg (continueNetworks cfg s) := by
  have hopen : 0 ≤ s.numNpOpen + cfg.networks := by
    have hbefore := up.npOpen
    omega
  rw [continueNetworks_eq single up.npOpen]
  rcases up.gate with ⟨_, _, _, hshut, _⟩ | hgate
  · exact absurd (hccp.symm.trans hshut) (by decide)
  · exact ⟨{ answers with }, .inl
      { up with
        serving := { up.serving with }
        pending := { up.pending with }
        npOpen := hopen
        gate := .inr hgate }⟩

theorem eapDone_inv (single : Single cfg) (answers : Answers s)
    (up : Up cfg s s.authPending) (ok : Bool) : Inv cfg (eapDone cfg s ok) := by
  have hanswers : Answers (s.judge ⟨.eap, 0, ok⟩) := answers.judge_other nofun nofun
  cases ok with
  | true =>
    exact authPeerSuccess_inv single up (v := ⟨.eap, 0, true⟩) hanswers nofun rfl
      (fun _ => nofun)
  | false => exact authPeerFail_inv up (v := ⟨.eap, 0, false⟩) hanswers nofun

theorem Gate.open_of_networks (gate : Gate s) (h : s.networks = true ∨ 0 < s.numNpUp) :
    Phase.authenticate.number < s.phase.number ∧ s.authPending = ∅ := by
  rcases gate with ⟨_, _, hshut, _, hnone⟩ | hopen
  · rcases h with h | h
    · exact absurd (h.symm.trans hshut) (by decide)
    · omega
  · exact hopen

theorem Inv.with_phase (inv : Inv cfg s) {phase : Phase} (numNpUp : Int)
    (hnumber : Phase.authenticate.number < phase.number) (hopened : s.opened = true)
    (hempty : s.authPending = ∅) : Inv cfg { s with phase, numNpUp } := by
  have up := inv.up hopened
  exact ⟨{ inv.answers with }, .inl
    { up with
      serving := { up.serving with }
      pending := { up.pending with }
      gate := .inr ⟨hnumber, hempty⟩ }⟩

theorem npUp_inv (inv : Inv cfg s) (hopened : s.opened = true) (hnet : s.networks = true) :
    Inv cfg (npUp s) := by
  obtain ⟨hnumber, hempty⟩ := (inv.up hopened).gate.open_of_networks (.inl hnet)
  by_cases hfirst : s.numNpUp = 0
  · have heq : npUp s = { s with phase := .running, numNpUp := s.numNpUp + 1 } := by
      simp [npUp, hfirst, Link.newPhase]
    rw [heq]
    exact inv.with_phase _ (by decide) hopened hempty
  · have heq : npUp s = { s with phase := s.phase, numNpUp := s.numNpUp + 1 } := by
      simp [npUp, hfirst]
    rw [heq]
    exact inv.with_phase _ hnumber hopened hempty

theorem npDown_inv (inv : Inv cfg s) (hnpUp : 0 < s.numNpUp) : Inv cfg (npDown s) := by
  rcases inv.upDown with up | down
  · obtain ⟨hnumber, hempty⟩ := up.gate.open_of_networks (.inr hnpUp)
    by_cases hlast : s.numNpUp - 1 = 0
    · have heq : npDown s = { s with phase := .network, numNpUp := s.numNpUp - 1 } := by
        simp [npDown, hlast, Link.newPhase]
      rw [heq]
      exact inv.with_phase _ (by decide) up.opened hempty
    · have heq : npDown s = { s with phase := s.phase, numNpUp := s.numNpUp - 1 } := by
        simp [npDown, hlast]
      rw [heq]
      exact inv.with_phase _ hnumber up.opened hempty
  · have hnone := down.npUp
    omega

theorem npFinished_inv (inv : Inv cfg s) (hnet : s.networks = true) :
    Inv cfg (npFinished cfg s) := by
  rcases inv.upDown with up | down
  · simp only [npFinished]
    split
    · have hanswers : Answers { s with numNpOpen := s.numNpOpen - 1 } := { inv.answers with }
      have htimed : Timed { s with numNpOpen := s.numNpOpen - 1 } := up.timed
      obtain ⟨hclosed, hdown⟩ :=
        lcpClose_down cfg hanswers up.opened htimed (right_not_wrong up.right)
      exact ⟨hclosed, .inr hdown⟩
    next hmore =>
      have hopen : 0 ≤ s.numNpOpen - 1 := by omega
      exact ⟨{ inv.answers with }, .inl
        { up with
          serving := { up.serving with }
          pending := { up.pending with }
          npOpen := hopen }⟩
  · exact absurd (hnet.symm.trans down.networks) (by decide)

theorem Inv.phase_down (inv : Inv cfg s) (hopened : s.opened = false) (phase : Phase) :
    Inv cfg (s.newPhase phase) :=
  ⟨{ inv.answers with }, .inr { inv.down hopened with }⟩

/-- A timer of CHAP's runs out only on a link that is up. -/
theorem chapTimer_inv (inv : Inv cfg s) (hrunning : s.chapTimers ≠ 0) :
    Inv cfg (chapTimeout cfg s.chapUntimeout) := by
  rcases inv.upDown with up | down
  · have htimers : s.chapTimers - 1 = 0 := by
      have htimed := up.timed
      unfold Timed at htimed
      split at htimed <;> omega
    refine chapTimeout_inv { inv.answers with } ?_
    exact
      { up with
        serving := { up.serving with timed := htimers }
        pending := { up.pending with } }
  · exact absurd down.timers hrunning

/-- Every event keeps the invariant. -/
theorem step_inv (single : Single cfg) (inv : Inv cfg s) (event : Event) :
    Inv cfg (step cfg s event) := by
  cases event with
  | up go ho =>
    simp only [step]
    split
    · exact inv
    next hopened =>
      exact lcpUp_inv single inv.answers.alone (inv.down (Bool.eq_false_iff.mpr hopened)) go ho
  | down =>
    simp only [step]
    split
    next hopened => exact linkDown_inv inv.answers (inv.up hopened)
    · exact inv
  | close => exact lcpClose_inv inv
  | terminated =>
    simp only [step]
    split
    · exact inv
    next hshut =>
      simp only [linkTerminated, inv.answers.alone, Bool.false_eq_true, false_and, if_false]
      exact inv.phase_down (Bool.eq_false_iff.mpr (not_or.mp hshut).1) .dead
  | bundleTerminated =>
    simp only [step, inv.answers.alone, Bool.false_eq_true, false_and, if_false]
    exact inv
  | start =>
    simp only [step]
    split
    · exact inv
    next hopened => exact inv.phase_down (Bool.eq_false_iff.mpr hopened) .establish
  | chap bytes =>
    simp only [step]
    split
    next hopened => exact chapInput_inv single inv hopened bytes
    · exact inv
  | pap bytes =>
    simp only [step]
    split
    next hopened => exact upapInput_inv single inv hopened bytes
    · exact inv
  | protrej p =>
    cases p with
    | chap =>
      simp only [step]
      split
      next hopened => exact chapProtrej_inv inv hopened
      · exact inv
    | pap =>
      simp only [step]
      split
      · exact upapProtrej_inv inv
      · exact inv
    | eap => exact inv
  | chapTimeout =>
    simp only [step]
    split
    · exact inv
    next hrunning => exact chapTimer_inv inv hrunning
  | papTimeout =>
    simp only [step]
    split
    · exact inv
    · exact upapTimeout_inv inv _
  | papReqtimeout =>
    simp only [step]
    split
    · exact inv
    · exact upapReqtimeout_inv inv _
  | eapPeer ok =>
    simp only [step]
    split
    next heap =>
      rcases inv.upDown with up | down
      · exact eapDone_inv single inv.answers up ok
      · exact absurd (heap.symm.trans down.eapPeer) (by decide)
    · exact inv
  | eapWithpeer ok =>
    simp only [step]
    split
    · exact inv
    next heap =>
      rcases inv.upDown with up | down
      · split
        · exact authWithpeerSuccess_inv single inv.answers up .eap
        · exact lcpClose_inv inv
      · exact absurd down.eapWithpeer (by simpa using heap)
  | cbcp =>
    simp only [step]
    split
    next hadmits =>
      obtain ⟨hopened, hnumber⟩ : s.opened = true ∧ Phase.authenticate.number < s.phase.number := by
        simpa [Link.admits] using hadmits
      have up := inv.up hopened
      rcases up.gate with ⟨hphase, _⟩ | ⟨_, hempty⟩
      · exact absurd hnumber (by simp [hphase])
      · exact startNetworks_inv single inv.answers up hempty
    · exact inv
  | ccpUp =>
    simp only [step]
    split
    next h => exact continueNetworks_inv single inv.answers (inv.up h.1) h.2
    · exact inv
  | npUp =>
    simp only [step]
    split
    next h => exact npUp_inv inv h.1 h.2
    · exact inv
  | npDown =>
    simp only [step]
    split
    next h => exact npDown_inv inv h
    · exact inv
  | npFinished =>
    simp only [step]
    split
    next h => exact npFinished_inv inv h
    · exact inv

theorem initial_inv (cfg : Config) : Inv cfg initial where
  answers := ⟨rfl, le_rfl, nofun, .nil, by decide⟩
  upDown := .inr ⟨⟨rfl, rfl, rfl, rfl, rfl, rfl, rfl, rfl, rfl, rfl, .inl rfl⟩, rfl⟩

theorem run_inv (single : Single cfg) (inv : Inv cfg s) (events : List Event) :
    Inv cfg (run cfg s events) := by
  unfold run
  induction events generalizing s with
  | nil => exact inv
  | cons event events ih => exact ih (step_inv single inv event)

theorem reached_inv (single : Single cfg) (events : List Event) :
    Inv cfg (run cfg initial events) :=
  run_inv single (initial_inv cfg) events

end Running

end GameAcc.Ppp.Auth
