import GameAcc.Ppp.Auth

/-!
What pppd lets through, and when. The network protocols open, and packets of theirs
are taken in, just when nobody has still to prove himself; an answer is checked
against a challenge of this link, and against each at most once. The invariant is
in two halves, one for a link that is up and one for a link that is down, and every
event keeps it.
-/

namespace GameAcc.Ppp.Auth

variable {cfg : Config} {s : Link}

/-- The link is the only one, and has a network protocol to carry. -/
structure Single (cfg : Config) : Prop where
  multilink : cfg.multilink = false
  networks : 0 < cfg.networks

/-- What holds of the answers, and that there is no bundle, with the link up or
down. -/
structure Answers (s : Link) : Prop where
  alone : s.doingMultilink = false
  since_le : s.since ≤ s.draws
  drawn : ∀ v ∈ s.verdicts, v.proto = .chap → s.since ≤ v.number ∧ v.number < s.draws
  once : (s.verdicts.filter (·.proto = .chap)).Pairwise (·.number < ·.number)
  pap_once : (s.verdicts.filter (·.proto = .pap)).length ≤ 1

/-- A link that is down, the flags of the CHAP server apart. -/
structure Closed (s : Link) : Prop where
  opened : s.opened = false
  networks : s.networks = false
  ccp : s.ccp = false
  eapPeer : s.eapPeer = false
  eapWithpeer : s.eapWithpeer = false
  npOpen : s.numNpOpen = 0
  npUp : s.numNpUp = 0
  client : s.client.flags = {}
  timers : s.chapTimers = 0
  papClient : s.pap.clientstate = .initial
  papServer : s.pap.serverstate = .initial ∨ s.pap.serverstate = .badauth

structure Down (s : Link) : Prop extends Closed s where
  flags : s.server.flags = { authDone := s.wrong }

/-- The challenge that waits for its response. -/
def Outstanding (cfg : Config) (s : Link) : Prop :=
  s.since ≤ s.server.number ∧ s.server.number < s.draws ∧
    (∀ v ∈ s.verdicts, v.proto = .chap → v.number < s.server.number) ∧
    s.server.challenge =
      ⟨chapChallenge, s.server.id,
        cfg.generateChallenge s.server.digest s.server.number ++ cfg.ourName⟩

/-- A timer of CHAP's runs just when the server waits for it. -/
def Timed (s : Link) : Prop := s.chapTimers = if s.server.flags.timeoutPending then 1 else 0

/-- The CHAP server of a link that is up. -/
structure Serving (cfg : Config) (s : Link) : Prop where
  lowerup : s.server.flags.lowerup = true
  calm : s.server.flags.authFailed = false
  timed : Timed s
  done : s.server.flags.authDone = (s.wrongBefore || s.challenged)
  outstanding : s.server.flags.challengeValid = true → Outstanding cfg s

/-- What `auth_pending` stands for. -/
structure Pending (cfg : Config) (s : Link) (bits : Finset Bit) : Prop where
  lenient : s.asked = none → lenient cfg = true
  peer : ∀ p, Bit.peer p ∈ bits ↔
    s.asked = some p ∧ (s.proved p = false ∨ p = .chap ∧ s.wrongBefore = true)
  withpeer : ∀ p, Bit.withpeer p ∈ bits ↔ s.offered = some p ∧ p ∉ s.accepted

/-- The gate is shut, or open. -/
def Gate (s : Link) : Prop :=
  s.phase = .authenticate ∧ s.authPending ≠ ∅ ∧ s.networks = false ∧ s.ccp = false ∧
      s.numNpUp = 0 ∨
    Phase.authenticate.number < s.phase.number ∧ s.authPending = ∅

/-- A link that is up, and who has still to prove himself. -/
structure Up (cfg : Config) (s : Link) (bits : Finset Bit) : Prop where
  opened : s.opened = true
  serving : Serving cfg s
  gate : Gate s
  pending : Pending cfg s bits
  npOpen : 0 ≤ s.numNpOpen
  listen : s.pap.serverstate = .listen → ∀ v ∈ s.verdicts, v.proto ≠ .pap
  right : ∀ v ∈ s.verdicts, v.ok = true

structure Inv (cfg : Config) (s : Link) : Prop where
  answers : Answers s
  upDown : Up cfg s s.authPending ∨ Down s

section Closing

/-- The link when it has fallen, whatever the phase and the timers of PAP. -/
def Link.fallen (s : Link) (phase : Phase) (papTimers papReqtimers : Nat) : Link :=
  { s with
    phase, papTimers, papReqtimers
    networks := false, ccp := false, eapPeer := false, eapWithpeer := false
    numNpOpen := 0, numNpUp := 0
    client := { s.client with flags := {} }
    server := { s.server with flags := {} }
    chapTimers := if s.server.flags.timeoutPending then s.chapTimers - 1 else s.chapTimers
    pap := { s.pap with clientstate := .initial, serverstate := .initial } }

theorem chapLowerdown_eq (s : Link) :
    chapLowerdown s =
      { s with
        client := { s.client with flags := {} }
        server := { s.server with flags := {} }
        chapTimers := if s.server.flags.timeoutPending then s.chapTimers - 1 else s.chapTimers } := by
  cases h : s.server.flags.timeoutPending <;>
    simp [chapLowerdown, Link.setClient, Link.setServer, Link.chapUntimeout, h]

theorem networksDown_eq (s : Link) :
    ∃ phase, networksDown s = { s with phase, networks := false, ccp := false } := by
  unfold networksDown
  split
  · exact ⟨_, rfl⟩
  · exact ⟨_, rfl⟩

theorem upperLayersDown_eq (cfg : Config) (s : Link) :
    ∃ phase papTimers papReqtimers,
      upperLayersDown cfg s = s.fallen phase papTimers papReqtimers := by
  obtain ⟨phase, heq⟩ := networksDown_eq (chapLowerdown (upapLowerdown cfg s))
  rw [chapLowerdown_eq] at heq
  simp only [upperLayersDown, chapLowerdown_eq]
  rw [heq]
  exact ⟨phase, _, _, rfl⟩

theorem linkDown_eq (cfg : Config) (halone : s.doingMultilink = false) :
    ∃ phase papTimers papReqtimers, linkDown cfg s = s.fallen phase papTimers papReqtimers := by
  obtain ⟨phase, papTimers, papReqtimers, heq⟩ := upperLayersDown_eq cfg s
  simp only [linkDown, halone, Bool.false_eq_true, if_false, heq]
  split
  · exact ⟨.establish, papTimers, papReqtimers, rfl⟩
  · exact ⟨phase, papTimers, papReqtimers, rfl⟩

/-- Closing an open link takes it down at once. -/
theorem lcpClose_eq (cfg : Config) (halone : s.doingMultilink = false)
    (hopened : s.opened = true) :
    ∃ phase papTimers papReqtimers,
      lcpClose cfg s = { s.fallen phase papTimers papReqtimers with opened := false } := by
  have hdown : ∃ phase, lcpClose cfg s = linkDown cfg { s with phase, opened := false } := by
    by_cases hphase : s.phase ≠ .dead ∧ s.phase ≠ .master
    · exact ⟨.terminate, by simp [lcpClose, hphase, hopened, Link.newPhase]⟩
    · exact ⟨s.phase, by simp only [lcpClose, if_neg hphase, if_pos hopened]⟩
  obtain ⟨before, hbefore⟩ := hdown
  obtain ⟨phase, papTimers, papReqtimers, heq⟩ :=
    linkDown_eq (s := { s with phase := before, opened := false }) cfg halone
  exact ⟨phase, papTimers, papReqtimers, hbefore.trans heq⟩

theorem lcpClose_shut (cfg : Config) (hopened : s.opened = false) :
    ∃ phase, lcpClose cfg s = { s with phase } := by
  have hshut : ¬ s.opened = true := by simp [hopened]
  by_cases hphase : s.phase ≠ .dead ∧ s.phase ≠ .master
  · exact ⟨.terminate, by simp [lcpClose, hphase, hopened, Link.newPhase]⟩
  · exact ⟨s.phase, by simp only [lcpClose, if_neg hphase, if_neg hshut]⟩

theorem fallen_timers (htimed : Timed s) (phase : Phase) (papTimers papReqtimers : Nat) :
    (s.fallen phase papTimers papReqtimers).chapTimers = 0 := by
  unfold Timed at htimed
  cases h : s.server.flags.timeoutPending <;> simp_all [Link.fallen]

theorem fallen_closed (htimed : Timed s) (phase : Phase) (papTimers papReqtimers : Nat) :
    Closed { s.fallen phase papTimers papReqtimers with opened := false } where
  opened := rfl
  networks := rfl
  ccp := rfl
  eapPeer := rfl
  eapWithpeer := rfl
  npOpen := rfl
  npUp := rfl
  client := rfl
  timers := fallen_timers htimed phase papTimers papReqtimers
  papClient := rfl
  papServer := .inl rfl

/-- A link that is closed without a wrong response is as good as new. -/
theorem fallen_down (htimed : Timed s) (hwrong : s.wrong = false) (phase : Phase)
    (papTimers papReqtimers : Nat) :
    Down { s.fallen phase papTimers papReqtimers with opened := false } where
  toClosed := fallen_closed htimed phase papTimers papReqtimers
  flags := by
    have hkept : Link.wrong { s.fallen phase papTimers papReqtimers with opened := false } =
        s.wrong := rfl
    rw [hkept, hwrong]
    rfl

theorem fallen_answers (answers : Answers s) (phase : Phase) (papTimers papReqtimers : Nat) :
    Answers { s.fallen phase papTimers papReqtimers with opened := false } :=
  { answers with }

theorem right_not_wrong (right : ∀ v ∈ s.verdicts, v.ok = true) : s.wrong = false := by
  simp only [Link.wrong, List.any_eq_false]
  intro v hv
  simp [right v hv]

theorem Up.timed {bits : Finset Bit} (up : Up cfg s bits) : Timed s := up.serving.timed

/-- An open link that is closed goes down, and it goes down clean. -/
theorem lcpClose_down (cfg : Config) (answers : Answers s) (hopened : s.opened = true)
    (htimed : Timed s) (hwrong : s.wrong = false) :
    Answers (lcpClose cfg s) ∧ Down (lcpClose cfg s) := by
  obtain ⟨phase, papTimers, papReqtimers, heq⟩ := lcpClose_eq cfg answers.alone hopened
  rw [heq]
  exact ⟨fallen_answers answers phase papTimers papReqtimers,
    fallen_down htimed hwrong phase papTimers papReqtimers⟩

theorem lcpClose_up_inv {bits : Finset Bit} (answers : Answers s) (up : Up cfg s bits) :
    Inv cfg (lcpClose cfg s) := by
  obtain ⟨hanswers, hdown⟩ :=
    lcpClose_down cfg answers up.opened up.timed (right_not_wrong up.right)
  exact ⟨hanswers, .inr hdown⟩

/-- Closing keeps the invariant, from wherever it holds. -/
theorem lcpClose_inv (inv : Inv cfg s) : Inv cfg (lcpClose cfg s) := by
  rcases inv.upDown with up | down
  · exact lcpClose_up_inv inv.answers up
  · obtain ⟨phase, heq⟩ := lcpClose_shut cfg down.opened
    rw [heq]
    exact ⟨{ inv.answers with }, .inr { down with }⟩

theorem linkDown_inv {bits : Finset Bit} (answers : Answers s) (up : Up cfg s bits) :
    Inv cfg (linkDown cfg { s with opened := false }) := by
  obtain ⟨phase, papTimers, papReqtimers, heq⟩ :=
    linkDown_eq (s := { s with opened := false }) cfg answers.alone
  rw [heq]
  exact ⟨fallen_answers answers phase papTimers papReqtimers,
    .inr (fallen_down up.timed (right_not_wrong up.right) phase papTimers papReqtimers)⟩

end Closing

section Opening

theorem continueNetworks_eq (single : Single cfg) (hopen : 0 ≤ s.numNpOpen) :
    continueNetworks cfg s =
      { s with networks := true, numNpOpen := s.numNpOpen + cfg.networks } := by
  have hsome : s.numNpOpen + cfg.networks ≠ 0 := by
    have hpos := single.networks
    omega
  simp [continueNetworks, single.networks, hsome]

/-- The networks start, at once or when encryption is up. -/
theorem startNetworks_eq (single : Single cfg) (hopen : 0 ≤ s.numNpOpen) :
    ∃ numNpOpen, 0 ≤ numNpOpen ∧
      startNetworks cfg s =
        { s with
          phase := .network, ccp := true, numNpOpen
          networks := s.networks || !cfg.encryption } := by
  cases hencryption : cfg.encryption with
  | true => exact ⟨s.numNpOpen, hopen, by
      simp [startNetworks, openNetworks, single.multilink, hencryption, Link.newPhase]⟩
  | false =>
    refine ⟨s.numNpOpen + cfg.networks, by omega, ?_⟩
    have heq := continueNetworks_eq (s := { s with phase := .network, ccp := true }) single hopen
    simp [startNetworks, openNetworks, single.multilink, hencryption, heq, Link.newPhase]

theorem networkPhase_eq (single : Single cfg) (hopen : 0 ≤ s.numNpOpen) :
    ∃ phase networks ccp numNpOpen, 0 ≤ numNpOpen ∧
      Phase.authenticate.number < phase.number ∧
      networkPhase cfg s = { s with phase, networks, ccp, numNpOpen } := by
  cases hcbcp : s.gotOptions.negCbcp with
  | true =>
    exact ⟨.callback, s.networks, s.ccp, s.numNpOpen, hopen, by decide,
      by simp [networkPhase, hcbcp, Link.newPhase]⟩
  | false =>
    obtain ⟨numNpOpen, hopen', heq⟩ := startNetworks_eq single hopen
    refine ⟨.network, s.networks || !cfg.encryption, true, numNpOpen, hopen', by decide, ?_⟩
    simp [networkPhase, hcbcp, heq]

/-- A bit is struck out, and with the last of them the gate opens. -/
theorem discharge_eq (single : Single cfg) (hopen : 0 ≤ s.numNpOpen) (gate : Gate s)
    (bit : Bit) :
    ∃ phase networks ccp numNpOpen, 0 ≤ numNpOpen ∧
      discharge cfg s bit =
        { s with
          phase, networks, ccp, numNpOpen
          authPending := s.authPending.erase bit } ∧
      Gate (discharge cfg s bit) := by
  by_cases hlast : s.authPending.erase bit = ∅
  · obtain ⟨phase, networks, ccp, numNpOpen, hopen', hphase, heq⟩ :=
      networkPhase_eq (s := { s with authPending := s.authPending.erase bit }) single hopen
    have hdischarge : discharge cfg s bit = _ := (if_pos hlast).trans heq
    refine ⟨phase, networks, ccp, numNpOpen, hopen', hdischarge, ?_⟩
    rw [hdischarge]
    exact .inr ⟨hphase, hlast⟩
  · have hdischarge : discharge cfg s bit =
        { s with authPending := s.authPending.erase bit } := if_neg hlast
    refine ⟨s.phase, s.networks, s.ccp, s.numNpOpen, hopen, hdischarge, ?_⟩
    rw [hdischarge]
    rcases gate with ⟨hphase, _, hshut⟩ | ⟨_, hempty⟩
    · exact .inl ⟨hphase, hlast, hshut⟩
    · exact absurd (by simp [hempty]) hlast

theorem discharge_inv (single : Single cfg) (answers : Answers s) (bit : Bit)
    (up : Up cfg s (s.authPending.erase bit)) : Inv cfg (discharge cfg s bit) := by
  obtain ⟨phase, networks, ccp, numNpOpen, hopen, heq, gate⟩ :=
    discharge_eq single up.npOpen up.gate bit
  have hpending : Pending cfg (discharge cfg s bit) (discharge cfg s bit).authPending := by
    rw [heq]
    exact { up.pending with }
  refine ⟨?_, .inl ?_⟩
  · rw [heq]
    exact { answers with }
  · refine ⟨?_, ?_, gate, hpending, ?_, ?_, ?_⟩
    · rw [heq]
      exact up.opened
    · rw [heq]
      exact { up.serving with }
    · rw [heq]
      exact hopen
    · rw [heq]
      exact up.listen
    · rw [heq]
      exact up.right

theorem Pending.accept {bits : Finset Bit} (pending : Pending cfg s bits) (p : Proto) :
    Pending cfg { s with accepted := s.accepted ++ [p] } (bits.erase (.withpeer p)) where
  lenient := pending.lenient
  peer q := by
    rw [Finset.mem_erase, pending.peer q]
    simp [Link.proved]
  withpeer q := by
    rw [Finset.mem_erase, pending.withpeer q]
    simp only [ne_eq, Bit.withpeer.injEq, List.mem_append, List.mem_singleton]
    tauto

theorem authWithpeerSuccess_inv (single : Single cfg) (answers : Answers s)
    (up : Up cfg s s.authPending) (p : Proto) : Inv cfg (authWithpeerSuccess cfg s p) :=
  discharge_inv (s := { s with accepted := s.accepted ++ [p] }) single { answers with }
    (.withpeer p) { up with serving := { up.serving with }, pending := up.pending.accept p }

end Opening

section Judging

@[simp] theorem proved_judge (v : Verdict) (p : Proto) :
    (s.judge v).proved p = (s.proved p || decide (v.proto = p ∧ v.ok)) := by
  simp [Link.proved, Link.judge]

@[simp] theorem challenged_judge (v : Verdict) :
    (s.judge v).challenged = (s.challenged || decide (v.proto = .chap)) := by
  simp [Link.challenged, Link.judge]

@[simp] theorem wrong_judge (v : Verdict) :
    (s.judge v).wrong = (s.wrong || decide (v.proto = .chap ∧ ¬ v.ok)) := by
  simp [Link.wrong, Link.judge]

/-- Who has proved himself is struck out, but for the first response after a wrong one. -/
theorem Pending.prove {bits : Finset Bit} (pending : Pending cfg s bits) (v : Verdict)
    (hok : v.ok = true) (hbefore : v.proto = .chap → s.wrongBefore = false) :
    Pending cfg (s.judge v) (bits.erase (.peer v.proto)) where
  lenient := pending.lenient
  peer q := by
    rw [Finset.mem_erase, pending.peer q, proved_judge]
    by_cases hq : v.proto = q
    · subst hq
      constructor
      · rintro ⟨hne, -⟩
        exact absurd rfl hne
      · rintro ⟨-, hunproved | ⟨hproto, hwrong⟩⟩
        · simp [hok] at hunproved
        · exact absurd ((hbefore hproto).symm.trans hwrong) (by decide)
    · have hother : decide (v.proto = q ∧ v.ok = true) = false := by simp [hq]
      simp only [hother, Bool.or_false, ne_eq, Bit.peer.injEq]
      exact ⟨fun h => h.2, fun h => ⟨fun heq => hq heq.symm, h⟩⟩
  withpeer q := by
    rw [Finset.mem_erase, pending.withpeer q]
    simp [Link.judge]

/-- A response to a later challenge changes nothing. -/
theorem Pending.again {bits : Finset Bit} (pending : Pending cfg s bits) (v : Verdict)
    (hproto : v.proto = .chap) (hdone : s.wrongBefore = true ∨ s.proved .chap = true) :
    Pending cfg (s.judge v) bits where
  lenient := pending.lenient
  peer q := by
    rw [pending.peer q, proved_judge]
    by_cases hq : v.proto = q
    · subst hq
      rcases hdone with hbefore | hproved
      · simp [hproto, hbefore, Link.judge]
      · simp [hproto, hproved, Link.judge]
    · simp [hq, Link.judge]
  withpeer q := pending.withpeer q

end Judging

section Serving

/-- The server with its timer gone. -/
def Link.rest (s : Link) : Link := s.setServer { s.server.flags with timeoutPending := false }

theorem Serving.rest_timers (serving : Serving cfg s.rest) : s.chapTimers = 0 := serving.timed

/-- A new challenge is drawn and sent. -/
theorem chapTimeout_fresh (cfg : Config) (hvalid : s.server.flags.challengeValid = false) :
    ∃ sent, chapTimeout cfg s =
      { s with
        sent
        draws := s.draws + 1
        chapTimers := s.chapTimers + 1
        server := { s.server with
          id := s.server.id + 1
          challengeXmits := 1
          number := s.draws
          challenge := ⟨chapChallenge, s.server.id + 1,
            cfg.generateChallenge s.server.digest s.draws ++ cfg.ourName⟩
          flags := { s.server.flags with timeoutPending := true, challengeValid := true } } } := by
  refine ⟨s.sent ++ [(.chap, ⟨chapChallenge, s.server.id + 1,
    cfg.generateChallenge s.server.digest s.draws ++ cfg.ourName⟩)], ?_⟩
  simp [chapTimeout, Link.setServer, hvalid, chapGenerateChallenge, sendChallenge, Link.output,
    Link.chapTimeoutIn]

/-- The challenge is sent once more. -/
theorem chapTimeout_repeat (hvalid : s.server.flags.challengeValid = true)
    (hmore : s.server.challengeXmits < cfg.chapMaxTransmits) :
    ∃ sent challengeXmits, chapTimeout cfg s =
      { s with
        sent
        chapTimers := s.chapTimers + 1
        server := { s.server with
          challengeXmits
          flags := { s.server.flags with timeoutPending := true } } } := by
  refine ⟨s.sent ++ [(.chap, s.server.challenge)], s.server.challengeXmits + 1, ?_⟩
  simp [chapTimeout, Link.setServer, hvalid, Nat.not_le.mpr hmore, sendChallenge, Link.output,
    Link.chapTimeoutIn]

theorem chapTimeout_last (cfg : Config) (hvalid : s.server.flags.challengeValid = true)
    (hlast : cfg.chapMaxTransmits ≤ s.server.challengeXmits) :
    ∃ flags : Flags, flags.timeoutPending = false ∧
      chapTimeout cfg s = authPeerFail cfg (s.setServer flags) := by
  refine ⟨{ s.server.flags with
    timeoutPending := false, challengeValid := false, authDone := true, authFailed := true },
    rfl, ?_⟩
  simp [chapTimeout, Link.setServer, hvalid, hlast]

/-- A challenge that is sent waits for its response, and is one of this link's. -/
theorem chapTimeout_serving (answers : Answers s) (serving : Serving cfg s.rest)
    (hsent : s.server.flags.challengeValid = false ∨
      s.server.challengeXmits < cfg.chapMaxTransmits) :
    ∃ server draws sent, s.draws ≤ draws ∧
      chapTimeout cfg s = { s with server, draws, sent, chapTimers := 1 } ∧
      Serving cfg { s with server, draws, sent, chapTimers := 1 } := by
  have htimers := serving.rest_timers
  by_cases hvalid : s.server.flags.challengeValid = true
  · have hmore := hsent.resolve_left (by simp [hvalid])
    obtain ⟨sent, challengeXmits, heq⟩ := chapTimeout_repeat hvalid hmore
    rw [htimers] at heq
    exact ⟨_, s.draws, sent, le_rfl, heq, { serving with timed := rfl }⟩
  · obtain ⟨sent, heq⟩ := chapTimeout_fresh cfg (Bool.eq_false_iff.mpr hvalid)
    rw [htimers] at heq
    have hdrawn : ∀ v ∈ s.verdicts, v.proto = .chap → v.number < s.draws :=
      fun v hv hchap => (answers.drawn v hv hchap).2
    exact ⟨_, s.draws + 1, sent, Nat.le_succ _, heq,
      { serving with
        timed := rfl
        outstanding := fun _ => ⟨answers.since_le, Nat.lt_succ_self _, hdrawn, rfl⟩ }⟩

theorem Answers.draw (answers : Answers s) {draws : Nat} (hdraws : s.draws ≤ draws) :
    Answers { s with draws } :=
  { answers with
    since_le := answers.since_le.trans hdraws
    drawn := fun v hv hchap =>
      ⟨(answers.drawn v hv hchap).1, (answers.drawn v hv hchap).2.trans_le hdraws⟩ }

theorem chapTimeout_inv (answers : Answers s) (up : Up cfg s.rest s.authPending) :
    Inv cfg (chapTimeout cfg s) := by
  by_cases hsent : s.server.flags.challengeValid = false ∨
      s.server.challengeXmits < cfg.chapMaxTransmits
  · obtain ⟨server, draws, sent, hdraws, heq, serving⟩ :=
      chapTimeout_serving answers up.serving hsent
    rw [heq]
    exact ⟨{ answers.draw hdraws with },
      .inl { up with serving, gate := up.gate, pending := { up.pending with } }⟩
  · obtain ⟨hvalid, hlast⟩ := not_or.mp hsent
    obtain ⟨flags, hflags, heq⟩ := chapTimeout_last (s := s) cfg
      (by simpa using hvalid) (by omega)
    have htimed : Timed (s.setServer flags) := by
      simpa [Timed, Link.setServer, hflags] using up.serving.rest_timers
    have hanswers : Answers (s.setServer flags) := { answers with }
    obtain ⟨hclosed, hdown⟩ :=
      lcpClose_down cfg hanswers up.opened htimed (right_not_wrong up.right)
    rw [heq]
    exact ⟨hclosed, .inr hdown⟩

theorem chapDisarm_eq (htimed : Timed s) : chapDisarm s = { s.rest with chapTimers := 0 } := by
  unfold Timed at htimed
  cases hpending : s.server.flags.timeoutPending with
  | true =>
    have htimers : s.chapTimers - 1 = 0 := by simp [htimed, hpending]
    simp [chapDisarm, hpending, Link.rest, Link.setServer, Link.chapUntimeout, htimers]
  | false =>
    have htimers : s.chapTimers = 0 := by simpa [hpending] using htimed
    have hflags : { s.server.flags with timeoutPending := false } = s.server.flags := by
      rw [← hpending]
    have hrest : s.rest = s := by rw [Link.rest, hflags]; rfl
    rw [hrest, ← htimers]
    simp [chapDisarm, hpending]

/-- The server when a response has been checked. -/
def Link.verified (s : Link) (message : List UInt8) (failed : Bool) : Link :=
  { s with
    chapTimers := 0
    server := { s.server with
      message
      flags := { s.server.flags with timeoutPending := false, authFailed := failed } } }

/-- The response is checked. -/
theorem chapVerify_eq (serving : Serving cfg s) (id : UInt8) (pkt : List UInt8) :
    ∃ message, chapVerify cfg s id pkt =
      s.verified message (!((cfg.verifyResponse s.server.digest (chapName cfg pkt) id
        s.server.challenge.data pkt).1 && cfg.authNumber)) := by
  have hcalm := serving.calm
  simp only [chapVerify, chapDisarm_eq serving.timed]
  refine ⟨(cfg.verifyResponse s.server.digest (chapName cfg pkt) id s.server.challenge.data pkt).2,
    ?_⟩
  split
  next hok =>
    have hright : (cfg.verifyResponse s.server.digest (chapName cfg pkt) id
        s.server.challenge.data pkt).1 && cfg.authNumber := hok
    simp [hright, Link.rest, Link.setServer, Link.verified, hcalm]
  next hok =>
    have hwrong : ((cfg.verifyResponse s.server.digest (chapName cfg pkt) id
        s.server.challenge.data pkt).1 && cfg.authNumber) = false := Bool.eq_false_iff.mpr hok
    simp [hwrong, Link.rest, Link.setServer, Link.verified]

theorem Answers.judge_chap (answers : Answers s) {number : Nat} (hsince : s.since ≤ number)
    (hdrawn : number < s.draws)
    (hfresh : ∀ v ∈ s.verdicts, v.proto = .chap → v.number < number) (ok : Bool) :
    Answers (s.judge ⟨.chap, number, ok⟩) where
  alone := answers.alone
  since_le := answers.since_le
  drawn v hv hchap := by
    rcases List.mem_append.mp hv with hv | hv
    · exact answers.drawn v hv hchap
    · obtain rfl := List.mem_singleton.mp hv
      exact ⟨hsince, hdrawn⟩
  once := by
    simp only [Link.judge, List.filter_append, List.pairwise_append]
    refine ⟨answers.once, by simp, ?_⟩
    intro v hv w hw
    obtain ⟨hv, hchap⟩ := List.mem_filter.mp hv
    have hnumber : w.number = number := by
      rw [List.mem_singleton.mp (List.mem_filter.mp hw).1]
    have hlt := hfresh v hv (by simpa using hchap)
    omega
  pap_once := by
    simpa [Link.judge] using answers.pap_once

/-- A wrong response closes the link, but the server remembers that it was done. -/
theorem chapConclude_wrong {pkt : List UInt8} (hfailed : chapFailed cfg s pkt = true) :
    chapConclude cfg s pkt =
      (lcpClose cfg (chapSettle s true)).setServer
        { (lcpClose cfg (chapSettle s true)).server.flags with authDone := true } := by
  simp [chapConclude, hfailed, authPeerFail]

theorem chapRechallenge_eq (htimers : s.chapTimers = 0)
    (hpending : s.server.flags.timeoutPending = false) :
    chapRechallenge cfg s =
      { s with
        chapTimers := if cfg.chapRechallengeTime then 1 else 0
        server := { s.server with flags := { s.server.flags with
          timeoutPending := cfg.chapRechallengeTime } } } := by
  cases hagain : cfg.chapRechallengeTime with
  | true => simp [chapRechallenge, hagain, Link.setServer, Link.chapTimeoutIn, htimers]
  | false =>
    have hflags : { s.server.flags with timeoutPending := false } = s.server.flags := by
      rw [← hpending]
    rw [hflags]
    simp [chapRechallenge, hagain, ← htimers]

/-- A right one strikes the peer out, unless the server was done before. -/
theorem chapConclude_right (single : Single cfg) {pkt : List UInt8}
    (hfailed : chapFailed cfg s pkt = false) (htimers : s.chapTimers = 0)
    (hpending : s.server.flags.timeoutPending = false) (hopen : 0 ≤ s.numNpOpen) (gate : Gate s) :
    ∃ phase networks ccp numNpOpen, 0 ≤ numNpOpen ∧
      chapConclude cfg s pkt =
        { s with
          phase, networks, ccp, numNpOpen
          authPending :=
            if s.server.flags.authDone then s.authPending else s.authPending.erase (.peer .chap)
          verdicts := s.verdicts ++ [⟨.chap, s.server.number, true⟩]
          chapTimers := if cfg.chapRechallengeTime then 1 else 0
          server := { s.server with flags := { s.server.flags with
            timeoutPending := cfg.chapRechallengeTime
            challengeValid := false, authDone := true, authFailed := false } } } ∧
      Gate (chapConclude cfg s pkt) := by
  cases hdone : s.server.flags.authDone with
  | true =>
    have heq : chapConclude cfg s pkt =
        (chapRechallenge cfg (chapSettle s false)).setServer
          { (chapRechallenge cfg (chapSettle s false)).server.flags with authDone := true } := by
      simp [chapConclude, hfailed, chapSettle, Link.judge, Link.setServer, hdone]
    rw [chapRechallenge_eq (s := chapSettle s false) htimers hpending] at heq
    rw [heq]
    exact ⟨s.phase, s.networks, s.ccp, s.numNpOpen, hopen, rfl, gate⟩
  | false =>
    obtain ⟨phase, networks, ccp, numNpOpen, hopen', hdischarge, hgate⟩ :=
      discharge_eq (s := chapSettle s false) single hopen gate (.peer .chap)
    have heq : chapConclude cfg s pkt =
        (chapRechallenge cfg (discharge cfg (chapSettle s false) (.peer .chap))).setServer
          { (chapRechallenge cfg (discharge cfg (chapSettle s false) (.peer .chap))).server.flags
            with authDone := true } := by
      simp [chapConclude, hfailed, chapSettle, Link.judge, Link.setServer, hdone, authPeerSuccess]
    have htimers' : (discharge cfg (chapSettle s false) (.peer .chap)).chapTimers = 0 := by
      rw [hdischarge]
      exact htimers
    have hpending' : (discharge cfg (chapSettle s false)
        (.peer .chap)).server.flags.timeoutPending = false := by
      rw [hdischarge]
      exact hpending
    rw [hdischarge] at hgate
    rw [chapRechallenge_eq htimers' hpending', hdischarge] at heq
    rw [heq]
    exact ⟨phase, networks, ccp, numNpOpen, hopen', rfl, hgate⟩

theorem Serving.proved_chap (serving : Serving cfg s) (right : ∀ v ∈ s.verdicts, v.ok = true)
    (hdone : s.server.flags.authDone = true) : s.wrongBefore = true ∨ s.proved .chap = true := by
  have hbefore : (s.wrongBefore || s.challenged) = true := serving.done ▸ hdone
  rcases Bool.or_eq_true_iff.mp hbefore with hbefore | hchallenged
  · exact .inl hbefore
  · obtain ⟨v, hv, hchap⟩ := List.any_eq_true.mp hchallenged
    exact .inr (List.any_eq_true.mpr ⟨v, hv, by simpa [right v hv] using hchap⟩)

theorem Serving.not_done (serving : Serving cfg s) (hdone : s.server.flags.authDone = false) :
    s.wrongBefore = false ∧ s.challenged = false := by
  have hbefore : (s.wrongBefore || s.challenged) = false := serving.done ▸ hdone
  simpa using hbefore

/-- A wrong response leaves the link down, and its mark on the server. -/
theorem chapConclude_down (answers : Answers s) (hopened : s.opened = true)
    (hvalid : Outstanding cfg s) {pkt : List UInt8} {message : List UInt8} {failed : Bool}
    {sent : List (Proto × Packet)}
    (hfailed : chapFailed cfg { s.verified message failed with sent } pkt = true) :
    Inv cfg (chapConclude cfg { s.verified message failed with sent } pkt) := by
  obtain ⟨hsince, hdrawn, hfresh, -⟩ := hvalid
  have hanswers := answers.judge_chap hsince hdrawn hfresh false
  have htimed : Timed (chapSettle { s.verified message failed with sent } true) := rfl
  obtain ⟨phase, papTimers, papReqtimers, heq⟩ :=
    lcpClose_eq (s := chapSettle { s.verified message failed with sent } true) cfg answers.alone
      hopened
  rw [chapConclude_wrong hfailed, heq]
  have closed := fallen_closed htimed phase papTimers papReqtimers
  have hwrong : (s.judge ⟨.chap, s.server.number, false⟩).wrong = true := by simp
  refine ⟨{ hanswers with }, .inr { closed with flags := ?_ }⟩
  exact congrArg (fun done => ({ authDone := done } : Flags)) hwrong.symm

/-- A right one keeps it up. -/
theorem chapConclude_up (single : Single cfg) (answers : Answers s)
    (up : Up cfg s s.authPending) (hvalid : Outstanding cfg s) {pkt : List UInt8}
    {message : List UInt8} {failed : Bool} {sent : List (Proto × Packet)}
    (hfailed : chapFailed cfg { s.verified message failed with sent } pkt = false) :
    Inv cfg (chapConclude cfg { s.verified message failed with sent } pkt) := by
  obtain ⟨hsince, hdrawn, hfresh, -⟩ := hvalid
  have hanswers := answers.judge_chap hsince hdrawn hfresh true
  have hpending : Pending cfg (s.judge ⟨.chap, s.server.number, true⟩)
      (if s.server.flags.authDone then s.authPending
        else s.authPending.erase (.peer .chap)) := by
    split
    next hdone =>
      exact up.pending.again _ rfl (up.serving.proved_chap up.right hdone)
    next hdone =>
      have hbefore := up.serving.not_done (Bool.eq_false_iff.mpr hdone)
      exact up.pending.prove _ rfl fun _ => hbefore.1
  obtain ⟨phase, networks, ccp, numNpOpen, hopen, heq, gate⟩ :=
    chapConclude_right single hfailed rfl rfl up.npOpen up.gate
  rw [heq] at gate ⊢
  refine ⟨{ hanswers with }, .inl ⟨up.opened, ?_, gate, { hpending with }, hopen, ?_, ?_⟩⟩
  · have hdone : (s.wrongBefore || (s.judge ⟨.chap, s.server.number, true⟩).challenged) = true := by
      simp
    exact
      { lowerup := up.serving.lowerup
        calm := rfl
        timed := rfl
        done := hdone.symm
        outstanding := fun h => absurd (show false = true from h) Bool.false_ne_true }
  · intro hlisten v hv
    rcases List.mem_append.mp hv with hv | hv
    · exact up.listen hlisten v hv
    · obtain rfl := List.mem_singleton.mp hv
      exact nofun
  · intro v hv
    rcases List.mem_append.mp hv with hv | hv
    · exact up.right v hv
    · obtain rfl := List.mem_singleton.mp hv
      rfl

theorem Inv.output (inv : Inv cfg s) (p : Proto) (packet : Packet) :
    Inv cfg (s.output p packet) := by
  refine ⟨{ inv.answers with }, ?_⟩
  rcases inv.upDown with up | down
  · exact .inl { up with serving := { up.serving with }, pending := { up.pending with } }
  · exact .inr { down with }

theorem Inv.up (inv : Inv cfg s) (hopened : s.opened = true) : Up cfg s s.authPending := by
  rcases inv.upDown with up | down
  · exact up
  · exact absurd (hopened.symm.trans down.opened) (by decide)

theorem Inv.down (inv : Inv cfg s) (hopened : s.opened = false) : Down s := by
  rcases inv.upDown with up | down
  · exact absurd (up.opened.symm.trans hopened) (by decide)
  · exact down

theorem chapHandleResponse_inv (single : Single cfg) (inv : Inv cfg s)
    (hopened : s.opened = true) (id : UInt8) (pkt : List UInt8) :
    Inv cfg (chapHandleResponse cfg s id pkt) := by
  have up := inv.up hopened
  unfold chapHandleResponse
  rw [if_neg (not_not.mpr up.serving.lowerup)]
  split_ifs with hid hvalid hshort hdone
  · exact inv
  · exact inv
  · obtain ⟨message, heq⟩ := chapVerify_eq up.serving id pkt
    rw [heq]
    have houtstanding := up.serving.outstanding hvalid
    cases hfailed : chapFailed cfg (chapStatus (s.verified message _) id) pkt with
    | true => exact chapConclude_down inv.answers hopened houtstanding hfailed
    | false => exact chapConclude_up single inv.answers up houtstanding hfailed
  · exact inv.output _ _
  · exact inv

theorem chapHandleStatus_inv (single : Single cfg) (inv : Inv cfg s)
    (hopened : s.opened = true) (code id : UInt8) (pkt : List UInt8) :
    Inv cfg (chapHandleStatus cfg s code id pkt) := by
  have up := inv.up hopened
  have hclient : ∀ flags, Up cfg (s.setClient flags) (s.setClient flags).authPending := fun flags =>
    { up with serving := { up.serving with }, pending := { up.pending with } }
  simp only [chapHandleStatus]
  split_ifs
  · exact inv
  · refine authWithpeerSuccess_inv single ?_ ?_ .chap
    · exact { inv.answers with }
    · exact hclient _
  · have hfailed := hclient { s.client.flags with authDone := true, authFailed := true }
    exact lcpClose_up_inv { inv.answers with } hfailed

theorem chapInput_inv (single : Single cfg) (inv : Inv cfg s) (hopened : s.opened = true)
    (bytes : List UInt8) : Inv cfg (chapInput cfg s bytes) := by
  unfold chapInput
  cases parse bytes with
  | none => exact inv
  | some p =>
    simp only
    split_ifs
    · unfold chapRespond
      split
      · exact inv
      · split
        · exact inv
        · exact inv.output _ _
    · exact chapHandleResponse_inv single inv hopened p.id p.data
    · exact chapHandleStatus_inv single inv hopened p.code p.id p.data
    · exact inv

/-- The server has given up its timer, and goes on without. -/
theorem Serving.disarm (serving : Serving cfg s) :
    Serving cfg { s.rest with chapTimers := 0 } :=
  { serving with timed := rfl }

theorem chapProtrej_inv (inv : Inv cfg s) (hopened : s.opened = true) :
    Inv cfg (chapProtrej cfg s) := by
  have up := inv.up hopened
  have hrest : Up cfg { s.rest with chapTimers := 0 } s.authPending :=
    { up with serving := up.serving.disarm, pending := { up.pending with } }
  simp only [chapProtrej, chapDisarm_eq up.timed]
  by_cases hstarted : s.server.flags.authStarted = true
  · have htimed : Timed (Link.setServer { s.rest with chapTimers := 0 } {}) := rfl
    have hanswers : Answers (Link.setServer { s.rest with chapTimers := 0 } {}) :=
      { inv.answers with }
    obtain ⟨hclosed, hdown⟩ :=
      lcpClose_down cfg hanswers hopened htimed (right_not_wrong up.right)
    have hserver : s.rest.server.flags.authStarted = true := hstarted
    rw [if_pos hserver, authPeerFail, if_neg (by simp [hdown.client])]
    exact ⟨hclosed, .inr hdown⟩
  · have hserver : ¬ s.rest.server.flags.authStarted = true := hstarted
    rw [if_neg hserver]
    split
    · have hclient : Up cfg (Link.setClient { s.rest with chapTimers := 0 }
          { s.client.flags with authStarted := false }) s.authPending :=
        { hrest with serving := { hrest.serving with }, pending := { hrest.pending with } }
      exact lcpClose_up_inv { inv.answers with } hclient
    · exact ⟨{ inv.answers with }, .inl hrest⟩

end Serving

section Pap

theorem Inv.papReqtimers (inv : Inv cfg s) (papReqtimers : Nat) :
    Inv cfg { s with papReqtimers } := by
  refine ⟨{ inv.answers with }, ?_⟩
  rcases inv.upDown with up | down
  · exact .inl { up with serving := { up.serving with }, pending := { up.pending with } }
  · exact .inr { down with }

/-- The client's side of PAP is of no account. -/
theorem Up.papClient {bits : Finset Bit} (up : Up cfg s bits) (pap : Pap)
    (hserver : pap.serverstate = s.pap.serverstate) (papTimers : Nat)
    (sent : List (Proto × Packet)) : Up cfg { s with pap, papTimers, sent } bits :=
  { up with
    serving := { up.serving with }
    pending := { up.pending with }
    listen := fun hlisten => up.listen (hserver ▸ hlisten) }

theorem Up.sauthreq {bits : Finset Bit} (up : Up cfg s bits) : Up cfg (upapSauthreq cfg s) bits :=
  { up with serving := { up.serving with }, pending := { up.pending with } }

theorem upapTimeout_inv (inv : Inv cfg s) (papTimers : Nat) :
    Inv cfg (upapTimeout cfg { s with papTimers }) := by
  have hanswers : Answers { s with papTimers } := { inv.answers with }
  rcases inv.upDown with up | down
  · have hup : Up cfg { s with papTimers } s.authPending := up.papClient s.pap rfl papTimers s.sent
    unfold upapTimeout
    split_ifs
    · exact ⟨hanswers, .inl hup⟩
    · exact lcpClose_up_inv { hanswers with }
        (up.papClient { s.pap with clientstate := .badauth } rfl papTimers s.sent)
    · exact ⟨{ hanswers with }, .inl hup.sauthreq⟩
  · have hidle : s.pap.clientstate ≠ .authreq := by simp [down.papClient]
    rw [upapTimeout, if_pos hidle]
    exact ⟨hanswers, .inr { down with }⟩

theorem upapReqtimeout_inv (inv : Inv cfg s) (papReqtimers : Nat) :
    Inv cfg (upapReqtimeout cfg { s with papReqtimers }) := by
  have inv' := inv.papReqtimers papReqtimers
  unfold upapReqtimeout
  split
  · exact inv'
  next hlisten =>
    have hlisten : s.pap.serverstate = .listen := by simpa using hlisten
    rcases inv'.upDown with up | down
    · obtain ⟨hclosed, hdown⟩ :=
        lcpClose_down cfg inv'.answers up.opened up.timed (right_not_wrong up.right)
      exact ⟨{ hclosed with }, .inr { hdown with papServer := .inr rfl }⟩
    · rcases down.papServer with h | h
      · exact absurd (hlisten.symm.trans h) (by decide)
      · exact absurd (hlisten.symm.trans h) (by decide)

theorem Answers.judge_other (answers : Answers s) {v : Verdict} (hchap : v.proto ≠ .chap)
    (hpap : v.proto = .pap → ∀ w ∈ s.verdicts, w.proto ≠ .pap) : Answers (s.judge v) where
  alone := answers.alone
  since_le := answers.since_le
  drawn w hw hw' := by
    rcases List.mem_append.mp hw with hw | hw
    · exact answers.drawn w hw hw'
    · obtain rfl := List.mem_singleton.mp hw
      exact absurd hw' hchap
  once := by simpa [Link.judge, hchap] using answers.once
  pap_once := by
    by_cases h : v.proto = .pap
    · have hnone : s.verdicts.filter (·.proto = .pap) = [] := by simpa using hpap h
      simp [Link.judge, h, hnone]
    · simpa [Link.judge, h] using answers.pap_once

/-- PAP or EAP finds the peer to be who he says. -/
theorem authPeerSuccess_inv (single : Single cfg) (up : Up cfg s s.authPending)
    {v : Verdict} (answers : Answers (s.judge v)) (hchap : v.proto ≠ .chap) (hok : v.ok = true)
    (hlisten : s.pap.serverstate = .listen → v.proto ≠ .pap) :
    Inv cfg (authPeerSuccess cfg (s.judge v) v.proto) := by
  refine discharge_inv single answers (.peer v.proto) ⟨up.opened, ?_, up.gate, ?_, up.npOpen,
    ?_, ?_⟩
  · have hdone : (s.judge v).challenged = s.challenged := by simp [hchap]
    refine { up.serving with done := ?_, outstanding := ?_ }
    · rw [hdone]
      exact up.serving.done
    · intro hvalid
      obtain ⟨hsince, hdrawn, hfresh, hchallenge⟩ := up.serving.outstanding hvalid
      refine ⟨hsince, hdrawn, ?_, hchallenge⟩
      intro w hw hw'
      rcases List.mem_append.mp hw with hw | hw
      · exact hfresh w hw hw'
      · obtain rfl := List.mem_singleton.mp hw
        exact absurd hw' hchap
  · exact up.pending.prove v hok fun h => absurd h hchap
  · intro hlisten' w hw
    rcases List.mem_append.mp hw with hw | hw
    · exact up.listen hlisten' w hw
    · obtain rfl := List.mem_singleton.mp hw
      exact hlisten hlisten'
  · intro w hw
    rcases List.mem_append.mp hw with hw | hw
    · exact up.right w hw
    · obtain rfl := List.mem_singleton.mp hw
      exact hok

/-- PAP or EAP finds that he is not. -/
theorem authPeerFail_inv {bits : Finset Bit} (up : Up cfg s bits) {v : Verdict}
    (answers : Answers (s.judge v)) (hchap : v.proto ≠ .chap) :
    Inv cfg (authPeerFail cfg (s.judge v)) := by
  have htimed : Timed (s.judge v) := up.timed
  have hwrong : (s.judge v).wrong = false := by simp [hchap, right_not_wrong up.right]
  obtain ⟨hclosed, hdown⟩ := lcpClose_down cfg answers up.opened htimed hwrong
  exact ⟨hclosed, .inr hdown⟩

/-- A request is checked once: it proves the peer or closes the link. -/
theorem upapConclude_inv (single : Single cfg) (answers : Answers s)
    (up : Up cfg s s.authPending) (hlisten : s.pap.serverstate = .listen) (ok : Bool) (id : UInt8)
    (msg : List UInt8) : Inv cfg (upapConclude cfg s ok id msg) := by
  have hup : ∀ serverstate sent, serverstate ≠ PapServer.listen →
      Up cfg { s with pap := { s.pap with serverstate }, sent } s.authPending :=
    fun serverstate sent hstate =>
      { up with
        serving := { up.serving with }
        pending := { up.pending with }
        listen := fun h => absurd h hstate }
  have hanswers : Answers (s.judge ⟨.pap, 0, ok⟩) :=
    answers.judge_other nofun fun _ => up.listen hlisten
  cases ok with
  | true =>
    have hopen : PapServer.open ≠ .listen := by decide
    exact authPeerSuccess_inv single (hup .open _ hopen) (v := ⟨.pap, 0, true⟩)
      { hanswers with } nofun rfl (fun h => absurd h hopen)
  | false =>
    exact authPeerFail_inv (hup .badauth _ nofun) (v := ⟨.pap, 0, false⟩) { hanswers with } nofun

theorem upapRauthreq_inv (single : Single cfg) (inv : Inv cfg s)
    (hopened : s.opened = true) (id : UInt8) (data : List UInt8) :
    Inv cfg (upapRauthreq cfg s id data) := by
  unfold upapRauthreq
  split
  · exact inv.output _ _
  · exact inv.output _ _
  next hlisten =>
    split
    · exact inv
    next ruser rpasswd _ =>
      have hinv := upapConclude_inv single inv.answers (inv.up hopened) hlisten
        ((cfg.checkPasswd ruser rpasswd).1 && cfg.authNumber) id (cfg.checkPasswd ruser rpasswd).2
      simp only [upapCheck]
      split
      · exact hinv.papReqtimers _
      · exact hinv
  · exact inv

theorem upapInput_inv (single : Single cfg) (inv : Inv cfg s) (hopened : s.opened = true)
    (bytes : List UInt8) : Inv cfg (upapInput cfg s bytes) := by
  have hup : ∀ clientstate,
      Up cfg { s with pap := { s.pap with clientstate } } s.authPending := fun clientstate =>
    (inv.up hopened).papClient { s.pap with clientstate } rfl s.papTimers s.sent
  unfold upapInput
  cases parse bytes with
  | none => exact inv
  | some p =>
    simp only
    split_ifs
    · exact upapRauthreq_inv single inv hopened p.id p.data
    · unfold upapRauthack
      split
      · exact inv
      · exact authWithpeerSuccess_inv (s := { s with pap := { s.pap with clientstate := .open } })
          single { inv.answers with } (hup .open) .pap
    · unfold upapRauthnak
      split
      · exact inv
      · exact lcpClose_up_inv { inv.answers with } (hup .badauth)
    · exact inv

theorem upapLowerdown_inv (inv : Inv cfg s) : Inv cfg (upapLowerdown cfg s) := by
  refine ⟨{ inv.answers with }, ?_⟩
  rcases inv.upDown with up | down
  · exact .inl
      { up with
        serving := { up.serving with }
        pending := { up.pending with }
        listen := fun h => absurd (show PapServer.initial = .listen from h) (by decide) }
  · exact .inr { down with papClient := rfl, papServer := .inl rfl }

theorem upapProtrej_inv (inv : Inv cfg s) : Inv cfg (upapProtrej cfg s) := by
  have hclient : Inv cfg (if s.pap.clientstate = .authreq then authWithpeerFail cfg s else s) := by
    split
    · exact lcpClose_inv inv
    · exact inv
  have hserver : ∀ t, Inv cfg t →
      Inv cfg (if t.pap.serverstate = .listen then authPeerFail cfg t else t) := by
    intro t ht
    split
    · exact lcpClose_inv ht
    · exact ht
  exact upapLowerdown_inv (hserver _ hclient)

end Pap

end GameAcc.Ppp.Auth
