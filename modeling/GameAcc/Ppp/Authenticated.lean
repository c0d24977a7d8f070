import GameAcc.Ppp.AuthRun

/-!
What the authentication of pppd comes to, in every state that can be reached. The
gate is exact but for one slip: a server that has closed the link over a wrong
response marks itself done once the link is down, keeps the mark for the next link,
and then takes the right response to be a repeated one.
-/

namespace GameAcc.Ppp.Auth

variable {cfg : Config} {s : Link}

def Reached (cfg : Config) (s : Link) : Prop := ∃ events, run cfg initial events = s

theorem Reached.inv (single : Single cfg) (hreached : Reached cfg s) : Inv cfg s := by
  obtain ⟨events, rfl⟩ := hreached
  exact reached_inv single events

/-- Nobody has still to prove himself, for all that `auth_pending` says. -/
def Settled (s : Link) : Prop :=
  (∀ p, s.asked = some p → s.proved p = true ∧ ¬ (p = .chap ∧ s.wrongBefore = true)) ∧
    ∀ p, s.offered = some p → p ∈ s.accepted

theorem Pending.empty_iff (pending : Pending cfg s s.authPending) :
    s.authPending = ∅ ↔ Settled s := by
  constructor
  · intro hempty
    have hnone : ∀ bit, bit ∉ s.authPending := by simp [hempty]
    constructor
    · intro p hasked
      have hstruck := (pending.peer p).not.mp (hnone _)
      rw [not_and, not_or] at hstruck
      obtain ⟨hproved, hchap⟩ := hstruck hasked
      exact ⟨by simpa using hproved, hchap⟩
    · intro p hoffered
      have hstruck := (pending.withpeer p).not.mp (hnone _)
      rw [not_and, not_not] at hstruck
      exact hstruck hoffered
  · rintro ⟨hpeer, hwithpeer⟩
    apply Finset.eq_empty_of_forall_notMem
    intro bit hbit
    cases bit with
    | peer p =>
      obtain ⟨hasked, hopen⟩ := (pending.peer p).mp hbit
      obtain ⟨hproved, hchap⟩ := hpeer p hasked
      rcases hopen with hunproved | hslip
      · exact absurd (hproved.symm.trans hunproved) (by decide)
      · exact hchap hslip
    | withpeer p =>
      obtain ⟨hoffered, hopen⟩ := (pending.withpeer p).mp hbit
      exact hopen (hwithpeer p hoffered)

theorem Up.admits_iff (up : Up cfg s s.authPending) : s.admits = true ↔ s.authPending = ∅ := by
  simp only [Link.admits, up.opened, Bool.true_and, decide_eq_true_eq]
  rcases up.gate with ⟨hphase, hsome, _⟩ | ⟨hnumber, hempty⟩
  · simp [hphase, hsome]
  · simp [hnumber, hempty]

theorem Inv.admits_iff (inv : Inv cfg s) : s.admits = true ↔ s.opened = true ∧ Settled s := by
  rcases inv.upDown with up | down
  · rw [up.admits_iff, up.pending.empty_iff]
    simp [up.opened]
  · simp [Link.admits, down.opened]

/-- A server that asks for CHAP; the response to a challenge is its one octet, the id
and seven. -/
def office : Config where
  multilink := false
  demand := false
  attaches := fun _ => false
  authRequired := true
  noauthAddrs := false
  wantUpap := false
  uselogin := false
  nullLogin := false
  needPeerEap := false
  allowEap := false
  encryption := false
  networks := 1
  ourName := [111]
  user := []
  passwd := []
  remoteName := none
  cleanName := id
  authNumber := true
  sessionCheck := fun _ => true
  chapMaxTransmits := 10
  chapRechallengeTime := false
  startId := fun n => UInt8.ofNat n
  generateChallenge := fun _ n => [1, UInt8.ofNat n]
  verifyResponse := fun _ _ id challenge response =>
    (response.take 2 == [1, id + challenge.getD 1 0 + 7], [])
  makeResponse := fun _ _ _ => []
  checkSuccess := fun _ _ _ => true
  papMaxTransmits := 10
  papReqtimeout := true
  checkPasswd := fun _ _ => (false, [])

theorem office_single : Single office := ⟨rfl, by decide⟩

def callerAsked : Event :=
  .up ⟨false, true, false, false, false, 5⟩ ⟨false, false, false, false, false, 0⟩

def firstTry : List Event := [callerAsked, .chap [2, 1, 0, 6, 1, 8]]

/-- The caller's first response is wrong, and the second time it would be right. -/
def secondTry : List Event := [callerAsked, .chap [2, 1, 0, 6, 1, 99], callerAsked]

/-- The right response to the challenge that waits. -/
structure RightResponse (cfg : Config) (s : Link) (p : Packet) : Prop where
  waits : s.server.flags.challengeValid = true
  code : p.code = chapResponse
  id : p.id = s.server.challenge.id
  long : 2 ≤ p.data.length
  whole : (p.data.headD 0).toNat + 1 ≤ p.data.length
  right : (cfg.verifyResponse s.server.digest (chapName cfg p.data) p.id
    s.server.challenge.data p.data).1 = true
  number : cfg.authNumber = true
  session : cfg.sessionCheck (chapName cfg p.data) = true

theorem RightResponse.step_eq {p : Packet} (answer : RightResponse cfg s p)
    (up : Up cfg s s.authPending) {bytes : List UInt8} (hparse : parse bytes = some p) :
    step cfg s (.chap bytes) =
      chapConclude cfg (chapStatus (chapVerify cfg s p.id p.data) p.id) p.data := by
  have hwhole : ¬ p.data.length < (p.data.headD 0).toNat + 1 := by
    have := answer.whole
    omega
  have hlong : ¬ (p.id ≠ s.server.challenge.id ∨ p.data.length < 2) := by
    have := answer.long
    simp only [answer.id, ne_eq, not_true_eq_false, false_or]
    omega
  have hchallenge : chapResponse ≠ chapChallenge := by decide
  simp only [step, up.opened, if_true, chapInput, hparse, answer.code, if_neg hchallenge]
  rw [chapHandleResponse, if_neg (not_not.mpr up.serving.lowerup), if_neg hlong,
    if_pos answer.waits, if_neg hwhole]

end GameAcc.Ppp.Auth
