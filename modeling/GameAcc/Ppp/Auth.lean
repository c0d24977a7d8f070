import Mathlib.Data.Finset.Basic
import GameAcc.Ppp.Fsm

/-!
Authentication in pppd: `auth.c`, which opens the network protocols when both sides
have proved themselves, with CHAP (`chap-new.c`) and PAP (`upap.c`). All of them
keep their state in globals and call each other, so a function may find its own
state changed when it goes on after a call; here every function takes the whole
state and returns it.

LCP is told of as far as `auth.c` hears of it: it comes up with options, goes down,
or is closed. A link that has joined a multilink bundle (`multilink.c`) goes down
without its upper layers. EAP, CCP, CBCP and the network protocols are outside; they call back
at any time after they have been opened.
-/

namespace GameAcc.Ppp.Auth

inductive Phase where
  | dead
  | initialise
  | serialconn
  | dormant
  | establish
  | authenticate
  | callback
  | network
  | running
  | terminate
  | disconnect
  | holdoff
  | master
deriving Repr, DecidableEq

/-- The phases are ordered, from `PHASE_DEAD` to `PHASE_MASTER`. -/
def Phase.number : Phase → Nat
  | .dead => 0
  | .initialise => 1
  | .serialconn => 2
  | .dormant => 3
  | .establish => 4
  | .authenticate => 5
  | .callback => 6
  | .network => 7
  | .running => 8
  | .terminate => 9
  | .disconnect => 10
  | .holdoff => 11
  | .master => 12

inductive Proto where
  | pap
  | chap
  | eap
deriving Repr, DecidableEq

/-- The bits of `auth_pending`. -/
inductive Bit where
  | withpeer (p : Proto)
  | peer (p : Proto)
deriving Repr, DecidableEq

/-- The part of `lcp_options` that decides on authentication and multilink. -/
structure Options where
  negEap : Bool
  negChap : Bool
  negUpap : Bool
  negCbcp : Bool
  negMrru : Bool
  chapMdtype : UInt8
deriving Repr, DecidableEq

/-- The protocol that one side asks the other for: the first of EAP, CHAP and PAP. -/
def Options.proto (o : Options) : Option Proto :=
  if o.negEap then some .eap
  else if o.negChap then some .chap
  else if o.negUpap then some .pap
  else none

/-- Settings, secrets, the random numbers, and whether a link that is to join a
bundle finds one of another process. -/
structure Config where
  multilink : Bool
  demand : Bool
  attaches : Nat → Bool
  authRequired : Bool
  noauthAddrs : Bool
  wantUpap : Bool
  uselogin : Bool
  nullLogin : Bool
  needPeerEap : Bool
  allowEap : Bool
  encryption : Bool
  networks : Nat
  ourName : List UInt8
  user : List UInt8
  passwd : List UInt8
  remoteName : Option (List UInt8)
  cleanName : List UInt8 → List UInt8
  authNumber : Bool
  sessionCheck : List UInt8 → Bool
  chapMaxTransmits : Nat
  chapRechallengeTime : Bool
  startId : Nat → UInt8
  generateChallenge : UInt8 → Nat → List UInt8
  verifyResponse : UInt8 → List UInt8 → UInt8 → List UInt8 → List UInt8 → Bool × List UInt8
  makeResponse : UInt8 → UInt8 → List UInt8 → List UInt8
  checkSuccess : UInt8 → UInt8 → List UInt8 → Bool
  papMaxTransmits : Nat
  papReqtimeout : Bool
  checkPasswd : List UInt8 → List UInt8 → Bool × List UInt8

/-- The flags of `chap_client_state` and `chap_server_state`. -/
structure Flags where
  lowerup : Bool := false
  authStarted : Bool := false
  authDone : Bool := false
  authFailed : Bool := false
  timeoutPending : Bool := false
  challengeValid : Bool := false
deriving Repr, DecidableEq

structure ChapClient where
  flags : Flags
  digest : UInt8

/-- `struct chap_server_state`, with the number of the challenge. -/
structure ChapServer where
  flags : Flags
  id : UInt8
  digest : UInt8
  challengeXmits : Nat
  challenge : Packet
  message : List UInt8
  number : Nat

inductive PapClient where
  | initial
  | closed
  | pending
  | authreq
  | open
  | badauth
deriving Repr, DecidableEq

inductive PapServer where
  | initial
  | closed
  | pending
  | listen
  | open
  | badauth
deriving Repr, DecidableEq

structure Pap where
  clientstate : PapClient
  serverstate : PapServer
  id : UInt8
  transmits : Nat
deriving Repr, DecidableEq

/-- What the check of an answer came to. -/
structure Verdict where
  proto : Proto
  number : Nat
  ok : Bool
deriving Repr, DecidableEq

/-- The globals. What the peer was asked for and what it asks for when the link comes
up, the verdicts since, the protocols by which it has accepted us, the challenges
drawn before, and whether CHAP had refused a response on the link before, are kept
for the statements only. -/
structure Link where
  opened : Bool
  phase : Phase
  gotOptions : Options
  hisOptions : Options
  doingMultilink : Bool
  multilinkMaster : Bool
  joins : Nat
  authPending : Finset Bit
  numNpOpen : Int
  numNpUp : Int
  networks : Bool
  ccp : Bool
  client : ChapClient
  server : ChapServer
  pap : Pap
  eapPeer : Bool
  eapWithpeer : Bool
  chapTimers : Nat
  papTimers : Nat
  papReqtimers : Nat
  draws : Nat
  sent : List (Proto × Packet)
  asked : Option Proto
  offered : Option Proto
  verdicts : List Verdict
  accepted : List Proto
  since : Nat
  wrongBefore : Bool

namespace Link

def newPhase (s : Link) (phase : Phase) : Link := { s with phase }

def output (s : Link) (p : Proto) (packet : Packet) : Link :=
  { s with sent := s.sent ++ [(p, packet)] }

def setServer (s : Link) (flags : Flags) : Link := { s with server := { s.server with flags } }

def setClient (s : Link) (flags : Flags) : Link := { s with client := { s.client with flags } }

def chapTimeoutIn (s : Link) : Link := { s with chapTimers := s.chapTimers + 1 }

def chapUntimeout (s : Link) : Link := { s with chapTimers := s.chapTimers - 1 }

def judge (s : Link) (v : Verdict) : Link := { s with verdicts := s.verdicts ++ [v] }

/-- An answer by the protocol was found right. -/
def proved (s : Link) (p : Proto) : Bool := s.verdicts.any fun v => v.proto = p ∧ v.ok

/-- A response to a CHAP challenge was found wrong. -/
def wrong (s : Link) : Bool := s.verdicts.any fun v => v.proto = .chap ∧ ¬ v.ok

/-- A response to a CHAP challenge was checked. -/
def challenged (s : Link) : Bool := s.verdicts.any fun v => v.proto = .chap

end Link

variable (cfg : Config)

/-- `chap_lowerdown`. -/
def chapLowerdown (s : Link) : Link :=
  let s := s.setClient {}
  let s := if s.server.flags.timeoutPending then s.chapUntimeout else s
  s.setServer {}

/-- `upap_lowerdown`. -/
def upapLowerdown (s : Link) : Link :=
  { s with
    papTimers := if s.pap.clientstate = .authreq then s.papTimers - 1 else s.papTimers
    papReqtimers :=
      if s.pap.serverstate = .listen ∧ cfg.papReqtimeout then s.papReqtimers - 1
      else s.papReqtimers
    pap := { s.pap with clientstate := .initial, serverstate := .initial } }

/-- `eap_lowerdown`. -/
def eapLowerdown (s : Link) : Link := { s with eapPeer := false, eapWithpeer := false }

/-- The network protocols and CCP go down and are closed. Those that are up call
`np_down`. -/
def networksDown (s : Link) : Link :=
  let s := if 0 < s.numNpUp then s.newPhase .network else s
  { s with networks := false, ccp := false }

/-- `upper_layers_down`. -/
def upperLayersDown (s : Link) : Link :=
  { eapLowerdown (networksDown (chapLowerdown (upapLowerdown cfg s))) with
    numNpOpen := 0, numNpUp := 0 }

/-- `link_down`. -/
def linkDown (s : Link) : Link :=
  if s.doingMultilink then s
  else
    let s := upperLayersDown cfg s
    if s.phase ≠ .dead ∧ s.phase ≠ .master then s.newPhase .establish else s

/-- `lcp_close`. An automaton that is open calls `lcp_down` at once. -/
def lcpClose (s : Link) : Link :=
  let s := if s.phase ≠ .dead ∧ s.phase ≠ .master then s.newPhase .terminate else s
  if s.opened then linkDown cfg { s with opened := false } else s

/-- `auth_peer_fail`. -/
def authPeerFail (s : Link) : Link := lcpClose cfg s

/-- `auth_withpeer_fail`. -/
def authWithpeerFail (s : Link) : Link := lcpClose cfg s

/-- `continue_networks`. -/
def continueNetworks (s : Link) : Link :=
  let s := { s with
    networks := s.networks || 0 < cfg.networks, numNpOpen := s.numNpOpen + cfg.networks }
  if s.numNpOpen = 0 then lcpClose cfg s else s

/-- `mp_join_bundle`: whether the link has joined the bundle of another process. -/
def mpJoinBundle (s : Link) : Link × Bool :=
  let agreed := s.gotOptions.negMrru && s.hisOptions.negMrru
  if s.doingMultilink then (if agreed then s else lcpClose cfg s, false)
  else if agreed then
    let s := { s with doingMultilink := true, joins := s.joins + 1 }
    if cfg.demand then (s, false)
    else if cfg.attaches s.joins then (s, true)
    else ({ s with multilinkMaster := true }, false)
  else (s, false)

/-- The rest of `start_networks`, where the networks are this process's. -/
def openNetworks (s : Link) : Link :=
  let s := { s with ccp := true }
  if cfg.encryption then s else continueNetworks cfg s

/-- `start_networks`. -/
def startNetworks (s : Link) : Link :=
  let s := s.newPhase .network
  if cfg.multilink then
    let (s, joined) := mpJoinBundle cfg s
    if joined then s else openNetworks cfg s
  else openNetworks cfg s

/-- `network_phase`. -/
def networkPhase (s : Link) : Link :=
  if s.gotOptions.negCbcp then s.newPhase .callback else startNetworks cfg s

/-- The end of `auth_peer_success` and `auth_withpeer_success`. -/
def discharge (s : Link) (bit : Bit) : Link :=
  let s := { s with authPending := s.authPending.erase bit }
  if s.authPending = ∅ then networkPhase cfg s else s

/-- `auth_peer_success`. -/
def authPeerSuccess (s : Link) (p : Proto) : Link := discharge cfg s (.peer p)

/-- `auth_withpeer_success`. -/
def authWithpeerSuccess (s : Link) (p : Proto) : Link :=
  discharge cfg { s with accepted := s.accepted ++ [p] } (.withpeer p)

section Chap

def chapChallenge : UInt8 := 1
def chapResponse : UInt8 := 2
def chapSuccess : UInt8 := 3
def chapFailure : UInt8 := 4

/-- `chap_generate_challenge`. -/
def chapGenerateChallenge (s : Link) : Link :=
  let id := s.server.id + 1
  let value := cfg.generateChallenge s.server.digest s.draws
  { s with
    draws := s.draws + 1
    server := { s.server with
      id, challenge := ⟨chapChallenge, id, value ++ cfg.ourName⟩, number := s.draws } }

/-- A challenge goes out, and the timer starts. -/
def sendChallenge (s : Link) : Link :=
  let s := s.output .chap s.server.challenge
  let s := { s with server := { s.server with challengeXmits := s.server.challengeXmits + 1 } }
  (s.setServer { s.server.flags with timeoutPending := true }).chapTimeoutIn

/-- `chap_timeout`. -/
def chapTimeout (s : Link) : Link :=
  let s := s.setServer { s.server.flags with timeoutPending := false }
  if ¬ s.server.flags.challengeValid then
    let s := chapGenerateChallenge cfg { s with server := { s.server with challengeXmits := 0 } }
    sendChallenge (s.setServer { s.server.flags with challengeValid := true })
  else if cfg.chapMaxTransmits ≤ s.server.challengeXmits then
    authPeerFail cfg (s.setServer { s.server.flags with
      challengeValid := false, authDone := true, authFailed := true })
  else sendChallenge s

/-- `chap_lowerup`. -/
def chapLowerup (s : Link) : Link :=
  let s := s.setClient { s.client.flags with lowerup := true }
  let s := s.setServer { s.server.flags with lowerup := true }
  if s.server.flags.authStarted then chapTimeout cfg s else s

/-- `chap_auth_peer`. -/
def chapAuthPeer (s : Link) (digest : UInt8) : Link :=
  if s.server.flags.authStarted then s
  else
    let s := { s with server := { s.server with
      digest, id := cfg.startId s.draws, flags := { s.server.flags with authStarted := true } } }
    if s.server.flags.lowerup then chapTimeout cfg s else s

/-- `chap_auth_with_peer`. -/
def chapAuthWithPeer (s : Link) (digest : UInt8) : Link :=
  if s.client.flags.authStarted then s
  else { s with client :=
    { s.client with digest, flags := { s.client.flags with authStarted := true } } }

/-- The peer is told how its response was taken. -/
def chapStatus (s : Link) (id : UInt8) : Link :=
  let code := if s.server.flags.authFailed then chapFailure else chapSuccess
  s.output .chap ⟨code, id, s.server.message⟩

/-- The name in a response. -/
def chapName (pkt : List UInt8) : List UInt8 :=
  match cfg.remoteName with
  | some name => name
  | none => cfg.cleanName (pkt.drop ((pkt.headD 0).toNat + 1))

/-- A timeout that is pending is taken back. -/
def chapDisarm (s : Link) : Link :=
  if s.server.flags.timeoutPending then
    (s.setServer { s.server.flags with timeoutPending := false }).chapUntimeout
  else s

/-- `chap_handle_response`, as far as the response is checked. -/
def chapVerify (s : Link) (id : UInt8) (pkt : List UInt8) : Link :=
  let s := chapDisarm s
  let (ok, message) :=
    cfg.verifyResponse s.server.digest (chapName cfg pkt) id s.server.challenge.data pkt
  let s := { s with server := { s.server with message } }
  if ok && cfg.authNumber then s else s.setServer { s.server.flags with authFailed := true }

/-- The next challenge, if there are to be more. -/
def chapRechallenge (s : Link) : Link :=
  if cfg.chapRechallengeTime then
    (s.setServer { s.server.flags with timeoutPending := true }).chapTimeoutIn
  else s

/-- The response is wrong, or the session is not to be. -/
def chapFailed (s : Link) (pkt : List UInt8) : Bool :=
  s.server.flags.authFailed ||
    (!s.server.flags.authDone && !cfg.sessionCheck (chapName cfg pkt))

/-- The challenge has its response. -/
def chapSettle (s : Link) (failed : Bool) : Link :=
  (s.setServer { s.server.flags with challengeValid := false, authFailed := failed }).judge
    ⟨.chap, s.server.number, !failed⟩

/-- The end of `chap_handle_response`, for a response that was checked. -/
def chapConclude (s : Link) (pkt : List UInt8) : Link :=
  let failed := chapFailed cfg s pkt
  let s := chapSettle s failed
  let s :=
    if failed then authPeerFail cfg s
    else
      chapRechallenge cfg (if s.server.flags.authDone then s else authPeerSuccess cfg s .chap)
  -- where the link was closed, the flags have been cleared before this one is set
  s.setServer { s.server.flags with authDone := true }

/-- `chap_handle_response`. -/
def chapHandleResponse (s : Link) (id : UInt8) (pkt : List UInt8) : Link :=
  if ¬ s.server.flags.lowerup then s
  else if id ≠ s.server.challenge.id ∨ pkt.length < 2 then s
  else if s.server.flags.challengeValid then
    if pkt.length < (pkt.headD 0).toNat + 1 then s
    else chapConclude cfg (chapStatus (chapVerify cfg s id pkt) id) pkt
  else if s.server.flags.authDone then chapStatus s id
  else s

/-- `chap_respond`. -/
def chapRespond (s : Link) (id : UInt8) (pkt : List UInt8) : Link :=
  if ¬ (s.client.flags.lowerup ∧ s.client.flags.authStarted) then s
  else if pkt.length < 2 ∨ pkt.length < (pkt.headD 0).toNat + 1 then s
  else s.output .chap ⟨chapResponse, id, cfg.makeResponse s.client.digest id pkt ++ cfg.user⟩

/-- `chap_handle_status`. -/
def chapHandleStatus (s : Link) (code id : UInt8) (pkt : List UInt8) : Link :=
  if s.client.flags.authDone ∨ ¬ (s.client.flags.authStarted ∧ s.client.flags.lowerup) then s
  else
    let s := s.setClient { s.client.flags with authDone := true }
    if code = chapSuccess ∧ cfg.checkSuccess s.client.digest id pkt then
      authWithpeerSuccess cfg s .chap
    else authWithpeerFail cfg (s.setClient { s.client.flags with authFailed := true })

/-- `chap_input`. The header is that of `fsm_input`. -/
def chapInput (s : Link) (bytes : List UInt8) : Link :=
  match parse bytes with
  | none => s
  | some p =>
    if p.code = chapChallenge then chapRespond cfg s p.id p.data
    else if p.code = chapResponse then chapHandleResponse cfg s p.id p.data
    else if p.code = chapFailure ∨ p.code = chapSuccess then
      chapHandleStatus cfg s p.code p.id p.data
    else s

/-- `chap_protrej`. -/
def chapProtrej (s : Link) : Link :=
  let s := chapDisarm s
  let s := if s.server.flags.authStarted then authPeerFail cfg (s.setServer {}) else s
  if s.client.flags.authStarted ∧ ¬ s.client.flags.authDone then
    authWithpeerFail cfg (s.setClient { s.client.flags with authStarted := false })
  else s

end Chap

section Pap

def upapAuthreq : UInt8 := 1
def upapAuthack : UInt8 := 2
def upapAuthnak : UInt8 := 3

/-- `upap_sauthreq`. -/
def upapSauthreq (s : Link) : Link :=
  let id := s.pap.id + 1
  let data := [UInt8.ofNat cfg.user.length] ++ cfg.user ++ [UInt8.ofNat cfg.passwd.length] ++
    cfg.passwd
  { s.output .pap ⟨upapAuthreq, id, data⟩ with
    papTimers := s.papTimers + 1
    pap := { s.pap with id, transmits := s.pap.transmits + 1, clientstate := .authreq } }

/-- `upap_authwithpeer`. -/
def upapAuthwithpeer (s : Link) : Link :=
  let s := { s with pap := { s.pap with transmits := 0 } }
  if s.pap.clientstate = .initial ∨ s.pap.clientstate = .pending then
    { s with pap := { s.pap with clientstate := .pending } }
  else upapSauthreq cfg s

/-- The server listens, for a time. -/
def upapListen (s : Link) : Link :=
  { s with
    papReqtimers := if cfg.papReqtimeout then s.papReqtimers + 1 else s.papReqtimers
    pap := { s.pap with serverstate := .listen } }

/-- `upap_authpeer`. -/
def upapAuthpeer (s : Link) : Link :=
  if s.pap.serverstate = .initial ∨ s.pap.serverstate = .pending then
    { s with pap := { s.pap with serverstate := .pending } }
  else upapListen cfg s

/-- `upap_timeout`. -/
def upapTimeout (s : Link) : Link :=
  if s.pap.clientstate ≠ .authreq then s
  else if cfg.papMaxTransmits ≤ s.pap.transmits then
    authWithpeerFail cfg { s with pap := { s.pap with clientstate := .badauth } }
  else upapSauthreq cfg s

/-- `upap_reqtimeout`. -/
def upapReqtimeout (s : Link) : Link :=
  if s.pap.serverstate ≠ .listen then s
  else
    let s := authPeerFail cfg s
    { s with pap := { s.pap with serverstate := .badauth } }

/-- `upap_lowerup`, as far as the client goes. -/
def upapClientUp (s : Link) : Link :=
  match s.pap.clientstate with
  | .initial => { s with pap := { s.pap with clientstate := .closed } }
  | .pending => upapSauthreq cfg s
  | _ => s

/-- `upap_lowerup`. -/
def upapLowerup (s : Link) : Link :=
  let s := upapClientUp cfg s
  match s.pap.serverstate with
  | .initial => { s with pap := { s.pap with serverstate := .closed } }
  | .pending => upapListen cfg s
  | _ => s

/-- `upap_protrej`. -/
def upapProtrej (s : Link) : Link :=
  let s := if s.pap.clientstate = .authreq then authWithpeerFail cfg s else s
  let s := if s.pap.serverstate = .listen then authPeerFail cfg s else s
  upapLowerdown cfg s

/-- `upap_sresp`. -/
def upapSresp (s : Link) (code id : UInt8) (msg : List UInt8) : Link :=
  s.output .pap ⟨code, id, UInt8.ofNat msg.length :: msg⟩

/-- The user and the password of a request. -/
def upapCredentials : List UInt8 → Option (List UInt8 × List UInt8)
  | [] => none
  | ruserlen :: rest =>
    match rest.drop ruserlen.toNat with
    | [] => none
    | rpasswdlen :: passwd =>
      if passwd.length < rpasswdlen.toNat then none
      else some (rest.take ruserlen.toNat, passwd.take rpasswdlen.toNat)

/-- The peer is told how its request was taken. -/
def upapConclude (s : Link) (ok : Bool) (id : UInt8) (msg : List UInt8) : Link :=
  let s := upapSresp s (if ok then upapAuthack else upapAuthnak) id (msg.take 255)
  let s := s.judge ⟨.pap, 0, ok⟩
  if ok then authPeerSuccess cfg { s with pap := { s.pap with serverstate := .open } } .pap
  else authPeerFail cfg { s with pap := { s.pap with serverstate := .badauth } }

/-- `upap_rauthreq`, once the user and the password are known. -/
def upapCheck (s : Link) (id : UInt8) (ruser rpasswd : List UInt8) : Link :=
  let (good, msg) := cfg.checkPasswd ruser rpasswd
  let s := upapConclude cfg s (good && cfg.authNumber) id msg
  if cfg.papReqtimeout then { s with papReqtimers := s.papReqtimers - 1 } else s

/-- `upap_rauthreq`. -/
def upapRauthreq (s : Link) (id : UInt8) (data : List UInt8) : Link :=
  match s.pap.serverstate with
  | .open => upapSresp s upapAuthack id []
  | .badauth => upapSresp s upapAuthnak id []
  | .listen =>
    match upapCredentials data with
    | none => s
    | some (ruser, rpasswd) => upapCheck cfg s id ruser rpasswd
  | _ => s

/-- The message of an acknowledgement is missing or whole. -/
def upapMessage : List UInt8 → Bool
  | [] => true
  | msglen :: rest => msglen.toNat ≤ rest.length

/-- `upap_rauthack`. -/
def upapRauthack (s : Link) (data : List UInt8) : Link :=
  if s.pap.clientstate ≠ .authreq ∨ ¬ upapMessage data then s
  else authWithpeerSuccess cfg { s with pap := { s.pap with clientstate := .open } } .pap

/-- `upap_rauthnak`. -/
def upapRauthnak (s : Link) (data : List UInt8) : Link :=
  if s.pap.clientstate ≠ .authreq ∨ ¬ upapMessage data then s
  else authWithpeerFail cfg { s with pap := { s.pap with clientstate := .badauth } }

/-- `upap_input`. The header is that of `fsm_input`. -/
def upapInput (s : Link) (bytes : List UInt8) : Link :=
  match parse bytes with
  | none => s
  | some p =>
    if p.code = upapAuthreq then upapRauthreq cfg s p.id p.data
    else if p.code = upapAuthack then upapRauthack cfg s p.data
    else if p.code = upapAuthnak then upapRauthnak cfg s p.data
    else s

end Pap

/-- The peer asked to prove itself. -/
def startPeer (s : Link) (go : Options) : Link :=
  match go.proto with
  | some .eap => { s with eapPeer := true }
  | some .chap => chapAuthPeer cfg s go.chapMdtype
  | some .pap => upapAuthpeer cfg s
  | none => s

/-- The peer wants us to. -/
def startWithpeer (s : Link) (ho : Options) : Link :=
  match ho.proto with
  | some .eap => { s with eapWithpeer := true }
  | some .chap => chapAuthWithPeer s ho.chapMdtype
  | some .pap => upapAuthwithpeer cfg s
  | none => s

def pendingBits (go ho : Options) : Finset Bit :=
  (go.proto.elim ∅ fun p => {.peer p}) ∪ (ho.proto.elim ∅ fun p => {.withpeer p})

/-- The peer may stay without proving itself. -/
def lenient : Bool :=
  !cfg.authRequired || cfg.noauthAddrs || (cfg.wantUpap && !cfg.uselogin && cfg.nullLogin)

/-- `link_established`. -/
def linkEstablished (s : Link) (go ho : Options) : Link :=
  let s := if s.doingMultilink then s else chapLowerup cfg (upapLowerup cfg s)
  if go.proto = none ∧ ¬ lenient cfg then lcpClose cfg s
  else if cfg.needPeerEap ∧ ¬ (cfg.allowEap ∧ ho.negEap) then lcpClose cfg s
  else
    let s := startPeer cfg (s.newPhase .authenticate) go
    let s := startWithpeer cfg s ho
    let s := { s with authPending := pendingBits go ho }
    if s.authPending = ∅ then networkPhase cfg s else s

/-- The end of `link_terminated`. -/
def linkTerminated (s : Link) : Link :=
  if s.doingMultilink ∧ s.multilinkMaster then s.newPhase .master else s.newPhase .dead

/-- `mp_bundle_terminated`. -/
def mpBundleTerminated (s : Link) : Link :=
  { (upperLayersDown cfg s).newPhase .dead with doingMultilink := false, multilinkMaster := false }

/-- `np_up`. -/
def npUp (s : Link) : Link :=
  let s := if s.numNpUp = 0 then s.newPhase .running else s
  { s with numNpUp := s.numNpUp + 1 }

/-- `np_down`. -/
def npDown (s : Link) : Link :=
  let s := { s with numNpUp := s.numNpUp - 1 }
  if s.numNpUp = 0 then s.newPhase .network else s

/-- `np_finished`. -/
def npFinished (s : Link) : Link :=
  let s := { s with numNpOpen := s.numNpOpen - 1 }
  if s.numNpOpen ≤ 0 then lcpClose cfg s else s

/-- `get_input` tosses what is neither LCP's nor an authentication protocol's until
the link is past that. -/
def Link.admits (s : Link) : Bool := s.opened && Phase.authenticate.number < s.phase.number

/-- What happens to the link. -/
inductive Event where
  | up (go ho : Options)
  | down
  | close
  | terminated
  | bundleTerminated
  | start
  | chap (bytes : List UInt8)
  | pap (bytes : List UInt8)
  | protrej (p : Proto)
  | chapTimeout
  | papTimeout
  | papReqtimeout
  | eapPeer (ok : Bool)
  | eapWithpeer (ok : Bool)
  | cbcp
  | ccpUp
  | npUp
  | npDown
  | npFinished
deriving Repr, DecidableEq

/-- LCP has agreed on options. -/
def lcpUp (s : Link) (go ho : Options) : Link :=
  linkEstablished cfg { s with
    opened := true, gotOptions := go, hisOptions := ho, asked := go.proto, offered := ho.proto,
    verdicts := [], accepted := [], since := s.draws, wrongBefore := s.wrong } go ho

/-- EAP is done with the peer. -/
def eapDone (s : Link) (ok : Bool) : Link :=
  let s := s.judge ⟨.eap, 0, ok⟩
  if ok then authPeerSuccess cfg s .eap else authPeerFail cfg s

/-- What cannot happen leaves the link as it is. -/
def step (s : Link) : Event → Link
  | .up go ho => if s.opened then s else lcpUp cfg s go ho
  | .down => if s.opened then linkDown cfg { s with opened := false } else s
  | .close => lcpClose cfg s
  | .terminated =>
    if s.opened ∨ s.phase = .dead ∨ s.phase = .master then s else linkTerminated s
  | .bundleTerminated =>
    if s.doingMultilink ∧ s.multilinkMaster then mpBundleTerminated cfg s else s
  | .start => if s.opened then s else s.newPhase .establish
  | .chap bytes => if s.opened then chapInput cfg s bytes else s
  | .pap bytes => if s.opened then upapInput cfg s bytes else s
  | .protrej .chap => if s.opened then chapProtrej cfg s else s
  | .protrej .pap => if s.opened then upapProtrej cfg s else s
  | .protrej .eap => s
  | .chapTimeout => if s.chapTimers = 0 then s else chapTimeout cfg s.chapUntimeout
  | .papTimeout =>
    if s.papTimers = 0 then s else upapTimeout cfg { s with papTimers := s.papTimers - 1 }
  | .papReqtimeout =>
    if s.papReqtimers = 0 then s
    else upapReqtimeout cfg { s with papReqtimers := s.papReqtimers - 1 }
  | .eapPeer ok => if s.eapPeer then eapDone cfg s ok else s
  | .eapWithpeer ok =>
    if ¬ s.eapWithpeer then s
    else if ok then authWithpeerSuccess cfg s .eap else authWithpeerFail cfg s
  | .cbcp => if s.admits then startNetworks cfg s else s
  | .ccpUp => if s.opened ∧ s.ccp then continueNetworks cfg s else s
  | .npUp => if s.opened ∧ s.networks then npUp s else s
  | .npDown => if 0 < s.numNpUp then npDown s else s
  | .npFinished => if s.networks then npFinished cfg s else s

def run (s : Link) (events : List Event) : Link := events.foldl (step cfg) s

/-- `chap_init`, `upap_init` and the globals as they start. -/
def initial : Link where
  opened := false
  phase := .initialise
  gotOptions := ⟨false, false, false, false, false, 0⟩
  hisOptions := ⟨false, false, false, false, false, 0⟩
  doingMultilink := false
  multilinkMaster := false
  joins := 0
  authPending := ∅
  numNpOpen := 0
  numNpUp := 0
  networks := false
  ccp := false
  client := ⟨{}, 0⟩
  server := ⟨{}, 0, 0, 0, ⟨0, 0, []⟩, [], 0⟩
  pap := ⟨.initial, .initial, 0, 0⟩
  eapPeer := false
  eapWithpeer := false
  chapTimers := 0
  papTimers := 0
  papReqtimers := 0
  draws := 0
  sent := []
  asked := none
  offered := none
  verdicts := []
  accepted := []
  since := 0
  wrongBefore := false

end GameAcc.Ppp.Auth
