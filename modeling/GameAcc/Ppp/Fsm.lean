import Mathlib.Data.List.Basic

/-!
The automaton under every control protocol of pppd (`fsm.c`). What a protocol
adds is in its callbacks, which read and write the state of its options; a
callback that may be missing is an `Option`. Calls of the layers above and below
and everything that is sent are kept in a log, as are, for the statements only,
the steps of `f->id` and the requests that are answered, with `f->reqid` then. The entries for
`fsm_timeout` in the queue of timers are counted.
-/

namespace GameAcc.Ppp

def headerlen : Nat := 4

def confreq : UInt8 := 1
def confack : UInt8 := 2
def confnak : UInt8 := 3
def confrej : UInt8 := 4
def termreq : UInt8 := 5
def termack : UInt8 := 6
def coderej : UInt8 := 7

inductive State where
  | initial
  | starting
  | closed
  | stopped
  | closing
  | stopping
  | reqsent
  | ackrcvd
  | acksent
  | opened
deriving Repr, DecidableEq

structure Packet where
  code : UInt8
  id : UInt8
  data : List UInt8
deriving Repr, DecidableEq

inductive Action where
  | up
  | down
  | starting
  | finished
  | newId
  | asked (own id : UInt8) (data : List UInt8)
  | send (p : Packet)
deriving Repr, DecidableEq

/-- What `reqci` answers to a request. -/
inductive Verdict where
  | ack
  | nak
  | rej
deriving Repr, DecidableEq

def Verdict.code : Verdict → UInt8
  | .ack => confack
  | .nak => confnak
  | .rej => confrej

/-- `struct fsm_callbacks`. `cilen` and `addci` are one: the options of a request. A
callback works on the options of its protocol and returns; one that calls back into
the automaton, as CCP's `reqci` does when it closes LCP over MPPE, is not among
these. -/
structure Callbacks (σ : Type) where
  resetci : Option (σ → σ)
  addci : Option (σ → List UInt8)
  ackci : Option (σ → List UInt8 → Bool)
  nakci : Option (State → σ → List UInt8 → Bool → Int × σ)
  rejci : Option (State → σ → List UInt8 → Int × σ)
  reqci : Option (σ → List UInt8 → Bool → Verdict × List UInt8 × σ)
  up : Option (σ → σ)
  down : Option (σ → σ)
  starting : Option (σ → σ)
  finished : Option (σ → σ)
  retransmit : Option (σ → σ)
  extcode : Option (State → σ → Packet → Option (List Packet) × σ)

/-- `struct fsm`, with the options in `ci`. -/
structure Fsm (σ : Type) where
  state : State
  passive : Bool
  restart : Bool
  silent : Bool
  id : UInt8
  reqid : UInt8
  seenAck : Bool
  maxconfreqtransmits : Int
  retransmits : Int
  maxtermtransmits : Int
  nakloops : Int
  rnakloops : Int
  maxnakloops : Int
  termReason : List UInt8
  peerMru : Nat
  ci : σ
  timers : Nat
  log : List Action

variable {σ : Type}

/-- What a protocol sets before it uses its automaton. -/
structure Setup where
  passive : Bool
  restart : Bool
  silent : Bool
  maxconfreqtransmits : Int
  maxtermtransmits : Int
  maxnakloops : Int
  peerMru : Nat

/-- The flags and limits of `fsm_init`. -/
def defaults (peerMru : Nat) : Setup where
  passive := false
  restart := false
  silent := false
  maxconfreqtransmits := 10
  maxtermtransmits := 2
  maxnakloops := 5
  peerMru

/-- `fsm_init`. -/
def fsmInit (s : Setup) (ci : σ) : Fsm σ where
  state := .initial
  passive := s.passive
  restart := s.restart
  silent := s.silent
  id := 0
  reqid := 0
  seenAck := false
  maxconfreqtransmits := s.maxconfreqtransmits
  retransmits := 0
  maxtermtransmits := s.maxtermtransmits
  nakloops := 0
  rnakloops := 0
  maxnakloops := s.maxnakloops
  termReason := []
  peerMru := s.peerMru
  ci
  timers := 0
  log := []

namespace Fsm

/-- `TIMEOUT (fsm_timeout, f, …)`. -/
def timeout (f : Fsm σ) : Fsm σ := { f with timers := f.timers + 1 }

/-- `UNTIMEOUT (fsm_timeout, f)` removes one entry, if there is one. -/
def untimeout (f : Fsm σ) : Fsm σ := { f with timers := f.timers - 1 }

def setState (f : Fsm σ) (state : State) : Fsm σ := { f with state }

/-- Where a callback is due. A missing one changes nothing. -/
def callback (f : Fsm σ) (call : Option (σ → σ)) (action : List Action) : Fsm σ :=
  { f with ci := call.elim f.ci fun g => g f.ci, log := f.log ++ action }

/-- `++f->id`. -/
def nextId (f : Fsm σ) : Fsm σ := { f with id := f.id + 1, log := f.log ++ [.newId] }

/-- `fsm_sdata`. -/
def sdata (f : Fsm σ) (code id : UInt8) (data : List UInt8) : Fsm σ :=
  { f with log := f.log ++ [.send ⟨code, id, data.take (f.peerMru - headerlen)⟩] }

end Fsm

section Fsm

variable (c : Callbacks σ)

/-- The options of a request for this state. -/
def Callbacks.request (ci : σ) : List UInt8 :=
  match c.addci with
  | none => []
  | some addci => addci ci

def negotiating (s : State) : Bool := s = .reqsent || s = .ackrcvd || s = .acksent

/-- The options of an automaton that does not negotiate yet start over. -/
def resetOptions (f : Fsm σ) : Fsm σ :=
  if negotiating f.state then f
  else { f.callback c.resetci [] with nakloops := 0, rnakloops := 0 }

/-- A request that is not sent again gets an id of its own. -/
def newRequest (f : Fsm σ) : Fsm σ :=
  let f := { f with retransmits := f.maxconfreqtransmits }.nextId
  { f with reqid := f.id }

/-- `fsm_sconfreq`. -/
def sconfreq (f : Fsm σ) (retransmit : Bool) : Fsm σ :=
  let f := resetOptions c f
  let f := if retransmit then f else newRequest f
  let f := { f with seenAck := false }
  let f := f.sdata confreq f.reqid (c.request f.ci)
  { f with retransmits := f.retransmits - 1 }.timeout

/-- `fsm_lowerup`. -/
def lowerup (f : Fsm σ) : Fsm σ :=
  match f.state with
  | .initial => f.setState .closed
  | .starting => if f.silent then f.setState .stopped else (sconfreq c f false).setState .reqsent
  | _ => f

/-- `fsm_lowerdown`. -/
def lowerdown (f : Fsm σ) : Fsm σ :=
  match f.state with
  | .closed => f.setState .initial
  | .stopped => (f.setState .starting).callback c.starting [.starting]
  | .closing => (f.setState .initial).untimeout
  | .stopping | .reqsent | .ackrcvd | .acksent => (f.setState .starting).untimeout
  | .opened => (f.callback c.down [.down]).setState .starting
  | _ => f

/-- The end of `fsm_open`, where two of its cases fall through to. -/
def reopen (f : Fsm σ) : Fsm σ := if f.restart then lowerup c (lowerdown c f) else f

/-- `fsm_open`. -/
def fsmOpen (f : Fsm σ) : Fsm σ :=
  match f.state with
  | .initial => (f.setState .starting).callback c.starting [.starting]
  | .closed => if f.silent then f.setState .stopped else (sconfreq c f false).setState .reqsent
  | .closing => reopen c (f.setState .stopping)
  | .stopped | .opened => reopen c f
  | _ => f

/-- The Terminate-Request of `terminate_layer` and `fsm_timeout`. -/
def sendTermreq (f : Fsm σ) : Fsm σ :=
  let f := f.nextId
  let f := { f with reqid := f.id }
  f.sdata termreq f.reqid f.termReason

/-- `terminate_layer`. -/
def terminateLayer (f : Fsm σ) (nextstate : State) : Fsm σ :=
  let f := if f.state ≠ .opened then f.untimeout else f.callback c.down [.down]
  let f := sendTermreq { f with retransmits := f.maxtermtransmits }
  if f.retransmits = 0 then
    (f.setState (if nextstate = .closing then .closed else .stopped)).callback c.finished
      [.finished]
  else
    let f := f.timeout
    { f with retransmits := f.retransmits - 1 }.setState nextstate

/-- `fsm_close`. -/
def fsmClose (f : Fsm σ) (reason : List UInt8) : Fsm σ :=
  let f := { f with termReason := reason }
  match f.state with
  | .starting => f.setState .initial
  | .stopped => f.setState .closed
  | .stopping => f.setState .closing
  | .reqsent | .ackrcvd | .acksent | .opened => terminateLayer c f .closing
  | _ => f

/-- `fsm_timeout`. -/
def fsmTimeout (f : Fsm σ) : Fsm σ :=
  match f.state with
  | .closing | .stopping =>
    if f.retransmits ≤ 0 then
      (f.setState (if f.state = .closing then .closed else .stopped)).callback c.finished
        [.finished]
    else
      let f := (sendTermreq f).timeout
      { f with retransmits := f.retransmits - 1 }
  | .reqsent | .ackrcvd | .acksent =>
    if f.retransmits ≤ 0 then
      let f := f.setState .stopped
      if f.passive then f else f.callback c.finished [.finished]
    else
      let f := sconfreq c (f.callback c.retransmit []) true
      if f.state = .ackrcvd then f.setState .reqsent else f
  | _ => f

/-- What `reqci` makes of the options of a request. -/
def Callbacks.check (f : Fsm σ) (data : List UInt8) : Verdict × List UInt8 × σ :=
  match c.reqci with
  | some reqci => reqci f.ci data (f.nakloops ≥ f.maxnakloops)
  | none => (if data ≠ [] then .rej else .ack, data, f.ci)

/-- After the reply to a request. -/
def replied (f : Fsm σ) (code : Verdict) : Fsm σ :=
  if code = .ack then
    let f :=
      if f.state = .ackrcvd then (f.untimeout.setState .opened).callback c.up [.up]
      else f.setState .acksent
    { f with nakloops := 0 }
  else
    let f := if f.state ≠ .ackrcvd then f.setState .reqsent else f
    if code = .nak then { f with nakloops := f.nakloops + 1 } else f

/-- The reply at the end of `fsm_rconfreq`. -/
def replyConfreq (f : Fsm σ) (id : UInt8) (data : List UInt8) : Fsm σ :=
  let (code, out, ci) := c.check f data
  replied c ({ f with ci, log := f.log ++ [Action.asked f.reqid id data] }.sdata code.code id out) code

/-- `fsm_rconfreq`. -/
def rconfreq (f : Fsm σ) (id : UInt8) (data : List UInt8) : Fsm σ :=
  match f.state with
  | .closed => f.sdata termack id []
  | .closing | .stopping => f
  | .opened =>
    let f := f.callback c.down [.down]
    replyConfreq c ((sconfreq c f false).setState .reqsent) id data
  | .stopped => replyConfreq c ((sconfreq c f false).setState .reqsent) id data
  | _ => replyConfreq c f id data

/-- Whether the options of an acknowledgement are the ones asked for. -/
def Callbacks.accepts (ci : σ) (data : List UInt8) : Bool :=
  match c.ackci with
  | some ackci => ackci ci data
  | none => data = []

/-- The end of `fsm_rconfack`, once the acknowledgement has been accepted. -/
def acknowledged (f : Fsm σ) (id : UInt8) : Fsm σ :=
  match f.state with
  | .closed | .stopped => f.sdata termack id []
  | .reqsent => { f.setState .ackrcvd with retransmits := f.maxconfreqtransmits }
  | .ackrcvd => (sconfreq c f.untimeout false).setState .reqsent
  | .acksent =>
    let f := f.untimeout.setState .opened
    { f with retransmits := f.maxconfreqtransmits }.callback c.up [.up]
  | .opened => (sconfreq c (f.callback c.down [.down]) false).setState .reqsent
  | _ => f

/-- `fsm_rconfack`. -/
def rconfack (f : Fsm σ) (id : UInt8) (data : List UInt8) : Fsm σ :=
  if id ≠ f.reqid || f.seenAck then f
  else if !c.accepts f.ci data then f
  else acknowledged c { f with seenAck := true, rnakloops := 0 } id

/-- The end of `fsm_rconfnakrej`, once `nakci` or `rejci` has returned `ret`. -/
def refused (f : Fsm σ) (ret : Int) (id : UInt8) : Fsm σ :=
  match f.state with
  | .closed | .stopped => f.sdata termack id []
  | .reqsent | .acksent =>
    let f := f.untimeout
    if ret < 0 then f.setState .stopped else sconfreq c f false
  | .ackrcvd => (sconfreq c f.untimeout false).setState .reqsent
  | .opened => (sconfreq c (f.callback c.down [.down]) false).setState .reqsent
  | _ => f

/-- `fsm_rconfnakrej`. -/
def rconfnakrej (f : Fsm σ) (code id : UInt8) (data : List UInt8) : Fsm σ :=
  if id ≠ f.reqid || f.seenAck then f
  else if code = confnak then
    let f := { f with rnakloops := f.rnakloops + 1 }
    match c.nakci with
    | none => f
    | some nakci =>
      let (ret, ci) := nakci f.state f.ci data (f.rnakloops ≥ f.maxnakloops)
      let f := { f with ci }
      if ret = 0 then f else refused c { f with seenAck := true } ret id
  else
    let f := { f with rnakloops := 0 }
    match c.rejci with
    | none => f
    | some rejci =>
      let (ret, ci) := rejci f.state f.ci data
      let f := { f with ci }
      if ret = 0 then f else refused c { f with seenAck := true } ret id

/-- `fsm_rtermreq`. -/
def rtermreq (f : Fsm σ) (id : UInt8) : Fsm σ :=
  let f :=
    match f.state with
    | .ackrcvd | .acksent => f.setState .reqsent
    | .opened => (({ f with retransmits := 0 }.setState .stopping).callback c.down [.down]).timeout
    | _ => f
  f.sdata termack id []

/-- `fsm_rtermack`. -/
def rtermack (f : Fsm σ) : Fsm σ :=
  match f.state with
  | .closing => (f.untimeout.setState .closed).callback c.finished [.finished]
  | .stopping => (f.untimeout.setState .stopped).callback c.finished [.finished]
  | .ackrcvd => f.setState .reqsent
  | .opened => (sconfreq c (f.callback c.down [.down]) false).setState .reqsent
  | _ => f

/-- `fsm_rcoderej`. -/
def rcoderej (f : Fsm σ) (data : List UInt8) : Fsm σ :=
  if data.length < headerlen then f
  else if f.state = .ackrcvd then f.setState .reqsent else f

/-- `fsm_protreject`. -/
def protreject (f : Fsm σ) : Fsm σ :=
  match f.state with
  | .closing => (f.untimeout.setState .closed).callback c.finished [.finished]
  | .closed => f.callback c.finished [.finished]
  | .stopping | .reqsent | .ackrcvd | .acksent =>
    (f.untimeout.setState .stopped).callback c.finished [.finished]
  | .stopped => f.callback c.finished [.finished]
  | .opened => terminateLayer c f .stopping
  | _ => f

/-- The codes the automaton does not know: the protocol's own, or a Code-Reject
of the whole packet. -/
def otherCode (f : Fsm σ) (p : Packet) (packet : List UInt8) : Fsm σ :=
  match c.extcode with
  | none => let f := f.nextId; f.sdata coderej f.id packet
  | some extcode =>
    let (replies, ci) := extcode f.state f.ci p
    let f := { f with ci }
    match replies with
    | none => let f := f.nextId; f.sdata coderej f.id packet
    | some replies => replies.foldl (fun f r => f.sdata r.code r.id r.data) f

/-- The bytes of a packet, as `fsm_sdata` puts them together. -/
def encode (p : Packet) : List UInt8 :=
  [p.code, p.id, UInt8.ofNat ((p.data.length + headerlen) / 256),
    UInt8.ofNat ((p.data.length + headerlen) % 256)] ++ p.data

/-- The header of `fsm_input`: code, id and length. -/
def parse (bytes : List UInt8) : Option Packet :=
  match bytes with
  | code :: id :: hi :: lo :: rest =>
    let len := hi.toNat * 256 + lo.toNat
    if len < headerlen then none
    else if len > bytes.length then none
    else some ⟨code, id, rest.take (len - headerlen)⟩
  | _ => none

/-- `fsm_input`. -/
def fsmInput (f : Fsm σ) (bytes : List UInt8) : Fsm σ :=
  match parse bytes with
  | none => f
  | some p =>
    if f.state = .initial || f.state = .starting then f
    else if p.code = confreq then rconfreq c f p.id p.data
    else if p.code = confack then rconfack c f p.id p.data
    else if p.code = confnak || p.code = confrej then rconfnakrej c f p.code p.id p.data
    else if p.code = termreq then rtermreq c f p.id
    else if p.code = termack then rtermack c f
    else if p.code = coderej then rcoderej f p.data
    else otherCode c f p (bytes.take (p.data.length + headerlen))

end Fsm

/-- What happens to an automaton. The flags change when a protocol is opened
again with other options. -/
inductive Event where
  | lowerup
  | lowerdown
  | open
  | close (reason : List UInt8)
  | timeout
  | input (bytes : List UInt8)
  | protreject
  | flags (passive silent : Bool)

def step (c : Callbacks σ) (f : Fsm σ) : Event → Fsm σ
  | .lowerup => lowerup c f
  | .lowerdown => lowerdown c f
  | .open => fsmOpen c f
  | .close reason => fsmClose c f reason
  | .timeout => if f.timers = 0 then f else fsmTimeout c f.untimeout
  | .input bytes => fsmInput c f bytes
  | .protreject => protreject c f
  | .flags passive silent => { f with passive, silent }

def run (c : Callbacks σ) (f : Fsm σ) (events : List Event) : Fsm σ := events.foldl (step c) f

end GameAcc.Ppp
