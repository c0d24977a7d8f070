import GameAcc.Foundations.FirstMatch

/-!
The control channel of one l2tp tunnel: `control.c`, `network.c` and the part
of `call.c` that closes calls. A function returns the tunnel it leaves behind
and what it did, as a list of events; the events that are not datagrams are
there for the statements only.

The attributes of a message are a sequence of bytes here. A message that is
sent has at least one and fits the buffer it is built in, so it can never be
taken for a message without a body (a ZLB).
-/

namespace GameAcc.L2tp

/-- `MAX_RECV_SIZE` less `sizeof (struct control_hdr)`. -/
def maxBody : Nat := 4096 - 12

/-- The attributes of an outgoing message. -/
abbrev Body := { bytes : List UInt8 // bytes ≠ [] ∧ bytes.length ≤ maxBody }

theorem single_fits (b : UInt8) : [b] ≠ [] ∧ [b].length ≤ maxBody := by
  simp [maxBody]

/-- A message of one byte. -/
def single (b : UInt8) : Body := ⟨[b], single_fits b⟩

/-- `struct control_hdr`. -/
structure ControlHdr where
  ver : UInt16
  length : UInt16
  tid : UInt16
  cid : UInt16
  ns : UInt16
  nr : UInt16
deriving Repr, DecidableEq

/-- A control datagram: its header and the bytes behind it. -/
structure Packet where
  hdr : ControlHdr
  body : List UInt8
deriving Repr, DecidableEq

/-- `buf->len`. -/
def Packet.len (p : Packet) : Nat := 12 + p.body.length

def tBit : UInt16 := 0x8000
def lBit : UInt16 := 0x4000
def fBit : UInt16 := 0x0800
def verL2tp : UInt16 := 2
def maxRetries : Nat := 5

/-- A message waiting to be sent again (`struct buffer`). -/
structure Buffer where
  packet : Packet
  retries : Nat
deriving Repr, DecidableEq

structure Call where
  ourcid : UInt16
  cid : UInt16
  needclose : Bool
  closing : Bool
  cnu : Bool
  closeSs : UInt16
deriving Repr, DecidableEq

/-- `struct tunnel`, with the transmissions scheduled for it. -/
structure Tunnel where
  tid : Int
  controlSeqNum : UInt16
  controlRecSeqNum : UInt16
  cLr : Nat
  sanity : Bool
  self : Call
  calls : List Call
  events : List Buffer
  destroyed : Bool
deriving Repr, DecidableEq

/-- `new_call`, as `new_tunnel` makes the tunnel's own. -/
def newCall (ourcid : UInt16) : Call :=
  { ourcid, cid := 0, needclose := false, closing := false, cnu := false, closeSs := 0 }

def newTunnel : Tunnel :=
  { tid := -1, controlSeqNum := 0, controlRecSeqNum := 0, cLr := 0, sanity := true,
    self := newCall 0, calls := [], events := [], destroyed := false }

/-- A pointer to a call: the tunnel's own or one of its members. -/
inductive Ref where
  | self
  | member (ourcid : UInt16)
deriving Repr, DecidableEq

/-- A message got a number, a datagram left, the expected number moved on, an
acknowledged message was freed. What was taken went to `handle_avps`, or not. -/
inductive Event where
  | queued (body : List UInt8)
  | wire (p : Packet)
  | took (body : List UInt8) (handed : Bool)
  | tossed (ns : UInt16)
deriving Repr, DecidableEq

namespace Tunnel

def call? (t : Tunnel) : Ref → Option Call
  | .self => some t.self
  | .member ourcid => t.calls.find? (·.ourcid = ourcid)

def setCall (t : Tunnel) (r : Ref) (f : Call → Call) : Tunnel :=
  match r with
  | .self => { t with self := f t.self }
  | .member ourcid => { t with calls := FirstMatch.updateFirst (·.ourcid = ourcid) f t.calls }

/-- `get_call` inside a tunnel: call 0 is the tunnel itself. -/
def getCall (t : Tunnel) (call : UInt16) : Option Ref :=
  if call ≠ 0 then
    if (t.call? (.member call)).isSome then some (.member call) else none
  else some .self

def cidOf (t : Tunnel) (r : Ref) : UInt16 := ((t.call? r).map Call.cid).getD 0

end Tunnel

def addControlHdr (t : Tunnel) (cid : UInt16) (body : List UInt8) : Packet × Tunnel :=
  ({ hdr :=
      { ver := tBit ||| lBit ||| fBit ||| verL2tp
        length := UInt16.ofNat (12 + body.length)
        tid := UInt16.ofInt t.tid
        cid
        ns := t.controlSeqNum
        nr := t.controlRecSeqNum }
     body },
   { t with controlSeqNum := t.controlSeqNum + 1 })

def controlZlb (t : Tunnel) (cid : UInt16) : Tunnel × List Event :=
  let (p, t) := addControlHdr t cid []
  ({ t with controlSeqNum := t.controlSeqNum - 1 }, [.wire p])

/-- `control_xmit`, with `call_close (t->self)` as a parameter. -/
def controlXmitWith (callClose : Tunnel → Tunnel × List Event) (t : Tunnel) (buf : Buffer) :
    Tunnel × List Event :=
  let buf := { buf with retries := buf.retries + 1 }
  if buf.packet.hdr.ns.toNat < t.cLr then (t, [.tossed buf.packet.hdr.ns])
  else if buf.retries > maxRetries then
    if t.self.needclose then
      callClose { t with self := { t.self with needclose := false, closing := true } }
    else callClose { t with self := { t.self with needclose := true } }
  else ({ t with events := t.events ++ [buf] }, [.wire buf.packet])

/-- A message sent for the first time: `new_outgoing`, the attributes,
`add_control_hdr` and `control_xmit`, which cannot give up here. -/
def sendMessage (t : Tunnel) (cid : UInt16) (body : Body) : Tunnel × List Event :=
  let (p, t) := addControlHdr t cid body.val
  let (t, out) := controlXmitWith (fun t => (t, [])) t { packet := p, retries := 0 }
  (t, .queued body.val :: out)

/-- `call_close` on a tunnel. `stop` is the body of the StopCCN. -/
def callCloseSelf (stop : Body) (t : Tunnel) : Tunnel × List Event :=
  let t := { t with events := [] }
  if t.self.closing then ({ t with calls := [], destroyed := true }, [])
  else
    let t := { t with self := { t.self with closeSs := t.controlSeqNum } }
    let (t, out) := sendMessage t t.self.cid stop
    ({ t with calls := [], self := { t.self with closing := true } }, out)

/-- `call_close` on a member. `cdn` is the body of the CDN. -/
def callCloseMember (cdn : Body) (ourcid : UInt16) (t : Tunnel) : Tunnel × List Event :=
  match t.call? (.member ourcid) with
  | none => (t, [])
  | some c =>
    if c.closing then ({ t with calls := t.calls.eraseP (·.ourcid = ourcid) }, [])
    else
      let t := t.setCall (.member ourcid) fun c => { c with closeSs := t.controlSeqNum }
      let (t, out) := sendMessage t c.cid cdn
      (t.setCall (.member ourcid) fun c => { c with closing := true }, out)

def callClose (body : Body) (t : Tunnel) : Ref → Tunnel × List Event
  | .self => callCloseSelf body t
  | .member ourcid => callCloseMember body ourcid t

def controlXmit (stop : Body) : Tunnel → Buffer → Tunnel × List Event :=
  controlXmitWith (callCloseSelf stop)

/-- One turn of the loop of `build_fdset`. -/
def buildFdset (body : Body) (t : Tunnel) (r : Ref) : Tunnel × List Event :=
  match t.call? r with
  | none => (t, [])
  | some c => if c.needclose ^^ c.closing then callClose body t r else (t, [])

/-- What `handle_avps`, `control_finish` and the rest of the daemon do with a
tunnel: send a message, leave the acknowledgement to it (`c->cnu = 0`), ask for
the end of a call, note that the peer has ended it, close or add a member, learn
the peer's numbers. -/
inductive Act where
  | send (r : Ref) (body : Body)
  | quiet (r : Ref)
  | wantClose (r : Ref)
  | peerClosed (r : Ref)
  | close (ourcid : UInt16) (cdn : Body)
  | add (ourcid : UInt16)
  | assignTid (tid : Int)
  | assignCid (r : Ref) (cid : UInt16)

def act (t : Tunnel) : Act → Tunnel × List Event
  | .send r body => sendMessage t (t.cidOf r) body
  | .quiet r => (t.setCall r fun c => { c with cnu := false }, [])
  | .wantClose r => (t.setCall r fun c => { c with needclose := true }, [])
  | .peerClosed r => (t.setCall r fun c => { c with needclose := false, closing := true }, [])
  | .close ourcid cdn => callCloseMember cdn ourcid t
  | .add ourcid => ({ t with calls := newCall ourcid :: t.calls }, [])
  | .assignTid tid => ({ t with tid }, [])
  | .assignCid r cid => (t.setCall r fun c => { c with cid }, [])

def acts : Tunnel → List Act → Tunnel × List Event
  | t, [] => (t, [])
  | t, a :: rest =>
    let (t, out) := act t a
    let (t, more) := acts t rest
    (t, out ++ more)

def ctBit (ver : UInt16) : Bool := ver &&& 0x8000 ≠ 0
def clBit (ver : UInt16) : Bool := ver &&& 0x4000 ≠ 0
def cfBit (ver : UInt16) : Bool := ver &&& 0x0800 ≠ 0
def cVer (ver : UInt16) : UInt16 := ver &&& 0x0007

/-- The checks of the header that come last in `check_control`. -/
def sane (ver : UInt16) : Bool := ctBit ver && clBit ver && cfBit ver && (cVer ver = verL2tp)

/-- Where `check_control` ends. A message it expects is counted before the
checks of its header. -/
inductive Verdict where
  | fine
  | refused
  | unexpected
deriving Repr, DecidableEq

/-- The comparison of `check_control`, in the `int`s the operands become: its
second half never holds. -/
def alreadySeen (ns expected : UInt16) : Bool :=
  let ns : Int := ns.toNat
  let expected : Int := expected.toNat
  (ns < expected && expected - ns < 32768) || (ns > expected && expected - ns > 32768)

def checkControl (t : Tunnel) (r : Ref) (cid : UInt16) (p : Packet) :
    Verdict × Tunnel × List Event :=
  if p.len ≠ p.hdr.length.toNat then (.unexpected, t, [])
  else if p.hdr.ns ≠ t.controlRecSeqNum then
    if alreadySeen p.hdr.ns t.controlRecSeqNum then
      if p.len ≠ 12 then (.unexpected, controlZlb t cid) else (.unexpected, t, [])
    else if t.controlRecSeqNum = 0 && t.tid = -1 then
      (.unexpected, t.setCall r (fun c => { c with needclose := false, closing := true }), [])
    else (.unexpected, t, [])
  else
    let t := { t with controlRecSeqNum := t.controlRecSeqNum + 1 }
    let t := t.setCall r fun c => { c with cnu := true }
    let t := { t with cLr := p.hdr.nr.toNat }
    if t.sanity && !sane p.hdr.ver then (.refused, t, []) else (.fine, t, [])

/-- The branch of `handle_packet` for control packets. `finish` is what
`handle_avps` and `control_finish` do with the message. -/
def handlePacket (t : Tunnel) (r : Ref) (p : Packet) (finish : List Act) :
    Tunnel × List Event :=
  match checkControl t r (t.cidOf r) p with
  | (.unexpected, t, out) => (t, out)
  | (.refused, t, out) => (t, out ++ [.took p.body false])
  | (.fine, t, out) =>
    if p.len = 12 then
      let t := { t with controlRecSeqNum := t.controlRecSeqNum - 1 }
      let t := t.setCall r fun c => { c with cnu := false }
      let t := t.setCall r fun c =>
        if c.needclose && c.closing && decide (c.closeSs.toNat ≤ t.cLr) then
          { c with needclose := false }
        else c
      (t, out)
    else
      let (t, more) := acts t finish
      (t, out ++ .took p.body true :: more)

/-- `handle_special`: a packet for a call the tunnel does not have, checked
with the tunnel's own call in its place. -/
def handleSpecial (t : Tunnel) (p : Packet) : Tunnel × List Event :=
  let back : Tunnel → Tunnel := fun t => t.setCall .self fun c => { c with cid := 0 }
  match checkControl (t.setCall .self fun c => { c with cid := p.hdr.cid }) .self p.hdr.cid p with
  | (.unexpected, t, out) => (back t, out)
  | (.refused, t, out) => (back t, out ++ [.took p.body false])
  | (.fine, t, out) =>
    if p.len = 12 then (back t, out ++ [.took p.body false])
    else
      let (t, zlb) := controlZlb t p.hdr.cid
      (back t, out ++ .took p.body false :: zlb)

/-- What `network_thread` does with one control datagram for this tunnel. -/
def receive (t : Tunnel) (p : Packet) (finish : List Act) : Tunnel × List Event :=
  match t.getCall p.hdr.cid with
  | none => handleSpecial t p
  | some r =>
    let (t, out) := handlePacket t r p finish
    if ((t.call? r).map Call.cnu).getD false then
      let (t, zlb) := controlZlb t (t.cidOf r)
      (t.setCall r fun c => { c with cnu := false }, out ++ zlb)
    else (t, out)

end GameAcc.L2tp
