import Mathlib.Data.Nat.Find
import GameAcc.Ppp.Fsm

/-!
The options of IPV6CP (`ipv6cp.c`), as the callbacks of its automaton: the
interface identifiers of both ends, and a compression that nobody has defined, so
that a request for it is always rejected. What `magic` returns is drawn from a
given sequence, in which every identifier can be avoided.
-/

namespace GameAcc.Ppp

/-- `eui64_t`. -/
structure Eui64 where
  bytes : List UInt8
  length_bytes : bytes.length = 8
deriving DecidableEq

namespace Eui64

def zero : Eui64 := ⟨List.replicate 8 0, rfl⟩

/-- `eui64_get`. Eight bytes are there whenever it is used. -/
def get (p : List UInt8) : Eui64 := ⟨(p ++ zero.bytes).take 8, by simp [zero]⟩

end Eui64

/-- What `eui64_magic` draws one after the other. -/
structure Draws where
  value : Nat → Eui64
  varied : ∀ (n : Nat) (avoid : Eui64), ∃ m, value (n + m) ≠ .zero ∧ value (n + m) ≠ avoid

/-- `ipv6cp_options`. -/
structure Ipv6cpOptions where
  negIfaceid : Bool
  reqIfaceid : Bool
  acceptLocal : Bool
  acceptRemote : Bool
  optLocal : Bool
  negVj : Bool
  vjProtocol : UInt16
  ourid : Eui64
  hisid : Eui64
deriving DecidableEq

/-- After `memset`. -/
def noOptions : Ipv6cpOptions where
  negIfaceid := false
  reqIfaceid := false
  acceptLocal := false
  acceptRemote := false
  optLocal := false
  negVj := false
  vjProtocol := 0
  ourid := .zero
  hisid := .zero

structure Ipv6cp where
  want : Ipv6cpOptions
  got : Ipv6cpOptions
  allow : Ipv6cpOptions
  his : Ipv6cpOptions
  draws : Draws
  drawn : Nat

def ciIfaceid : UInt8 := 1
def ciCompresstype : UInt8 := 2
def cilenIfaceid : UInt8 := 10
def cilenCompress : UInt8 := 4

/-- The next draw that is neither zero nor `avoid`. -/
def Ipv6cp.draw (c : Ipv6cp) (avoid : Eui64) : Eui64 × Ipv6cp :=
  let m := Nat.find (c.draws.varied c.drawn avoid)
  (c.draws.value (c.drawn + m), { c with drawn := c.drawn + m + 1 })

/-- The loops around `eui64_magic`. -/
def Ipv6cp.redraw (c : Ipv6cp) (id avoid : Eui64) : Eui64 × Ipv6cp :=
  if id = .zero || id = avoid then c.draw avoid else (id, c)

/-- `ipv6cp_resetci`. -/
def ipv6cpResetci (c : Ipv6cp) : Ipv6cp :=
  let want := { c.want with reqIfaceid := c.want.negIfaceid && c.allow.negIfaceid }
  let c := { c with want }
  let c :=
    if want.optLocal then c
    else
      let (ourid, c) := c.draw .zero
      { c with want := { want with ourid } }
  { c with got := { c.want with hisid := .zero } }

def ifaceidOption (id : Eui64) : List UInt8 := [ciIfaceid, cilenIfaceid] ++ id.bytes

def compressOption (protocol : UInt16) : List UInt8 :=
  [ciCompresstype, cilenCompress, UInt8.ofNat (protocol.toNat / 256),
    UInt8.ofNat (protocol.toNat % 256)]

/-- `ipv6cp_cilen` and `ipv6cp_addci`. -/
def ipv6cpAddci (got : Ipv6cpOptions) : List UInt8 :=
  (if got.negIfaceid then ifaceidOption got.ourid else []) ++
    (if got.negVj then compressOption got.vjProtocol else [])

/-- `ACKCIIFACEID`: what follows the option, unless it is a bad one. -/
def ackIfaceid (got : Ipv6cpOptions) (p : List UInt8) : Option (List UInt8) :=
  if !got.negIfaceid then some p
  else if p.length < 10 then none
  else if p.getD 1 0 ≠ cilenIfaceid || p.getD 0 0 ≠ ciIfaceid then none
  else if got.ourid ≠ .get (p.drop 2) then none
  else some (p.drop 10)

/-- `GETSHORT`. -/
def getShort (p : List UInt8) : UInt16 :=
  UInt16.ofNat ((p.getD 0 0).toNat * 256 + (p.getD 1 0).toNat)

/-- `ACKCIVJ`. -/
def ackVj (got : Ipv6cpOptions) (p : List UInt8) : Option (List UInt8) :=
  if !got.negVj then some p
  else if p.length < 4 then none
  else if p.getD 1 0 ≠ cilenCompress || p.getD 0 0 ≠ ciCompresstype then none
  else if getShort (p.drop 2) ≠ got.vjProtocol then none
  else some (p.drop 4)

/-- `ipv6cp_ackci`. -/
def ipv6cpAckci (c : Ipv6cp) (p : List UInt8) : Bool :=
  match (ackIfaceid c.got p).bind (ackVj c.got) with
  | none => false
  | some rest => rest = []

/-- The options seen and those to ask for next, while a Nak is read. -/
structure Naks where
  ci : Ipv6cp
  ifaceid : Bool
  vj : Bool
  next : Ipv6cpOptions

/-- The peer's idea of our identifier, if we let it have one. -/
def Naks.suggest (n : Naks) (id : Eui64) : Naks :=
  if n.ci.got.acceptLocal then
    let (ourid, ci) := n.ci.redraw id n.ci.got.hisid
    { n with ci, next := { n.next with ourid } }
  else n

/-- `NAKCIIFACEID`. -/
def nakIfaceid (n : Naks) (p : List UInt8) (treatAsReject : Bool) : Naks × List UInt8 :=
  if n.ci.got.negIfaceid && p.length ≥ 10 && p.getD 1 0 = cilenIfaceid &&
      p.getD 0 0 = ciIfaceid then
    let n := { n with ifaceid := true }
    if treatAsReject then ({ n with next := { n.next with negIfaceid := false } }, p.drop 10)
    else (n.suggest (.get (p.drop 2)), p.drop 10)
  else (n, p)

/-- `NAKCIVJ`. -/
def nakVj (n : Naks) (p : List UInt8) : Naks × List UInt8 :=
  if n.ci.got.negVj && p.getD 1 0 = cilenCompress && p.length ≥ 4 &&
      p.getD 0 0 = ciCompresstype then
    ({ n with vj := true, next := { n.next with negVj := false } }, p.drop 4)
  else (n, p)

/-- The options that were not asked for, and whether all was well. No option is
shorter than two bytes, so `fuel` may be the length. -/
def nakRest (fuel : Nat) (n : Naks) (p : List UInt8) : Naks × Bool :=
  match fuel, p with
  | _, [] => (n, true)
  | fuel + 1, citype :: cilen :: rest =>
    if cilen < 2 || cilen.toNat > p.length then (n, false)
    else if citype = ciCompresstype then
      if n.ci.got.negVj || n.vj || cilen ≠ cilenCompress then (n, false)
      else nakRest fuel { n with vj := true } (p.drop cilen.toNat)
    else if citype = ciIfaceid then
      if n.ci.got.negIfaceid || n.ifaceid || cilen ≠ cilenIfaceid then (n, false)
      else
        let n := { n with next := { n.next with negIfaceid := true } }.suggest (.get rest)
        nakRest fuel { n with ifaceid := true } (p.drop cilen.toNat)
    else nakRest fuel n (p.drop cilen.toNat)
  | _, _ => (n, false)

/-- `ipv6cp_nakci`. -/
def ipv6cpNakci (state : State) (c : Ipv6cp) (p : List UInt8) (treatAsReject : Bool) :
    Int × Ipv6cp :=
  let (n, p) := nakIfaceid { ci := c, ifaceid := false, vj := false, next := c.got } p
    treatAsReject
  let (n, p) := nakVj n p
  let (n, good) := nakRest p.length n p
  if good then (1, if state ≠ .opened then { n.ci with got := n.next } else n.ci)
  else (0, n.ci)

/-- `ipv6cp_rejci`. -/
def ipv6cpRejci (state : State) (c : Ipv6cp) (p : List UInt8) : Int × Ipv6cp :=
  let first : Option (Ipv6cpOptions × List UInt8) :=
    if c.got.negIfaceid && p.length ≥ 10 && p.getD 1 0 = cilenIfaceid &&
        p.getD 0 0 = ciIfaceid then
      if Eui64.get (p.drop 2) ≠ c.got.ourid then none
      else some ({ c.got with negIfaceid := false }, p.drop 10)
    else some (c.got, p)
  let second := first.bind fun (next, p) =>
    if c.got.negVj && p.getD 1 0 = cilenCompress && p.length ≥ 4 &&
        p.getD 0 0 = ciCompresstype then
      if getShort (p.drop 2) ≠ c.got.vjProtocol then none
      else some ({ next with negVj := false }, p.drop 4)
    else some (next, p)
  match second with
  | some (next, []) => (1, if state ≠ .opened then { c with got := next } else c)
  | _ => (0, c)

/-- What becomes of one option of a request: the verdict on it, and the option as
it would be sent back. -/
def reqOption (c : Ipv6cp) (option : List UInt8) : Verdict × List UInt8 × Ipv6cp :=
  let id := Eui64.get (option.drop 2)
  if option.getD 0 0 ≠ ciIfaceid then (.rej, option, c)
  else if !c.allow.negIfaceid || option.getD 1 0 ≠ cilenIfaceid then (.rej, option, c)
  else if id = .zero && c.got.ourid = .zero then (.rej, option, c)
  else
    let note (c : Ipv6cp) (id : Eui64) : Ipv6cp :=
      { c with his := { c.his with negIfaceid := true, hisid := id } }
    if c.want.hisid ≠ .zero && !c.want.acceptRemote && id ≠ c.want.hisid &&
        c.got.hisid = .zero then
      (.nak, ifaceidOption c.want.hisid,
        note { c with got := { c.got with hisid := c.want.hisid } } c.want.hisid)
    else if id = .zero || id = c.got.ourid then
      let (id, c) := c.redraw (if c.got.hisid = .zero then c.want.hisid else id) c.got.ourid
      (.nak, ifaceidOption id, note { c with got := { c.got with hisid := id } } id)
    else (.ack, option, note c id)

/-- The end of the loop over the options of a request: the reply so far and its
code. A worse verdict drops what was to be sent back before. -/
def collect (reject : Bool) (rc : Verdict) (out : List UInt8) (orc : Verdict)
    (option : List UInt8) : Verdict × List UInt8 :=
  let orc := if orc = .nak && reject then .rej else orc
  match orc, rc with
  | .ack, .ack => (.ack, out ++ option)
  | .ack, rc => (rc, out)
  | .nak, .rej => (.rej, out)
  | .nak, .nak => (.nak, out ++ option)
  | .nak, .ack => (.nak, option)
  | .rej, .rej => (.rej, out ++ option)
  | .rej, _ => (.rej, option)

/-- The loop over the options of a request. -/
def reqOptions (reject : Bool) (fuel : Nat) (c : Ipv6cp) (rc : Verdict) (out p : List UInt8) :
    Verdict × List UInt8 × Ipv6cp :=
  match fuel, p with
  | _, [] => (rc, out, c)
  | fuel + 1, _ :: cilen :: _ =>
    if cilen < 2 || cilen.toNat > p.length then
      let (rc, out) := collect reject rc out .rej p
      (rc, out, c)
    else
      let (orc, option, c) := reqOption c (p.take cilen.toNat)
      let (rc, out) := collect reject rc out orc option
      reqOptions reject fuel c rc out (p.drop cilen.toNat)
  | _, p =>
    let (rc, out) := collect reject rc out .rej p
    (rc, out, c)

/-- `ipv6cp_reqci`. -/
def ipv6cpReqci (c : Ipv6cp) (p : List UInt8) (reject : Bool) :
    Verdict × List UInt8 × Ipv6cp :=
  let (rc, out, c) := reqOptions reject p.length { c with his := noOptions } .ack [] p
  if rc ≠ .rej && !c.his.negIfaceid && c.want.reqIfaceid && !reject then
    if rc = .ack then
      (.nak, ifaceidOption c.want.hisid, { c with want := { c.want with reqIfaceid := false } })
    else (rc, out ++ ifaceidOption c.want.hisid, c)
  else (rc, out, c)

/-- What `ipv6cp_up` does to the options. -/
def ipv6cpUp (c : Ipv6cp) : Ipv6cp :=
  if c.his.negIfaceid then c else { c with his := { c.his with hisid := c.want.hisid } }

/-- `ipv6cp_callbacks`. -/
def ipv6cpCallbacks : Callbacks Ipv6cp where
  resetci := some ipv6cpResetci
  addci := some fun c => ipv6cpAddci c.got
  ackci := some ipv6cpAckci
  nakci := some ipv6cpNakci
  rejci := some ipv6cpRejci
  reqci := some ipv6cpReqci
  up := some ipv6cpUp
  down := some id
  starting := none
  finished := some id
  retransmit := none
  extcode := none

end GameAcc.Ppp
