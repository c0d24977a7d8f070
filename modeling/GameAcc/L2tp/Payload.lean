import GameAcc.Foundations.Memory
import GameAcc.L2tp.Tunnel

/-!
The payload channel of `call.c`, `control.c` and `network.c`: the header a PPP
frame gets on its way out and what becomes of it on the way in. A header may lack
its length, its sequence numbers and its offset; on the way in the missing words
are filled in, and for that the header is moved towards the start of the buffer
it was received in, over itself.

Nothing in the daemon sets the bit for sequence numbers of a call, but another
implementation may send them.
-/

namespace GameAcc.L2tp.Payload

open Memory

def einval : ℤ := 22
def eio : ℤ := 5
def maxRecvSize : ℤ := 4096
def payloadBuf : ℤ := 10
def minPayloadHdrLen : ℤ := 6
def payloadFudge : Nat := 2

/-- `sizeof (struct payload_hdr)`. -/
def sizeofPayloadHdr : ℤ := 14

def ptBit (ver : UInt16) : Bool := ver &&& 0x8000 != 0
def plBit (ver : UInt16) : Bool := ver &&& 0x4000 != 0
def pfBit (ver : UInt16) : Bool := ver &&& 0x0800 != 0
def psBit (ver : UInt16) : Bool := ver &&& 0x0200 != 0
def pVer (ver : UInt16) : UInt16 := ver &&& 0x0007

/-- `struct buffer`, with addresses counted from `rstart`. -/
structure Buffer where
  mem : Memory
  start : ℤ
  len : ℤ
  maxlen : ℤ

def Buffer.bytes (b : Buffer) : List UInt8 := slice b.mem b.start b.len.toNat

/-- What `struct call` keeps for its payload. `rbuf` is what was read from the pty
and not looked at yet. -/
structure Call where
  ourcid : UInt16
  cid : UInt16
  lbit : Bool
  fbit : Bool
  ourfbit : Bool
  dataSeqNum : UInt16
  dataRecSeqNum : UInt16
  pLr : ℤ
  pnu : Bool
  fd : Bool
  needclose : Bool
  rbuf : List UInt8
  pppBuf : Buffer

/-- `new_payload`; the memory holds whatever it held before. -/
def newPayload (mem : Memory) : Buffer :=
  { mem, start := sizeofPayloadHdr, len := 0, maxlen := maxRecvSize }

def recyclePayload (b : Buffer) : Buffer := { b with start := sizeofPayloadHdr, len := 0 }

/-- `new_call`, once its pty is open. -/
def newCall (mem : Memory) (ourcid cid : UInt16) (lbit : Bool) : Call :=
  { ourcid, cid, lbit, fbit := false, ourfbit := false, dataSeqNum := 0, dataRecSeqNum := 0,
    pLr := -1, pnu := false, fd := true, needclose := false, rbuf := [], pppBuf := newPayload mem }

/-- `add_payload_hdr`. The header lacks the offset, and without a length the
fields behind it move up. -/
def addPayloadHdr (e : Host) (tid : UInt16) (c : Call) (b : Buffer) : Call × Buffer :=
  let seq := c.fbit || c.ourfbit
  let start := b.start - sizeofPayloadHdr + 2 + (if seq then 0 else 4) + (if c.lbit then 0 else 2)
  let len := b.len + sizeofPayloadHdr - 2 - (if seq then 0 else 4) - (if c.lbit then 0 else 2)
  let ver := (if c.lbit then lBit else 0) ||| (if c.fbit then fBit else 0) |||
    (if c.ourfbit then fBit else 0) ||| verL2tp
  let m := setWord e b.mem start (htons e ver)
  let m := if c.lbit then setWord e m (start + 2) (htons e (UInt16.ofInt len)) else m
  let p := if c.lbit then start else start - 2
  let m := setWord e m (p + 4) (htons e tid)
  let m := setWord e m (p + 6) (htons e c.cid)
  let m := if seq then
      setWord e (setWord e m (p + 8) (htons e c.dataSeqNum)) (p + 10) (htons e c.dataRecSeqNum)
    else m
  ({ c with dataSeqNum := c.dataSeqNum + 1 }, { b with mem := m, start, len })

/-- `swaps`, for a number of words. -/
def swaps (e : Host) (m : Memory) (a : ℤ) : Nat → Memory
  | 0 => m
  | n + 1 => swaps e (setWord e m a (ntohs e (word e m a))) (a + 2) n

/-- `fix_hdr`. The type bit is looked for in the word as it was received. -/
def fixHdr (e : Host) (m : Memory) (a : ℤ) : Memory :=
  let ver := ntohs e (word e m a)
  if ptBit (word e m a) then swaps e m a 6
  else
    swaps e m a (3 + (if psBit ver then 1 else 0) + (if plBit ver then 1 else 0) +
      (if pfBit ver then 2 else 0))

/-- `extract`: the tunnel and the call a header names. -/
def extract (e : Host) (m : Memory) (a : ℤ) : UInt16 × UInt16 :=
  if plBit (word e m a) then (word e m (a + 4), word e m (a + 6))
  else (word e m (a + 2), word e m (a + 4))

def checkPayload (e : Host) (sanity : Bool) (b : Buffer) : ℤ :=
  let ver := word e b.mem b.start
  let ehlen := minPayloadHdrLen + (if plBit ver then 2 else 0) + (if pfBit ver then 4 else 0) +
    (if psBit ver then 2 else 0)
  let length : ℤ := (word e b.mem (b.start + 2)).toNat
  if b.len < minPayloadHdrLen then -einval
  else if sanity then
    if ptBit ver then -einval
    else if pVer ver ≠ verL2tp then -einval
    else if b.len < ehlen ∧ ¬ plBit ver then -einval
    else if b.len ≠ length ∧ plBit ver then -einval
    else 0
  else 0

/-- The part of `expand_payload` that fills a header in. The words are written one
after another into the memory they are read from. -/
def fillHdr (e : Host) (b : Buffer) (c : Call) : Option Buffer :=
  let h := b.start
  let ver := word e b.mem h
  let ehlen : ℤ := (if plBit ver then 0 else 2) + (if pfBit ver then 0 else 4) +
    (if psBit ver then 0 else 2)
  if ehlen = 0 then some b
  else
    let n := h - ehlen
    if n < 0 then none
    else
      let m := setWord e b.mem n (word e b.mem h)
      let r := if plBit (word e m n) then h + 2 else h
      let m := if plBit (word e m n) then setWord e m (n + 2) (word e m r)
        else setWord e m (n + 2) (UInt16.ofInt (b.len + ehlen))
      let m := setWord e m (n + 4) (word e m (r + 2))
      let m := setWord e m (n + 6) (word e m (r + 4))
      let f := pfBit (word e m n)
      let m := if f then setWord e m (n + 8) (word e m (r + 6))
        else setWord e m (n + 10) c.dataSeqNum
      let m := if f then setWord e m (n + 10) (word e m (r + 8))
        else setWord e m (n + 8) c.dataRecSeqNum
      let r := if f then r + 8 else r + 4
      let m := if psBit (word e m n) then setWord e m (n + 12) (word e m (r + 2))
        else setWord e m (n + 12) 0
      some { b with mem := m, start := n, len := b.len + ehlen }

/-- The part of `expand_payload` that looks at the sequence numbers. The differences
are of `int`s, so the second one is never large. -/
def checkSequence (c : Call) (ns nr : UInt16) : Option Call :=
  let expected : ℤ := c.dataRecSeqNum.toNat
  let seen : ℤ := ns.toNat
  if ns ≠ c.dataSeqNum then
    if (seen < expected ∧ expected - seen < 32768) ∨
        (expected < seen ∧ 32768 < expected - seen) then none
    else if seen ≤ expected + payloadFudge then some { c with dataRecSeqNum := ns, pLr := nr.toNat }
    else none
  else some { c with dataRecSeqNum := c.dataRecSeqNum + 1, pnu := true, pLr := nr.toNat }

def expandPayload (e : Host) (b : Buffer) (c : Call) : Option (Buffer × Call) := do
  let b ← fillHdr e b c
  let c ← checkSequence c (word e b.mem (b.start + 8)) (word e b.mem (b.start + 10))
  return (b, c)

end GameAcc.L2tp.Payload
