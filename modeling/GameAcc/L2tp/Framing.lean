import Mathlib.Data.PNat.Basic
import GameAcc.Foundations.Crc
import GameAcc.Foundations.Stuffing
import GameAcc.L2tp.Payload

/-!
The framing between the daemon and `pppd`: `write_packet` and `add_fcs` of
`control.c`, `read_packet` of `call.c` and the loop of `network.c` that empties a
pty. What a `read` of the pty returns and how much a `write` takes is up to the
system and given as lists.
-/

namespace GameAcc.L2tp.Payload

open Memory

def pppFlag : UInt8 := 0x7e
def pppEscape : UInt8 := 0x7d
def pppTrans : UInt8 := 0x20
def pppInitFcs : UInt16 := 0xffff
def pppGoodFcs : UInt16 := 0xf0b8

/-- `ppp_crc16_table`. -/
def fcstab : Array UInt16 :=
  #[0x0000, 0x1189, 0x2312, 0x329b, 0x4624, 0x57ad, 0x6536, 0x74bf, 0x8c48, 0x9dc1, 0xaf5a, 0xbed3,
    0xca6c, 0xdbe5, 0xe97e, 0xf8f7, 0x1081, 0x0108, 0x3393, 0x221a, 0x56a5, 0x472c, 0x75b7, 0x643e,
    0x9cc9, 0x8d40, 0xbfdb, 0xae52, 0xdaed, 0xcb64, 0xf9ff, 0xe876, 0x2102, 0x308b, 0x0210, 0x1399,
    0x6726, 0x76af, 0x4434, 0x55bd, 0xad4a, 0xbcc3, 0x8e58, 0x9fd1, 0xeb6e, 0xfae7, 0xc87c, 0xd9f5,
    0x3183, 0x200a, 0x1291, 0x0318, 0x77a7, 0x662e, 0x54b5, 0x453c, 0xbdcb, 0xac42, 0x9ed9, 0x8f50,
    0xfbef, 0xea66, 0xd8fd, 0xc974, 0x4204, 0x538d, 0x6116, 0x709f, 0x0420, 0x15a9, 0x2732, 0x36bb,
    0xce4c, 0xdfc5, 0xed5e, 0xfcd7, 0x8868, 0x99e1, 0xab7a, 0xbaf3, 0x5285, 0x430c, 0x7197, 0x601e,
    0x14a1, 0x0528, 0x37b3, 0x263a, 0xdecd, 0xcf44, 0xfddf, 0xec56, 0x98e9, 0x8960, 0xbbfb, 0xaa72,
    0x6306, 0x728f, 0x4014, 0x519d, 0x2522, 0x34ab, 0x0630, 0x17b9, 0xef4e, 0xfec7, 0xcc5c, 0xddd5,
    0xa96a, 0xb8e3, 0x8a78, 0x9bf1, 0x7387, 0x620e, 0x5095, 0x411c, 0x35a3, 0x242a, 0x16b1, 0x0738,
    0xffcf, 0xee46, 0xdcdd, 0xcd54, 0xb9eb, 0xa862, 0x9af9, 0x8b70, 0x8408, 0x9581, 0xa71a, 0xb693,
    0xc22c, 0xd3a5, 0xe13e, 0xf0b7, 0x0840, 0x19c9, 0x2b52, 0x3adb, 0x4e64, 0x5fed, 0x6d76, 0x7cff,
    0x9489, 0x8500, 0xb79b, 0xa612, 0xd2ad, 0xc324, 0xf1bf, 0xe036, 0x18c1, 0x0948, 0x3bd3, 0x2a5a,
    0x5ee5, 0x4f6c, 0x7df7, 0x6c7e, 0xa50a, 0xb483, 0x8618, 0x9791, 0xe32e, 0xf2a7, 0xc03c, 0xd1b5,
    0x2942, 0x38cb, 0x0a50, 0x1bd9, 0x6f66, 0x7eef, 0x4c74, 0x5dfd, 0xb58b, 0xa402, 0x9699, 0x8710,
    0xf3af, 0xe226, 0xd0bd, 0xc134, 0x39c3, 0x284a, 0x1ad1, 0x0b58, 0x7fe7, 0x6e6e, 0x5cf5, 0x4d7c,
    0xc60c, 0xd785, 0xe51e, 0xf497, 0x8028, 0x91a1, 0xa33a, 0xb2b3, 0x4a44, 0x5bcd, 0x6956, 0x78df,
    0x0c60, 0x1de9, 0x2f72, 0x3efb, 0xd68d, 0xc704, 0xf59f, 0xe416, 0x90a9, 0x8120, 0xb3bb, 0xa232,
    0x5ac5, 0x4b4c, 0x79d7, 0x685e, 0x1ce1, 0x0d68, 0x3ff3, 0x2e7a, 0xe70e, 0xf687, 0xc41c, 0xd595,
    0xa12a, 0xb0a3, 0x8238, 0x93b1, 0x6b46, 0x7acf, 0x4854, 0x59dd, 0x2d62, 0x3ceb, 0x0e70, 0x1ff9,
    0xf78f, 0xe606, 0xd49d, 0xc514, 0xb1ab, 0xa022, 0x92b9, 0x8330, 0x7bc7, 0x6a4e, 0x58d5, 0x495c,
    0x3de3, 0x2c6a, 0x1ef1, 0x0f78]

/-- `PPP_FCS`. -/
def pppFcs (fcs : UInt16) (c : UInt8) : UInt16 :=
  (fcs >>> 8) ^^^ fcstab.getD ((fcs ^^^ c.toUInt16) &&& 0xff).toNat 0

/-- `add_fcs`. The check goes behind the packet, or to its start where the length
is negative. -/
def addFcs (b : Buffer) : Buffer :=
  let fcs := b.bytes.foldl pppFcs pppInitFcs ^^^ 0xffff
  { b with mem := pokes b.mem (b.start + b.len.toNat) [low fcs, high fcs], len := b.len + 2 }

/-- The bytes `write_packet` escapes. -/
def mustEscape (e : UInt8) : Bool := e < 0x20 || e == pppEscape || e == pppFlag

/-- The loop of `write_packet` that fills `wbuf`, with what is in it already. -/
def convert (wbuf : List UInt8) : List UInt8 → Option (List UInt8)
  | [] => some wbuf
  | e :: rest =>
    if 4096 - 4 ≤ wbuf.length then none
    else if mustEscape e then convert (wbuf ++ [pppEscape, e ^^^ 0x20]) rest
    else convert (wbuf ++ [e]) rest

/-- A `write` took some bytes, was to be tried again, or failed. -/
inductive Wrote where
  | bytes (n : Nat)
  | again
  | fail
deriving Repr, DecidableEq

/-- The loop of `write_packet` that writes: the bytes that got out, and whether it
got to the end. It is none where the results do not say. -/
def writeOut : List UInt8 → List Wrote → Option (List UInt8 × Bool)
  | [], _ => some ([], true)
  | _ :: _, [] => none
  | b :: bs, .bytes n :: ws =>
    (writeOut ((b :: bs).drop n) ws).map (fun out => ((b :: bs).take n ++ out.1, out.2))
  | b :: bs, .again :: ws => writeOut (b :: bs) ws
  | _ :: _, .fail :: _ => some ([], false)

/-- `write_packet` skips the header and the offset that it gives. -/
def skipHdr (e : Host) (b : Buffer) : Buffer :=
  let offset : ℤ := (word e b.mem (b.start + 12)).toNat
  { b with
    start := b.start + (sizeofPayloadHdr + offset), len := b.len - (sizeofPayloadHdr + offset) }

/-- `write_packet` for a frame without flags: the result, the call and the bytes
the pty got. -/
def writePacket (e : Host) (b : Buffer) (c : Call) (ws : List Wrote) :
    Option (ℤ × Call × List UInt8) :=
  if ¬ c.fd then some (-eio, c, [])
  else
    match convert [pppFlag] (addFcs (skipHdr e b)).bytes with
    | none => some (-einval, c, [])
    | some wbuf =>
      (writeOut (wbuf ++ [pppFlag]) ws).map (fun out =>
        if out.2 then (0, c, out.1) else (-eio, { c with needclose := true, fd := false }, out.1))

/-- What a `read` of the pty returned: some bytes, nothing (an end, or one of
`EIO`, `EINTR` and `EAGAIN`), or another error. -/
inductive Read where
  | data (first : UInt8) (more : List UInt8)
  | nothing
  | error (errno : ℕ+)
deriving Repr, DecidableEq

/-- `read_packet` goes on with a byte taken, or returns. -/
inductive Took where
  | on (escape : UInt8) (b : Buffer)
  | out (res : ℤ) (b : Buffer)

/-- The `switch` of `read_packet`. -/
def readByte (escape : UInt8) (b : Buffer) (ch : UInt8) : Took :=
  if ch = pppFlag then
    if escape ≠ 0 then .out (-einval) b
    else if 2 ≤ b.len then .out (b.len - 2) { b with len := b.len - 2 }
    else if b.len = 1 then .out b.len b
    else .on escape b
  else if ch = pppEscape then .on pppTrans b
  else if b.len < b.maxlen then
    .on 0 { b with mem := poke b.mem (b.start + b.len) (ch ^^^ escape), len := b.len + 1 }
  else .out (-einval) b

/-- `rbuf` is used up, or `read_packet` returns and leaves the rest of it. -/
inductive Scan where
  | more (escape : UInt8) (b : Buffer)
  | done (res : ℤ) (b : Buffer) (rbuf : List UInt8)

def scan (escape : UInt8) (b : Buffer) : List UInt8 → Scan
  | [] => .more escape b
  | ch :: rbuf =>
    match readByte escape b ch with
    | .on escape b => scan escape b rbuf
    | .out res b => .done res b (if res < 0 then [] else rbuf)

/-- The loop of `read_packet`; it is none where it still waits for a `read`. -/
def readLoop (errors : Nat) (escape : UInt8) (b : Buffer) (rbuf : List UInt8) :
    List Read → Option (ℤ × Buffer × List UInt8 × List Read)
  | [] =>
    match scan escape b rbuf with
    | .done res b rbuf => some (res, b, rbuf, [])
    | .more _ _ => none
  | r :: reads =>
    match scan escape b rbuf with
    | .done res b rbuf => some (res, b, rbuf, r :: reads)
    | .more escape b =>
      match r with
      | .nothing => some (0, b, [], reads)
      | .error errno =>
        if 10 < errors + 1 then some (-(errno : Nat), b, [], reads)
        else readLoop (errors + 1) escape b [] reads
      | .data first more => readLoop errors escape b (first :: more) reads

/-- `read_packet`. A pending escape is forgotten when it returns. -/
def readPacket (c : Call) (reads : List Read) : Option (ℤ × Call × List Read) :=
  (readLoop 0 0 c.pppBuf c.rbuf reads).map (fun out =>
    (out.1, { c with pppBuf := out.2.1, rbuf := out.2.2.1 }, out.2.2.2))

def Read.size : Read → Nat
  | .data _ more => more.length + 2
  | .nothing => 1
  | .error _ => 1

/-- The bytes and the reads that are left. -/
def work (rbuf : List UInt8) (reads : List Read) : Nat :=
  rbuf.length + (reads.map Read.size).sum

theorem scan_shorter {escape : UInt8} {b b' : Buffer} {rbuf left : List UInt8} {res : ℤ}
    (h : scan escape b rbuf = .done res b' left) : left.length < rbuf.length := by
  induction rbuf generalizing escape b with
  | nil => cases h
  | cons ch rbuf ih =>
    rw [scan] at h
    split at h
    · exact Nat.lt_succ_of_lt (ih h)
    · cases h
      split
      · exact Nat.succ_pos _
      · exact Nat.lt_succ_self _

theorem readLoop_work {errors : Nat} {escape : UInt8} {b b' : Buffer} {rbuf rbuf' : List UInt8}
    {reads reads' : List Read} {res : ℤ}
    (h : readLoop errors escape b rbuf reads = some (res, b', rbuf', reads')) (hres : 0 < res) :
    work rbuf' reads' < work rbuf reads := by
  induction reads generalizing errors escape b rbuf with
  | nil =>
    rw [readLoop] at h
    split at h
    · rename_i hscan
      cases h
      exact Nat.add_lt_add_right (scan_shorter hscan) _
    · cases h
  | cons r reads ih =>
    rw [readLoop] at h
    split at h
    · rename_i hscan
      cases h
      exact Nat.add_lt_add_right (scan_shorter hscan) _
    · split at h
      · cases h
        omega
      · split at h
        · cases h
          have := PNat.pos ‹ℕ+›
          omega
        · have hlater := ih h
          simp only [work, List.map_cons, List.sum_cons, Read.size, List.length_nil] at hlater ⊢
          omega
      · have hlater := ih h
        simp only [work, List.map_cons, List.sum_cons, Read.size, List.length_cons] at hlater ⊢
        omega

def Call.recycled (c : Call) (b : Buffer) : Call := { c with pppBuf := recyclePayload b }

/-- The loop of `network_thread` over one pty: every packet read is sent on, until
there is none or `read_packet` fails. -/
def drain (e : Host) (tid : UInt16) (c : Call) (reads : List Read) :
    Option (List (List UInt8) × Call × List Read) :=
  match _hread : readPacket c reads with
  | none => none
  | some (res, c', reads') =>
    if _hres : 0 < res then
      let out := addPayloadHdr e tid c' c'.pppBuf
      (drain e tid (out.1.recycled out.2) reads').map
        (fun rest => (out.2.bytes :: rest.1, rest.2))
    else if res = 0 then some ([], c', reads')
    else some ([], { c' with needclose := true }, reads')
termination_by work c.rbuf reads
decreasing_by
  obtain ⟨out, hloop, hout⟩ := Option.map_eq_some_iff.mp _hread
  obtain ⟨res, b, rbuf, rest⟩ := out
  cases hout
  exact readLoop_work hloop _hres

theorem drain_sends {e : Host} {tid : UInt16} {c c' : Call} {reads reads' : List Read} {res : ℤ}
    (hread : readPacket c reads = some (res, c', reads')) (hres : 0 < res) :
    drain e tid c reads =
      (drain e tid ((addPayloadHdr e tid c' c'.pppBuf).1.recycled
        (addPayloadHdr e tid c' c'.pppBuf).2) reads').map
        (fun rest => ((addPayloadHdr e tid c' c'.pppBuf).2.bytes :: rest.1, rest.2)) := by
  rw [drain]
  split
  · rename_i hnone
    rw [hread] at hnone
    cases hnone
  · rename_i hsome
    rw [hread] at hsome
    cases hsome
    rw [dif_pos hres]

theorem drain_waits {e : Host} {tid : UInt16} {c c' : Call} {reads reads' : List Read}
    (hread : readPacket c reads = some (0, c', reads')) :
    drain e tid c reads = some ([], c', reads') := by
  rw [drain]
  split
  · rename_i hnone
    rw [hread] at hnone
    cases hnone
  · rename_i hsome
    rw [hread] at hsome
    cases hsome
    rw [dif_neg (by omega), if_pos rfl]

theorem readPacket_nothing {c : Call} {reads : List Read} (h : c.rbuf = []) :
    readPacket c (.nothing :: reads) = some (0, c, reads) := by
  cases c
  cases h
  rfl

theorem drain_one {e : Host} {tid : UInt16} {c c' : Call} {reads : List Read} {res : ℤ}
    (hread : readPacket c reads = some (res, c', [.nothing])) (hres : 0 < res)
    (hrbuf : c'.rbuf = []) :
    drain e tid c reads = some ([(addPayloadHdr e tid c' c'.pppBuf).2.bytes],
      (addPayloadHdr e tid c' c'.pppBuf).1.recycled (addPayloadHdr e tid c' c'.pppBuf).2, []) := by
  have hnext : readPacket ((addPayloadHdr e tid c' c'.pppBuf).1.recycled
      (addPayloadHdr e tid c' c'.pppBuf).2) [.nothing] = some (0, _, []) :=
    readPacket_nothing hrbuf
  rw [drain_sends hread hres, drain_waits hnext]
  rfl

end GameAcc.L2tp.Payload
