import GameAcc.L2tp.PtyWrites

/-!
A datagram with a payload, from `network_thread` to the pty of its call. The
buffer it is received in keeps the bytes of earlier datagrams. Control messages
are not dealt with here, nor is a payload without a tunnel or a call: it goes to a
tunnel's own call, which has no pty.
-/

namespace GameAcc.L2tp.Payload

open Memory FirstMatch

/-- What `struct tunnel` has to do with payloads. -/
structure Tunnel where
  ourtid : UInt16
  sanity : Bool
  calls : List Call

/-- The buffer after `recvmsg`. What does not fit is cut off. -/
def recvBuffer (stale : Memory) (d : List UInt8) : Buffer :=
  let kept := d.take (maxRecvSize - payloadBuf).toNat
  { mem := pokes stale payloadBuf kept, start := payloadBuf, len := kept.length,
    maxlen := maxRecvSize }

/-- `handle_packet` for a payload. -/
def handlePacket (e : Host) (sanity : Bool) (b : Buffer) (c : Call) (ws : List Wrote) :
    Option (ℤ × Call × List UInt8) :=
  if checkPayload e sanity b ≠ 0 then some (-einval, c, [])
  else
    match expandPayload e b c with
    | none => some (-einval, c, [])
    | some (b, c) =>
      if sizeofPayloadHdr < b.len then writePacket e b c ws
      else if b.len = sizeofPayloadHdr then
        some (0, { c with dataRecSeqNum := c.dataRecSeqNum - 1 }, [])
      else some (-einval, c, [])

/-- `get_call`: only the first tunnel of the number is searched. -/
def getCall (ts : List Tunnel) (tunnel call : UInt16) : Option (Bool × Call) :=
  if tunnel = 0 ∨ call = 0 then none
  else
    (ts.find? (·.ourtid = tunnel)).bind
      (fun t => (t.calls.find? (·.ourcid = call)).map (fun c => (t.sanity, c)))

def setCall (ts : List Tunnel) (tunnel call : UInt16) (c : Call) : List Tunnel :=
  updateFirst (·.ourtid = tunnel)
    (fun t => { t with calls := updateFirst (·.ourcid = call) (fun _ => c) t.calls }) ts

/-- A datagram arrives: what the buffer held before, the datagram, and how the
writes to the pty will go. -/
structure Arrival where
  stale : Memory
  datagram : List UInt8
  writes : List Wrote

/-- The buffer once its header is in the host's order. -/
def Arrival.fixed (e : Host) (x : Arrival) : Buffer :=
  let b := recvBuffer x.stale x.datagram
  { b with mem := fixHdr e b.mem b.start }

/-- The tunnel and the call an arrival is for. -/
def Arrival.address (e : Host) (x : Arrival) : UInt16 × UInt16 :=
  extract e (x.fixed e).mem (x.fixed e).start

/-- A round of `network_thread` for a datagram, with the bytes that a pty got. -/
def receive (e : Host) (ts : List Tunnel) (x : Arrival) : Option (List Tunnel × List UInt8) :=
  let b := x.fixed e
  if b.len < minPayloadHdrLen ∨ ptBit (word e b.mem b.start) then some (ts, [])
  else
    match getCall ts (x.address e).1 (x.address e).2 with
    | none => some (ts, [])
    | some (sanity, c) =>
      (handlePacket e sanity b c x.writes).map (fun out =>
        (setCall ts (x.address e).1 (x.address e).2 out.2.1, out.2.2))

/-- Many rounds, with what each wrote and for whom. -/
def receiveAll (e : Host) :
    List Tunnel → List Arrival → Option (List Tunnel × List ((UInt16 × UInt16) × List UInt8))
  | ts, [] => some (ts, [])
  | ts, x :: xs =>
    (receive e ts x).bind (fun out =>
      (receiveAll e out.1 xs).map (fun rest => (rest.1, (x.address e, out.2) :: rest.2)))

theorem getCall_some {ts : List Tunnel} {tunnel call : UInt16} {sanity : Bool} {c : Call}
    (h : getCall ts tunnel call = some (sanity, c)) :
    ∃ t, ts.find? (·.ourtid = tunnel) = some t ∧ t.calls.find? (·.ourcid = call) = some c ∧
      t.sanity = sanity ∧ c.ourcid = call := by
  rw [getCall] at h
  split at h
  · cases h
  · obtain ⟨t, ht, hcall⟩ := Option.bind_eq_some_iff.mp h
    obtain ⟨c', hc, hout⟩ := Option.map_eq_some_iff.mp hcall
    cases hout
    exact ⟨t, ht, hc, rfl, by simpa using List.find?_some hc⟩

/-- The call that was looked up is replaced. -/
theorem getCall_setCall_self {ts : List Tunnel} {tunnel call : UInt16} {sanity : Bool}
    {c c' : Call} (h : getCall ts tunnel call = some (sanity, c)) (hid : c'.ourcid = c.ourcid) :
    getCall (setCall ts tunnel call c') tunnel call = some (sanity, c') := by
  obtain ⟨t, ht, hc, hsanity, hourcid⟩ := getCall_some h
  rw [getCall] at h ⊢
  split at h
  · cases h
  · rename_i hids
    rw [if_neg hids, setCall, find?_updateFirst_self ht (by simpa using List.find?_some ht)]
    simp only [Option.bind_some]
    rw [find?_updateFirst_self hc (by simp [hid, hourcid])]
    simp [hsanity]

/-- Every other call stays as it is. -/
theorem getCall_setCall_other {ts : List Tunnel} {tunnel call tunnel' call' : UInt16} {c : Call}
    (hid : c.ourcid = call) (h : (tunnel', call') ≠ (tunnel, call)) :
    getCall (setCall ts tunnel call c) tunnel' call' = getCall ts tunnel' call' := by
  rw [getCall, getCall]
  split
  · rfl
  · by_cases htunnel : tunnel' = tunnel
    · subst htunnel
      have hcall : call' ≠ call := fun heq => h (by rw [heq])
      cases ht : ts.find? (·.ourtid = tunnel') with
      | none =>
        rw [setCall, updateFirst_of_none ht, ht]
      | some t =>
        rw [setCall, find?_updateFirst_self ht (by simpa using List.find?_some ht)]
        simp only [Option.bind_some]
        rw [find?_updateFirst_other]
        · intro x hx
          simp [hid, hcall.symm]
        · intro x hx
          simp only [decide_eq_true_eq] at hx
          simp [hx, hcall.symm]
    · rw [setCall, find?_updateFirst_other]
      · intro x hx
        simp only [decide_eq_true_eq] at hx
        simp [hx, Ne.symm htunnel]
      · intro x hx
        simp only [decide_eq_true_eq] at hx
        simp [hx, Ne.symm htunnel]

theorem missing_le (ver : UInt16) : 0 ≤ missing ver ∧ missing ver ≤ 8 := by
  unfold missing
  split <;> split <;> split <;> omega

/-- The bytes of a datagram that fit the buffer. -/
def kept (d : List UInt8) : List UInt8 := d.take (maxRecvSize - payloadBuf).toNat

/-- The header a datagram has, read word by word. -/
def Arrival.plainHdr (x : Arrival) (c : Call) : PayloadHdr :=
  Payload.plainHdr (recvBuffer x.stale x.datagram).mem payloadBuf (kept x.datagram).length c

theorem word_fixed {e : Host} {x : Arrival}
    (hdata : ptBit (word e (recvBuffer x.stale x.datagram).mem payloadBuf) = false) {i : ℤ}
    (heven : (i - payloadBuf) % 2 = 0) (hlow : payloadBuf ≤ i)
    (hhigh : i + missing (net (recvBuffer x.stale x.datagram).mem payloadBuf) < payloadBuf + 14) :
    word e (x.fixed e).mem i = net (recvBuffer x.stale x.datagram).mem i :=
  word_fixHdr hdata heven hlow hhigh

/-- A buffer whose header was filled in: the header that reading it word by word
gives, and around it every byte as it was received. -/
structure Expanded (e : Host) (x : Arrival) (c : Call) (b : Buffer) : Prop where
  hdr : hdrAt e b.mem b.start = x.plainHdr c
  start : b.start = payloadBuf - missing (x.plainHdr c).ver
  len : b.len = (kept x.datagram).length + missing (x.plainHdr c).ver
  outside : ∀ i, i < b.start ∨ b.start + 14 ≤ i →
    b.mem i = (recvBuffer x.stale x.datagram).mem i

/-- There is always room to fill the header in, and the sequence numbers alone decide
whether the payload is accepted. -/
theorem expandPayload_eq {e : Host} {x : Arrival} (c : Call)
    (hdata : ptBit (word e (recvBuffer x.stale x.datagram).mem payloadBuf) = false) :
    ∃ b, Expanded e x c b ∧ expandPayload e (x.fixed e) c =
      (checkSequence c (x.plainHdr c).ns (x.plainHdr c).nr).map (fun c' => (b, c')) := by
  have hroom : missing (net (recvBuffer x.stale x.datagram).mem payloadBuf) ≤ payloadBuf := by
    have := (missing_le (net (recvBuffer x.stale x.datagram).mem payloadBuf)).2
    rw [payloadBuf] at this ⊢
    omega
  have hfilled : ∃ b, fillHdr e (x.fixed e) c = some b ∧ Expanded e x c b := by
    obtain ⟨b, hfill, hstart, hlen, hhdr, hout⟩ := fillHdr_plain c hdata hroom
    exact ⟨b, hfill, hhdr, hstart, hlen, hout⟩
  obtain ⟨b, hfill, hb⟩ := hfilled
  refine ⟨b, hb, ?_⟩
  have hns : word e b.mem (b.start + 8) = (x.plainHdr c).ns := congrArg PayloadHdr.ns hb.hdr
  have hnr : word e b.mem (b.start + 10) = (x.plainHdr c).nr := congrArg PayloadHdr.nr hb.hdr
  rw [expandPayload, hfill]
  simp only [Option.bind_eq_bind, Option.bind_some, hns, hnr]
  cases checkSequence c (x.plainHdr c).ns (x.plainHdr c).nr <;> rfl

namespace Expanded

variable {e : Host} {x : Arrival} {c : Call} {b : Buffer} (h : Expanded e x c b)
include h

theorem offset : word e b.mem (b.start + 12) = (x.plainHdr c).oSize :=
  congrArg PayloadHdr.oSize h.hdr

theorem skipHdr_start : (skipHdr e b).start =
    payloadBuf + 14 - missing (x.plainHdr c).ver + (x.plainHdr c).oSize.toNat := by
  have hstart := h.start
  simp only [skipHdr, h.offset, sizeofPayloadHdr]
  omega

theorem skipHdr_len : (skipHdr e b).len = (kept x.datagram).length -
    (14 - missing (x.plainHdr c).ver + (x.plainHdr c).oSize.toNat) := by
  have hlen := h.len
  simp only [skipHdr, h.offset, sizeofPayloadHdr]
  omega

/-- The packet is what lies behind the header and the offset. -/
theorem skipHdr_bytes {k : Nat}
    (hk : (k : ℤ) = 14 - missing (x.plainHdr c).ver + (x.plainHdr c).oSize.toNat)
    (hfits : k ≤ (kept x.datagram).length) :
    (skipHdr e b).bytes = (kept x.datagram).drop k := by
  have hstart := h.start
  have hmissing := missing_le (x.plainHdr c).ver
  have hleft : (skipHdr e b).len.toNat = (kept x.datagram).length - k := by
    rw [h.skipHdr_len]
    omega
  have hplace : (skipHdr e b).start = payloadBuf + k := by
    rw [h.skipHdr_start]
    omega
  have hsame : slice (skipHdr e b).mem (payloadBuf + k) ((kept x.datagram).length - k) =
      slice (recvBuffer x.stale x.datagram).mem (payloadBuf + k)
        ((kept x.datagram).length - k) := by
    apply slice_congr
    intro i hlow _
    exact h.outside i (.inr (by omega))
  rw [Buffer.bytes, hleft, hplace, hsame]
  have htaken := slice_pokes_take x.stale payloadBuf (kept x.datagram) (k := k)
    (n := (kept x.datagram).length - k) (by omega)
  rw [List.take_of_length_le (by rw [List.length_drop])] at htaken
  exact htaken

end Expanded

/-- Whatever a payload datagram is and whatever the buffer held, the header that is
filled in over itself is the one read word by word, nothing else in the buffer
changes, and what goes on to the pty is what lies behind the header and the offset. -/
theorem payload_of_datagram {e : Host} {x : Arrival} (c : Call)
    (hdata : ptBit (word e (recvBuffer x.stale x.datagram).mem payloadBuf) = false) :
    ∃ b, expandPayload e (x.fixed e) c =
        (checkSequence c (x.plainHdr c).ns (x.plainHdr c).nr).map (fun c' => (b, c')) ∧
      hdrAt e b.mem b.start = x.plainHdr c ∧ 0 ≤ b.start ∧
      (∀ i, i < b.start ∨ b.start + 14 ≤ i →
        b.mem i = (recvBuffer x.stale x.datagram).mem i) ∧
      ∀ k : Nat, (k : ℤ) = 14 - missing (x.plainHdr c).ver + (x.plainHdr c).oSize.toNat →
        k ≤ (kept x.datagram).length → (skipHdr e b).bytes = (kept x.datagram).drop k := by
  obtain ⟨b, hb, hexpand⟩ := expandPayload_eq c hdata
  refine ⟨b, hexpand, hb.hdr, ?_, hb.outside, fun k hk hfits => hb.skipHdr_bytes hk hfits⟩
  have := (missing_le (x.plainHdr c).ver).2
  rw [hb.start, payloadBuf]
  omega

/-- A datagram with an offset that leads out of it. -/
def offsetArrival : Arrival :=
  { stale := fun _ => 0, datagram := [0x02, 0x02, 0, 7, 0, 9, 0x20, 0, 0xff, 3, 0x21],
    writes := [] }

theorem payload_of_datagram_offset : ∃ b,
    expandPayload .little (offsetArrival.fixed .little) (newCall (fun _ => 0) 9 5 true) =
        (checkSequence (newCall (fun _ => 0) 9 5 true)
          (offsetArrival.plainHdr (newCall (fun _ => 0) 9 5 true)).ns
          (offsetArrival.plainHdr (newCall (fun _ => 0) 9 5 true)).nr).map (fun c' => (b, c')) ∧
      hdrAt .little b.mem b.start = offsetArrival.plainHdr (newCall (fun _ => 0) 9 5 true) ∧
      0 ≤ b.start := by
  obtain ⟨b, hexpand, hhdr, hstart, -⟩ := payload_of_datagram (e := .little) (x := offsetArrival)
    (newCall (fun _ => 0) 9 5 true) (by decide +kernel)
  exact ⟨b, hexpand, hhdr, hstart⟩

/-- How far the packet is from the start of its datagram. -/
def Arrival.behind (x : Arrival) (c : Call) : ℤ :=
  14 - missing (x.plainHdr c).ver + (x.plainHdr c).oSize.toNat

/-- Where `add_fcs` puts the check of a packet. -/
def Arrival.checkPlace (x : Arrival) (c : Call) : ℤ :=
  payloadBuf + max (x.behind c) (kept x.datagram).length

theorem Expanded.addFcs_mem {e : Host} {x : Arrival} {c : Call} {b : Buffer}
    (h : Expanded e x c b) : ∃ fcs, checked (skipHdr e b).bytes =
        (skipHdr e b).bytes ++ [low fcs, high fcs] ∧
      (addFcs (skipHdr e b)).mem = pokes b.mem (x.checkPlace c) [low fcs, high fcs] := by
  refine ⟨_, rfl, ?_⟩
  have hplace : (skipHdr e b).start + (skipHdr e b).len.toNat = x.checkPlace c := by
    rw [h.skipHdr_start, h.skipHdr_len, Arrival.checkPlace, Arrival.behind]
    omega
  rw [← hplace]
  rfl

section Own

variable {e : Host} {tid cid : UInt16} {lbit : Bool} {ns nr : UInt16} {p : List UInt8} {x : Arrival}

theorem net_pokes_later (m : Memory) (a : ℤ) (v : UInt16) (rest : List UInt8) {i : ℤ}
    {w : UInt16} (h : net (pokes (pokes m a [high v, low v]) (a + 2) rest) i = w) :
    net (pokes m a (high v :: low v :: rest)) i = w := by
  rw [← h, pokes, pokes, pokes, pokes, pokes, Int.add_assoc]
  rfl

theorem kept_own (hx : x.datagram = header tid cid lbit false ns nr p.length ++ p)
    (hp : p.length ≤ 2044) : kept x.datagram = x.datagram := by
  have hhdr := length_header tid cid lbit false ns nr p.length
  have hle : hdrLen lbit false ≤ 8 := by cases lbit <;> decide
  apply List.take_of_length_le
  rw [hx, List.length_append, hhdr, maxRecvSize, payloadBuf]
  omega

/-- The words of a datagram of this daemon's. -/
theorem net_own (hx : x.datagram = header tid cid lbit false ns nr p.length ++ p)
    (hp : p.length ≤ 2044) :
    net (recvBuffer x.stale x.datagram).mem payloadBuf = hdrVer lbit false ∧
      (lbit = true → net (recvBuffer x.stale x.datagram).mem (payloadBuf + 2) =
        UInt16.ofNat (p.length + 8)) ∧
      net (recvBuffer x.stale x.datagram).mem (payloadBuf + (if lbit then 4 else 2)) = tid ∧
      net (recvBuffer x.stale x.datagram).mem (payloadBuf + (if lbit then 6 else 4)) = cid := by
  have hmem : (recvBuffer x.stale x.datagram).mem =
      pokes x.stale payloadBuf (header tid cid lbit false ns nr p.length ++ p) := by
    rw [← hx]
    exact congrArg (pokes x.stale payloadBuf) (kept_own hx hp)
  rw [hmem]
  cases lbit with
  | false =>
    refine ⟨net_pokes _ _ _ rfl, (fun h => by cases h), ?_, ?_⟩
    · exact net_pokes_later _ _ _ _ (net_pokes _ _ _ rfl)
    · exact net_pokes_later _ _ _ _ (net_pokes_later _ _ _ _ (net_pokes _ _ _ rfl))
  | true =>
    refine ⟨net_pokes _ _ _ rfl, fun _ => ?_, ?_, ?_⟩
    · exact net_pokes_later _ _ _ _ (net_pokes _ _ _ rfl)
    · exact net_pokes_later _ _ _ _ (net_pokes_later _ _ _ _ (net_pokes _ _ _ rfl))
    · exact net_pokes_later _ _ _ _ (net_pokes_later _ _ _ _
        (net_pokes_later _ _ _ _ (net_pokes _ _ _ rfl)))

theorem hdrVer_bits (e : Host) (lbit : Bool) :
    ptBit (hdrVer lbit false) = false ∧ ptBit (ntohs e (hdrVer lbit false)) = false ∧
      plBit (hdrVer lbit false) = lbit ∧ pfBit (hdrVer lbit false) = false ∧
      psBit (hdrVer lbit false) = false ∧ pVer (hdrVer lbit false) = verL2tp := by
  cases e <;> cases lbit <;> decide

/-- The type bit of a header is where every host looks for it. -/
theorem ptBit_own (hx : x.datagram = header tid cid lbit false ns nr p.length ++ p)
    (hp : p.length ≤ 2044) :
    ptBit (word e (recvBuffer x.stale x.datagram).mem payloadBuf) = false := by
  have hword : word e (recvBuffer x.stale x.datagram).mem payloadBuf =
      ntohs e (hdrVer lbit false) := by
    rw [← (net_own hx hp).1, ← ntohs_word e, ntohs_ntohs]
  rw [hword]
  exact (hdrVer_bits e lbit).2.1

theorem missing_own : missing (hdrVer lbit false) = if lbit then 6 else 8 := by
  cases lbit <;> decide

/-- The words of the header once they are in the host's order. -/
theorem word_own (hx : x.datagram = header tid cid lbit false ns nr p.length ++ p)
    (hp : p.length ≤ 2044) :
    word e (x.fixed e).mem payloadBuf = hdrVer lbit false ∧
      (lbit = true → word e (x.fixed e).mem (payloadBuf + 2) = UInt16.ofNat (p.length + 8)) ∧
      x.address e = (tid, cid) := by
  have hdata := ptBit_own (e := e) hx hp
  obtain ⟨hver, hlength, htid, hcid⟩ := net_own hx hp
  have hmissing : missing (hdrVer lbit false) = if lbit then 6 else 8 := missing_own
  rw [← hver] at hmissing
  have hword {i : ℤ} := word_fixed (i := i) hdata
  have hfirst : word e (x.fixed e).mem payloadBuf = hdrVer lbit false := by
    rw [← hver]
    exact hword (by omega) (le_refl _) (by rw [hmissing]; split <;> omega)
  refine ⟨hfirst, fun hl => ?_, ?_⟩
  · rw [← hlength hl]
    exact hword (by omega) (by omega) (by rw [hmissing, hl, if_pos rfl]; omega)
  · have haddress : x.address e =
        if plBit (word e (x.fixed e).mem payloadBuf) then
          (word e (x.fixed e).mem (payloadBuf + 4), word e (x.fixed e).mem (payloadBuf + 6))
        else (word e (x.fixed e).mem (payloadBuf + 2), word e (x.fixed e).mem (payloadBuf + 4)) :=
      rfl
    rw [haddress, hfirst, (hdrVer_bits e lbit).2.2.1]
    cases lbit with
    | true =>
      rw [if_pos rfl] at hmissing htid hcid ⊢
      rw [hword (by omega) (by omega) (by omega), hword (by omega) (by omega) (by omega), htid,
        hcid]
    | false =>
      simp only [Bool.false_eq_true, if_false] at hmissing htid hcid ⊢
      rw [hword (by omega) (by omega) (by omega), hword (by omega) (by omega) (by omega), htid,
        hcid]

theorem len_own (hx : x.datagram = header tid cid lbit false ns nr p.length ++ p)
    (hp : p.length ≤ 2044) : (x.fixed e).len = p.length + hdrLen lbit false := by
  have hlen : (x.fixed e).len = ((kept x.datagram).length : ℤ) := rfl
  rw [hlen, kept_own hx hp, hx, List.length_append, length_header]
  omega

theorem checkPayload_own (hx : x.datagram = header tid cid lbit false ns nr p.length ++ p)
    (hp : p.length ≤ 2044) (sanity : Bool) : checkPayload e sanity (x.fixed e) = 0 := by
  obtain ⟨hver, hlength, -⟩ := word_own (e := e) hx hp
  have hlen := len_own (e := e) hx hp
  have hstart : (x.fixed e).start = payloadBuf := rfl
  obtain ⟨hpt, -, hpl, hpf, hps, hpv⟩ := hdrVer_bits e lbit
  unfold checkPayload
  simp only [hstart, hver, hpt, hpl, hpf, hps, hpv, hlen, minPayloadHdrLen, hdrLen]
  cases lbit with
  | false =>
    have hlong : ¬ (p.length : ℤ) < 0 := by omega
    simp [hlong]
  | true =>
    have hfits : (UInt16.ofNat (p.length + 8)).toNat = p.length + 8 := by
      rw [UInt16.toNat_ofNat']
      omega
    rw [hlength rfl, hfits]
    have hlong : ¬ (p.length : ℤ) + 8 < 6 := by omega
    simp [hlong]

/-- A packet without sequence numbers has the number that is expected. -/
theorem checkSequence_expected (c : Call) (nr : UInt16) :
    ∃ expected pnu, checkSequence c c.dataRecSeqNum nr =
      some { c with dataRecSeqNum := expected, pLr := nr.toNat, pnu } := by
  rw [checkSequence]
  by_cases heq : c.dataRecSeqNum ≠ c.dataSeqNum
  · refine ⟨c.dataRecSeqNum, c.pnu, ?_⟩
    rw [if_pos heq, if_neg (by omega), if_pos (by omega)]
  · refine ⟨c.dataRecSeqNum + 1, true, ?_⟩
    rw [if_neg heq]

theorem plainHdr_own (hx : x.datagram = header tid cid lbit false ns nr p.length ++ p)
    (hp : p.length ≤ 2044) (c : Call) :
    (x.plainHdr c).ver = hdrVer lbit false ∧ (x.plainHdr c).ns = c.dataRecSeqNum ∧
      (x.plainHdr c).oSize = 0 := by
  have hver := (net_own hx hp).1
  obtain ⟨-, -, -, hpf, hps, -⟩ := hdrVer_bits .little lbit
  refine ⟨hver, ?_, ?_⟩
  · simp only [Arrival.plainHdr, plainHdr, hver, hpf, Bool.false_eq_true, if_false]
  · simp only [Arrival.plainHdr, plainHdr, hver, hps, Bool.false_eq_true, if_false]

theorem handlePacket_own (hx : x.datagram = header tid cid lbit false ns nr p.length ++ p)
    (hp : p.length ≤ 2044) (hne : p ≠ []) {sanity : Bool} {c c' : Call} {res : ℤ}
    {out : List UInt8} (hopen : c.fd = true)
    (hhandle : handlePacket e sanity (x.fixed e) c x.writes = some (res, c', out)) :
    ∃ expected pLr pnu,
      Written x.writes { c with dataRecSeqNum := expected, pLr, pnu } p res c' out := by
  obtain ⟨b, hb, hexpand⟩ := expandPayload_eq c (ptBit_own (e := e) hx hp)
  obtain ⟨hver, hns, hoffset⟩ := plainHdr_own hx hp c
  obtain ⟨expected, pnu, hsequence⟩ := checkSequence_expected c (x.plainHdr c).nr
  rw [hns, hsequence, Option.map_some] at hexpand
  refine ⟨expected, (x.plainHdr c).nr.toNat, pnu, ?_⟩
  have hkept := kept_own hx hp
  have hpos := List.length_pos_iff.mpr hne
  have hsize : (kept x.datagram).length = hdrLen lbit false + p.length := by
    rw [hkept, hx, List.length_append, length_header]
  have hk : (hdrLen lbit false : ℤ) =
      14 - missing (x.plainHdr c).ver + (x.plainHdr c).oSize.toNat := by
    rw [hver, hoffset, missing_own]
    cases lbit <;> rfl
  have hbytes := hb.skipHdr_bytes hk (by omega)
  have hleft := hb.skipHdr_len
  rw [hkept, hx, List.drop_left' (length_header ..)] at hbytes
  have hlong : sizeofPayloadHdr < b.len := by
    rw [hb.len, hver, missing_own, hsize, sizeofPayloadHdr]
    cases lbit <;> simp [hdrLen] <;> omega
  rw [handlePacket, if_neg (not_not_intro (checkPayload_own hx hp sanity)), hexpand] at hhandle
  simp only [hlong, if_true] at hhandle
  exact writePacket_written hopen (by rw [hleft, ← hk]; omega) hbytes hhandle

end Own

end GameAcc.L2tp.Payload
