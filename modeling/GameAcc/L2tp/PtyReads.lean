import GameAcc.L2tp.Framing
import GameAcc.L2tp.PayloadHdr

/-!
The daemon reads a pty in pieces, as the system hands them out. Whatever the
pieces are, the packets it sends are the frames of the bytes it has read, each
without its check; but an escape is forgotten where nothing is there to be read
after it.
-/

namespace GameAcc.L2tp.Payload

open Memory Stuffing

theorem xor_trans_trans (a : UInt8) : a ^^^ pppTrans ^^^ pppTrans = a := by
  rw [UInt8.xor_assoc, UInt8.xor_self, UInt8.xor_zero]

/-- The framing of PPP on an asynchronous line. -/
def pppStuffing : Stuffing UInt8 where
  flag := pppFlag
  escape := pppEscape
  trans := (· ^^^ pppTrans)
  trans_trans := xor_trans_trans
  flag_ne_escape := by decide

/-- The room of `ppp_buf`, as `read_packet` sees it. -/
abbrev room : Nat := 4096

/-- What the reads of a pty amount to. -/
def symbols : List Read → List (Symbol UInt8)
  | [] => []
  | .data first more :: reads => (first :: more).map .put ++ symbols reads
  | .nothing :: reads => .gap :: symbols reads
  | .error _ :: reads => symbols reads

/-- The packet `read_packet` makes of what lies between two flags. -/
def packet (f : List UInt8) : List UInt8 := if 2 ≤ f.length then f.take (f.length - 2) else f

/-- The packets that are sent: an empty one is not. -/
def packets (fs : List (List UInt8)) : List (List UInt8) := (fs.map packet).filter (· ≠ [])

@[simp] theorem packets_append (fs gs : List (List UInt8)) :
    packets (fs ++ gs) = packets fs ++ packets gs := by
  simp [packets]

/-- The buffer holds what the reader holds. -/
structure Holds (b : Buffer) (held : List UInt8) : Prop where
  start : b.start = sizeofPayloadHdr
  maxlen : b.maxlen = maxRecvSize
  len : b.len = held.length
  bytes : slice b.mem b.start held.length = held

theorem Holds.fresh (b : Buffer) (hmaxlen : b.maxlen = maxRecvSize) :
    Holds (recyclePayload b) [] :=
  ⟨rfl, hmaxlen, rfl, rfl⟩

theorem Holds.bytes_eq {b : Buffer} {held : List UInt8} (h : Holds b held) : b.bytes = held := by
  rw [Buffer.bytes, h.len]
  exact h.bytes

theorem Holds.push {b : Buffer} {held : List UInt8} (h : Holds b held) (a : UInt8) :
    Holds { b with mem := poke b.mem (b.start + b.len) a, len := b.len + 1 } (held ++ [a]) := by
  refine ⟨h.start, h.maxlen, by simp [h.len], ?_⟩
  have hkept : slice (poke b.mem (b.start + b.len) a) b.start held.length = held := by
    rw [← h.bytes]
    simp only [length_slice]
    change slice (pokes b.mem (b.start + b.len) [a]) b.start held.length = _
    exact slice_pokes_outside b.mem (by rw [h.len]; omega)
  rw [List.length_append, List.length_singleton, slice_succ]
  change slice (poke b.mem (b.start + b.len) a) b.start held.length ++
    [poke b.mem (b.start + b.len) a (b.start + held.length)] = held ++ [a]
  rw [hkept, h.len, poke_same]

theorem Holds.packet {b : Buffer} {held : List UInt8} (h : Holds b held) :
    Holds (if 2 ≤ b.len then { b with len := b.len - 2 } else b) (packet held) := by
  have hlen := h.len
  unfold Payload.packet
  by_cases htwo : 2 ≤ held.length
  · rw [if_pos (by omega), if_pos htwo]
    have hlength : (held.take (held.length - 2)).length = held.length - 2 := by
      rw [List.length_take, Nat.min_eq_left (Nat.sub_le held.length 2)]
    refine ⟨h.start, h.maxlen, ?_, ?_⟩
    · change b.len - 2 = _
      rw [hlength]
      omega
    · obtain ⟨k, hk⟩ := Nat.exists_eq_add_of_le' htwo
      have hbytes := h.bytes
      rw [hk, slice_add] at hbytes
      rw [hlength, hk, Nat.add_sub_cancel]
      change slice b.mem b.start k = held.take k
      rw [← hbytes, List.take_left' (length_slice ..)]
  · rw [if_neg (by omega), if_neg htwo]
    exact h

/-- The escape `read_packet` applies to the next byte. -/
def pending (r : Reader UInt8) : UInt8 := if r.escaped then pppTrans else 0

theorem pending_ne_zero {r : Reader UInt8} : pending r ≠ 0 ↔ r.escaped = true := by
  unfold pending
  cases r.escaped <;> simp [pppTrans]

abbrev take := pppStuffing.take room
abbrev read := pppStuffing.read room

/-- What a byte does to the reader while `read_packet` goes on, or returns. -/
inductive Byte (r : Reader UInt8) (ch : UInt8) : Took → Prop
  | on (b : Buffer) (r' : Reader UInt8) (htake : take r (.put ch) = (r', []))
      (hbroken : r'.broken = false) (hholds : Holds b r'.held) : Byte r ch (.on (pending r') b)
  | fails (res : ℤ) (b : Buffer) (r' : Reader UInt8) (htake : take r (.put ch) = (r', []))
      (hbroken : r'.broken = true) (hres : res < 0) : Byte r ch (.out res b)
  | frame (b : Buffer) (f : List UInt8) (htake : take r (.put ch) = (Reader.start, [f]))
      (hf : f ≠ []) (hholds : Holds b (packet f)) : Byte r ch (.out (packet f).length b)

theorem readByte_simulates {r : Reader UInt8} {b : Buffer} (hholds : Holds b r.held)
    (hbroken : r.broken = false) (ch : UInt8) : Byte r ch (readByte (pending r) b ch) := by
  have hlen := hholds.len
  unfold readByte
  by_cases hflag : ch = pppFlag
  · subst hflag
    rw [if_pos rfl]
    by_cases hescaped : r.escaped = true
    · rw [if_pos (pending_ne_zero.mpr hescaped)]
      refine Byte.fails _ b { r with escaped := false, broken := true } ?_ rfl (by decide)
      simp [Stuffing.take, pppStuffing, hbroken, hescaped]
    · rw [if_neg (fun h => hescaped (pending_ne_zero.mp h))]
      have hplain : r.escaped = false := by simpa using hescaped
      by_cases hheld : r.held = []
      · have hzero : b.len = 0 := by rw [hlen, hheld]; rfl
        rw [if_neg (by omega), if_neg (by omega)]
        refine Byte.on b r ?_ hbroken hholds
        simp [Stuffing.take, pppStuffing, hbroken, hplain, hheld]
      · have hone : 0 < r.held.length := List.length_pos_iff.mpr hheld
        have htake : take r (.put pppFlag) = (Reader.start, [r.held]) := by
          simp [Stuffing.take, pppStuffing, hbroken, hplain, hheld, Reader.start]
        have hpacket := hholds.packet
        have hframe := Byte.frame _ r.held htake hheld hpacket
        by_cases htwo : 2 ≤ b.len
        · rw [if_pos htwo] at hframe hpacket ⊢
          have hres : b.len - 2 = (packet r.held).length := hpacket.len
          rw [← hres] at hframe
          exact hframe
        · rw [if_neg htwo] at hframe hpacket ⊢
          rw [← hpacket.len] at hframe
          rw [if_pos (by omega)]
          exact hframe
  · rw [if_neg hflag]
    by_cases hescape : ch = pppEscape
    · subst hescape
      rw [if_pos rfl]
      refine Byte.on b { r with escaped := true } ?_ hbroken hholds
      simp [Stuffing.take, pppStuffing, hbroken, pppFlag, pppEscape]
    · rw [if_neg hescape]
      have hxor : ch ^^^ pending r = if r.escaped then ch ^^^ pppTrans else ch := by
        unfold pending
        cases r.escaped <;> simp
      by_cases hroom : r.held.length < room
      · rw [if_pos (by rw [hlen, hholds.maxlen, maxRecvSize]; exact_mod_cast hroom)]
        refine Byte.on _ { r with
          held := r.held ++ [if r.escaped then ch ^^^ pppTrans else ch], escaped := false } ?_
          hbroken ?_
        · simp only [Stuffing.take, pppStuffing, hbroken, hflag, hescape, hroom, if_true, if_false,
            Bool.false_eq_true]
        · rw [hxor]
          exact hholds.push _
      · rw [if_neg (by rw [hlen, hholds.maxlen, maxRecvSize]; exact_mod_cast hroom)]
        refine Byte.fails _ b { r with escaped := false, broken := true } ?_ rfl (by decide)
        simp only [Stuffing.take, pppStuffing, hbroken, hflag, hescape, hroom, if_false,
          Bool.false_eq_true]

/-- What the reader has of the bytes `read_packet` took so far. -/
inductive Outcome (r : Reader UInt8) (heard : List (Symbol UInt8)) : ℤ → Buffer → Prop
  | fails (res : ℤ) (b : Buffer) (hquiet : (read r heard).2 = []) (hres : res < 0) :
      Outcome r heard res b
  | waits (b : Buffer) (r' : Reader UInt8) (hread : read r heard = (r', []))
      (hescaped : r'.escaped = false) (hbroken : r'.broken = false)
      (hholds : Holds b r'.held) : Outcome r heard 0 b
  | frame (b : Buffer) (f : List UInt8) (hread : read r heard = (Reader.start, [f])) (hf : f ≠ [])
      (hholds : Holds b (packet f)) : Outcome r heard (packet f).length b

/-- Nothing came of the symbols before these. -/
theorem Outcome.later {r r' : Reader UInt8} {before heard : List (Symbol UInt8)}
    (hbefore : read r before = (r', [])) {res : ℤ} {b : Buffer} (h : Outcome r' heard res b) :
    Outcome r (before ++ heard) res b := by
  have happend : read r (before ++ heard) = read r' heard := by
    rw [read, read_append]
    simp only [read] at hbefore
    rw [hbefore]
    simp
  cases h with
  | fails _ _ hquiet hres => exact .fails res b (by rw [happend]; exact hquiet) hres
  | waits _ r'' hread hescaped hbroken hholds =>
    exact .waits b r'' (happend.trans hread) hescaped hbroken hholds
  | frame _ f hread hf hholds => exact .frame b f (happend.trans hread) hf hholds

/-- What `scan` does to the reader. -/
inductive Scanned (r : Reader UInt8) (rbuf : List UInt8) : Scan → Prop
  | more (b : Buffer) (r' : Reader UInt8) (hread : read r (rbuf.map .put) = (r', []))
      (hbroken : r'.broken = false) (hholds : Holds b r'.held) :
      Scanned r rbuf (.more (pending r') b)
  | done (res : ℤ) (b : Buffer) (used left : List UInt8) (hsplit : rbuf = used ++ left)
      (houtcome : Outcome r (used.map .put) res b) : Scanned r rbuf (.done res b left)

theorem scan_simulates {r : Reader UInt8} {b : Buffer} (hholds : Holds b r.held)
    (hbroken : r.broken = false) (rbuf : List UInt8) :
    Scanned r rbuf (scan (pending r) b rbuf) := by
  induction rbuf generalizing r b with
  | nil => exact .more b r rfl hbroken hholds
  | cons ch rbuf ih =>
    have hbyte := readByte_simulates hholds hbroken ch
    rw [scan]
    generalize readByte (pending r) b ch = took at hbyte ⊢
    have hone {r' : Reader UInt8} {fs : List (List UInt8)} (htake : take r (.put ch) = (r', fs)) :
        read r ([ch].map .put) = (r', fs) := by
      simp only [take] at htake
      simp [read, Stuffing.read, htake]
    cases hbyte with
    | on b' r' htake hbroken' hholds' =>
      have hrest := ih hholds' hbroken'
      have happend : pppStuffing.read room r ([ch].map .put ++ rbuf.map .put) = _ :=
        read_append pppStuffing r ([ch].map .put) (rbuf.map .put)
      change scan (pending r') b' rbuf |> Scanned r (ch :: rbuf)
      generalize scan (pending r') b' rbuf = s at hrest ⊢
      cases hrest with
      | more b'' r'' hread hbroken'' hholds'' =>
        refine .more b'' r'' ?_ hbroken'' hholds''
        have := hone htake
        simp only [read] at this hread ⊢
        rw [this] at happend
        simpa [hread] using happend
      | done res b'' used left hsplit houtcome =>
        exact .done res b'' (ch :: used) left (by rw [hsplit]; rfl) (houtcome.later (hone htake))
    | fails res b' r' htake hbroken' hres =>
      simp only [if_pos hres]
      refine .done res b' (ch :: rbuf) [] (List.append_nil _).symm (.fails res b' ?_ hres)
      simp only [take] at htake
      rw [read, List.map_cons, Stuffing.read]
      simp only [htake, List.nil_append]
      exact read_broken pppStuffing r' hbroken' _
    | frame b' f htake hf hholds' =>
      simp only [if_neg (Int.not_lt.mpr (Int.natCast_nonneg _))]
      exact .done _ b' [ch] rbuf rfl (.frame b' f (hone htake) hf hholds')

/-- `read_packet` returned and left bytes and reads; what it throws away when it fails
counts as heard, for nothing comes of it. -/
def Returned (r : Reader UInt8) (rbuf : List UInt8) (reads : List Read) (res : ℤ) (b : Buffer)
    (rbuf' : List UInt8) (reads' : List Read) : Prop :=
  ∃ heard, rbuf.map .put ++ symbols reads = heard ++ (rbuf'.map .put ++ symbols reads') ∧
    Outcome r heard res b

theorem Scanned.returned {r : Reader UInt8} {rbuf left : List UInt8} {res : ℤ} {b : Buffer}
    (h : Scanned r rbuf (.done res b left)) (reads : List Read) :
    Returned r rbuf reads res b left reads := by
  cases h with
  | done _ _ used _ hsplit houtcome =>
    refine ⟨used.map .put, ?_, houtcome⟩
    rw [hsplit, List.map_append, List.append_assoc]

/-- A byte buffer was used up and the next read brought more. -/
theorem Returned.later {r r' : Reader UInt8} {rbuf fresh rbuf' : List UInt8}
    {reads rest reads' : List Read} {res : ℤ} {b : Buffer}
    (hread : read r (rbuf.map .put) = (r', []))
    (hfresh : symbols reads = fresh.map .put ++ symbols rest)
    (h : Returned r' fresh rest res b rbuf' reads') : Returned r rbuf reads res b rbuf' reads' := by
  obtain ⟨heard, hsplit, houtcome⟩ := h
  refine ⟨rbuf.map .put ++ heard, ?_, houtcome.later hread⟩
  rw [hfresh, hsplit, List.append_assoc]

theorem readLoop_simulates {errors : Nat} {r : Reader UInt8} {b b' : Buffer}
    {rbuf rbuf' : List UInt8} {reads reads' : List Read} {res : ℤ} (hholds : Holds b r.held)
    (hbroken : r.broken = false)
    (hloop : readLoop errors (pending r) b rbuf reads = some (res, b', rbuf', reads')) :
    Returned r rbuf reads res b' rbuf' reads' := by
  induction reads generalizing errors r b rbuf with
  | nil =>
    have hscan := scan_simulates hholds hbroken rbuf
    rw [readLoop] at hloop
    generalize scan (pending r) b rbuf = s at hscan hloop
    cases s with
    | more => cases hloop
    | done =>
      cases hloop
      exact hscan.returned []
  | cons x reads ih =>
    have hscan := scan_simulates hholds hbroken rbuf
    rw [readLoop] at hloop
    generalize scan (pending r) b rbuf = s at hscan hloop
    cases s with
    | done =>
      cases hloop
      exact hscan.returned (x :: reads)
    | more =>
      cases hscan with
      | more b'' r' hread hbroken' hholds' =>
        cases x with
        | nothing =>
          cases hloop
          refine ⟨rbuf.map .put ++ [.gap], by simp [symbols], ?_⟩
          refine .waits b' { r' with escaped := false } ?_ rfl hbroken' hholds'
          simp only [read] at hread
          simp [read, read_append, hread, Stuffing.read, Stuffing.take]
        | error errno =>
          simp only at hloop
          split at hloop
          · cases hloop
            refine ⟨rbuf.map .put, rfl, .fails _ b' (by rw [hread]) ?_⟩
            have := errno.pos
            omega
          · exact (ih hholds' hbroken' hloop).later hread rfl
        | data first more => exact (ih hholds' hbroken' hloop).later hread rfl

/-- A datagram carries a packet for the call. -/
def SentAs (tid : UInt16) (c : Call) (d p : List UInt8) : Prop :=
  ∃ ns nr, d = header tid c.cid c.lbit (c.fbit || c.ourfbit) ns nr p.length ++ p

/-- The parts of a call that the traffic leaves alone. -/
structure SameCall (c c' : Call) : Prop where
  cid : c'.cid = c.cid
  lbit : c'.lbit = c.lbit
  fbit : c'.fbit = c.fbit
  ourfbit : c'.ourfbit = c.ourfbit

theorem SameCall.refl (c : Call) : SameCall c c := ⟨rfl, rfl, rfl, rfl⟩

theorem SameCall.trans {c c' c'' : Call} (h : SameCall c c') (h' : SameCall c' c'') :
    SameCall c c'' :=
  ⟨h'.cid.trans h.cid, h'.lbit.trans h.lbit, h'.fbit.trans h.fbit, h'.ourfbit.trans h.ourfbit⟩

theorem SameCall.sentAs {c c' : Call} (h : SameCall c c') {tid : UInt16} {d p : List UInt8} :
    SentAs tid c' d p → SentAs tid c d p := by
  rintro ⟨ns, nr, rfl⟩
  refine ⟨ns, nr, ?_⟩
  rw [h.cid, h.lbit, h.fbit, h.ourfbit]

/-- Between two calls of `read_packet`. -/
structure Idle (c : Call) (r : Reader UInt8) : Prop where
  holds : Holds c.pppBuf r.held
  escaped : r.escaped = false
  broken : r.broken = false

/-- A call sent the packets of what it heard, which is all that was read but what is
still in `rbuf`. -/
def Emitted (tid : UInt16) (c : Call) (r : Reader UInt8) (reads : List Read)
    (ds : List (List UInt8)) (c' : Call) (reads' : List Read) : Prop :=
  ∃ heard, c.rbuf.map .put ++ symbols reads = heard ++ (c'.rbuf.map .put ++ symbols reads') ∧
    List.Forall₂ (SentAs tid c) ds (packets (read r heard).2) ∧ SameCall c c' ∧
    (c'.needclose = false → Idle c' (read r heard).1)

theorem readPacket_simulates {c c' : Call} {r : Reader UInt8} {reads reads' : List Read} {res : ℤ}
    (hidle : Idle c r) (hread : readPacket c reads = some (res, c', reads')) :
    SameCall c c' ∧ Returned r c.rbuf reads res c'.pppBuf c'.rbuf reads' := by
  obtain ⟨⟨res', b, rbuf, rest⟩, hloop, hout⟩ := Option.map_eq_some_iff.mp hread
  cases hout
  have hzero : pending r = 0 := by simp [pending, hidle.escaped]
  rw [← hzero] at hloop
  exact ⟨⟨rfl, rfl, rfl, rfl⟩, readLoop_simulates hidle.holds hidle.broken hloop⟩

/-- Nothing was sent and the reader goes on with what it holds. -/
theorem Outcome.idle {r : Reader UInt8} {heard : List (Symbol UInt8)} {res : ℤ} {c : Call}
    (h : Outcome r heard res c.pppBuf) (hres : res = 0) :
    packets (read r heard).2 = [] ∧ Idle c (read r heard).1 := by
  cases h with
  | fails _ _ _ hneg => omega
  | waits _ r' hread hescaped hbroken hholds =>
    rw [hread]
    exact ⟨rfl, hholds, hescaped, hbroken⟩
  | frame _ f hread hf hholds =>
    have hempty : packet f = [] := List.length_eq_zero_iff.mp (by omega)
    rw [hempty] at hholds
    rw [hread]
    exact ⟨by simp [packets, hempty], hholds, rfl, rfl⟩

theorem drain_simulates {e : Host} {tid : UInt16} {c c' : Call} {r : Reader UInt8}
    {reads reads' : List Read} {ds : List (List UInt8)} (hidle : Idle c r)
    (hdrain : drain e tid c reads = some (ds, c', reads')) :
    Emitted tid c r reads ds c' reads' := by
  fun_induction drain e tid c reads generalizing r ds with
  | case1 => cases hdrain
  | case2 c reads res c₁ reads₁ hread hres out =>
    rename_i ih
    obtain ⟨hsame, heard, hsplit, houtcome⟩ := readPacket_simulates hidle hread
    cases houtcome with
    | fails _ _ _ hneg => omega
    | waits => omega
    | frame _ f hframe hf hholds =>
      obtain ⟨⟨ds₁, rest⟩, hrest, hout⟩ := Option.map_eq_some_iff.mp hdrain
      cases hout
      have hmem := addPayloadHdr_mem e tid c₁ hholds.len
      have hidle₁ : Idle (out.1.recycled out.2) Reader.start := by
        refine ⟨?_, rfl, rfl⟩
        apply Holds.fresh
        rw [hmem]
        exact hholds.maxlen
      obtain ⟨heard₁, hsplit₁, hsent₁, hsame₁, hopen₁⟩ := ih hidle₁ hrest
      have hcall : SameCall c (out.1.recycled out.2) :=
        hsame.trans ⟨rfl, rfl, rfl, rfl⟩
      have hne : packet f ≠ [] := by
        intro hempty
        rw [hempty] at hres
        exact absurd hres (by decide)
      have hboth : packets (read r (heard ++ heard₁)).2 =
          packet f :: packets (read Reader.start heard₁).2 := by
        simp only [read] at hframe ⊢
        rw [read_append, hframe]
        simp [packets, hne]
      refine ⟨heard ++ heard₁, ?_, ?_, hcall.trans hsame₁, fun hopen => ?_⟩
      · rw [hsplit, List.append_assoc, ← hsplit₁]
        rfl
      · rw [hboth]
        refine .cons ?_ (hsent₁.imp fun _ _ => hcall.sentAs)
        apply hsame.sentAs
        exact ⟨_, _, addPayloadHdr_bytes e tid c₁ hholds.len hholds.bytes⟩
      · have hidle' := hopen₁ hopen
        simp only [read] at hframe hidle' ⊢
        rw [read_append, hframe]
        exact hidle'
  | case3 c reads c₁ reads₁ hread =>
    cases hdrain
    obtain ⟨hsame, heard, hsplit, houtcome⟩ := readPacket_simulates hidle hread
    obtain ⟨hquiet, hidle'⟩ := houtcome.idle rfl
    refine ⟨heard, hsplit, ?_, hsame, fun _ => hidle'⟩
    rw [hquiet]
    exact .nil
  | case4 c reads res c₁ reads₁ hread hres hne =>
    cases hdrain
    obtain ⟨hsame, heard, hsplit, houtcome⟩ := readPacket_simulates hidle hread
    cases houtcome with
    | waits => exact absurd rfl hne
    | frame => omega
    | fails _ _ hquiet =>
      refine ⟨heard, hsplit, ?_, hsame.trans ⟨rfl, rfl, rfl, rfl⟩, fun h => by cases h⟩
      rw [hquiet]
      exact .nil

/-- Any number of times the daemon finds the pty ready, with anything between them
that is not done to what was read. -/
inductive Run (e : Host) (tid : UInt16) :
    Call → List Read → List (List UInt8) → Call → List Read → Prop
  | stop (c : Call) (reads : List Read) : Run e tid c reads [] c reads
  | wake {c c₁ c' : Call} {reads reads₁ reads' : List Read} {ds ds₁ : List (List UInt8)}
      (hopen : c.needclose = false) (hdrain : drain e tid c reads = some (ds, c₁, reads₁))
      (hrest : Run e tid c₁ reads₁ ds₁ c' reads') : Run e tid c reads (ds ++ ds₁) c' reads'
  | other {c c₁ c' : Call} {reads reads' : List Read} {ds : List (List UInt8)}
      (hsame : SameCall c c₁) (hrbuf : c₁.rbuf = c.rbuf) (hbuf : c₁.pppBuf = c.pppBuf)
      (hclose : c₁.needclose = false → c.needclose = false)
      (hrest : Run e tid c₁ reads ds c' reads') : Run e tid c reads ds c' reads'

/-- A call that is to be closed sends nothing more. -/
theorem Run.closing {e : Host} {tid : UInt16} {c c' : Call} {reads reads' : List Read}
    {ds : List (List UInt8)} (h : Run e tid c reads ds c' reads') (hclose : c.needclose = true) :
    ds = [] ∧ SameCall c c' ∧ c'.needclose = true ∧ c'.rbuf = c.rbuf ∧ reads' = reads := by
  induction h with
  | stop c => exact ⟨rfl, SameCall.refl c, hclose, rfl, rfl⟩
  | wake hopen => exact absurd (hclose.symm.trans hopen) (by decide)
  | @other c c₁ _ _ _ _ hsame hrbuf _ hkeep _ ih =>
    have hclose₁ : c₁.needclose = true := by
      by_contra hopen
      have := hkeep (by simpa using hopen)
      rw [hclose] at this
      cases this
    obtain ⟨hds, hsame', hclose', hrbuf', hreads⟩ := ih hclose₁
    exact ⟨hds, hsame.trans hsame', hclose', hrbuf'.trans hrbuf, hreads⟩

theorem Run.emitted {e : Host} {tid : UInt16} {c c' : Call} {reads reads' : List Read}
    {ds : List (List UInt8)} (h : Run e tid c reads ds c' reads') {r : Reader UInt8}
    (hidle : c.needclose = false → Idle c r) : Emitted tid c r reads ds c' reads' := by
  induction h generalizing r with
  | stop c reads =>
    exact ⟨[], rfl, .nil, SameCall.refl c, hidle⟩
  | @wake c c₁ c' reads reads₁ reads' ds ds₁ hopen hdrain hrest ih =>
    obtain ⟨heard, hsplit, hsent, hsame, hlater⟩ := drain_simulates (hidle hopen) hdrain
    cases hclose : c₁.needclose with
    | true =>
      obtain ⟨rfl, hsame₁, hclose', hrbuf, rfl⟩ := hrest.closing hclose
      refine ⟨heard, hrbuf ▸ hsplit, ?_, hsame.trans hsame₁, fun hopen' => ?_⟩
      · rw [List.append_nil]
        exact hsent
      · rw [hclose'] at hopen'
        cases hopen'
    | false =>
      obtain ⟨heard₁, hsplit₁, hsent₁, hsame₁, hlater₁⟩ := ih (fun _ => hlater hclose)
      refine ⟨heard ++ heard₁, ?_, ?_, hsame.trans hsame₁, fun hopen' => ?_⟩
      · rw [hsplit, hsplit₁, List.append_assoc]
      · simp only [read] at hsent hsent₁ ⊢
        rw [read_append, packets_append]
        exact List.rel_append hsent (hsent₁.imp fun _ _ => hsame.sentAs)
      · have hidle' := hlater₁ hopen'
        simp only [read] at hidle' ⊢
        rw [read_append]
        exact hidle'
  | @other c c₁ c' reads reads' ds hsame hrbuf hbuf hkeep hrest ih =>
    have hidle₁ : c₁.needclose = false → Idle c₁ r := by
      intro hopen
      obtain ⟨hholds, hescaped, hbroken⟩ := hidle (hkeep hopen)
      exact ⟨hbuf ▸ hholds, hescaped, hbroken⟩
    obtain ⟨heard, hsplit, hsent, hsame₁, hlater⟩ := ih hidle₁
    exact ⟨heard, hrbuf ▸ hsplit, hsent.imp fun _ _ => hsame.sentAs, hsame.trans hsame₁, hlater⟩

/-- A call as it starts. -/
structure Starting (c : Call) : Prop where
  rbuf : c.rbuf = []
  start : c.pppBuf.start = sizeofPayloadHdr
  len : c.pppBuf.len = 0
  maxlen : c.pppBuf.maxlen = maxRecvSize

theorem Starting.idle {c : Call} (h : Starting c) : Idle c Reader.start :=
  ⟨⟨h.start, h.maxlen, h.len, rfl⟩, rfl, rfl⟩

theorem starting_newCall (mem : Memory) (ourcid cid : UInt16) (lbit : Bool) :
    Starting (newCall mem ourcid cid lbit) :=
  ⟨rfl, rfl, rfl, rfl⟩

/-- A pty that has one packet and then nothing. -/
def onePacket : List Read := [.data 0x7e [0x7d, 0x23, 0x21, 0xa4, 0x7d, 0x35, 0x7e], .nothing]

theorem run_onePacket : ∃ c', Run .little 7 (newCall (fun _ => 0) 5 9 true) onePacket
    [header 7 9 true false 0 0 2 ++ [0x03, 0x21]] c' [] ∧ c'.rbuf = [] := by
  have hread : (readPacket (newCall (fun _ => 0) 5 9 true) onePacket).map (fun out =>
      (out.1, (addPayloadHdr .little 7 out.2.1 out.2.1.pppBuf).2.bytes, out.2.1.rbuf,
        out.2.2)) =
      some (2, header 7 9 true false 0 0 2 ++ [0x03, 0x21], [], [.nothing]) := by
    decide +kernel
  obtain ⟨⟨res, c', reads⟩, hread, hout⟩ := Option.map_eq_some_iff.mp hread
  simp only [Prod.mk.injEq] at hout
  obtain ⟨rfl, hbytes, hrbuf, rfl⟩ := hout
  have hdrain : drain .little 7 _ onePacket = some (_, _, []) :=
    drain_one hread (by decide) hrbuf
  rw [hbytes] at hdrain
  exact ⟨_, .wake rfl hdrain (.stop _ []), hrbuf⟩

/-- Frames that no pause has cut behind an escape are sent on as they are, without
their checks, whatever pieces they came in. -/
theorem sent_frames {e : Host} {tid : UInt16} {c c' : Call} {reads reads' : List Read}
    {ds fs : List (List UInt8)} (hstart : Starting c) (hrun : Run e tid c reads ds c' reads')
    (hframed : pppStuffing.Framed fs (puts (symbols reads)))
    (hfit : ∀ f ∈ fs, f.length ≤ room) (hunsplit : pppStuffing.Unsplit (symbols reads)) :
    ∃ fs', fs' <+: fs ∧ List.Forall₂ (SentAs tid c) ds (packets fs') ∧
      (c'.rbuf = [] → reads' = [] → fs' = fs) := by
  obtain ⟨heard, hsplit, hsent, -⟩ := hrun.emitted (fun _ => hstart.idle)
  rw [hstart.rbuf, List.map_nil, List.nil_append] at hsplit
  rw [hsplit] at hframed hunsplit
  obtain ⟨hfront, hall⟩ := pppStuffing.frames_of_prefix hframed hfit hunsplit
  refine ⟨(read Reader.start heard).2, hfront, hsent, fun hrbuf hreads => hall ?_⟩
  rw [hrbuf, hreads]
  rfl

end GameAcc.L2tp.Payload
