import Mathlib.Tactic.Ring
import GameAcc.L2tp.Payload

/-!
The header of a payload packet on the wire: what the sender puts before a packet,
and what the receiver finds in it. The receiver fills in the words that are
missing, over the header it reads them from, and no word is overwritten before it
is read.
-/

namespace GameAcc.L2tp.Payload

open Memory

/-- A word on the wire. -/
def wire (v : UInt16) : List UInt8 := [high v, low v]

def hdrVer (lbit seq : Bool) : UInt16 :=
  (if lbit then lBit else 0) ||| (if seq then fBit else 0) ||| verL2tp

def hdrLen (lbit seq : Bool) : Nat := 6 + (if lbit then 2 else 0) + (if seq then 4 else 0)

/-- The header of a packet of `n` bytes. -/
def header (tid cid : UInt16) (lbit seq : Bool) (ns nr : UInt16) (n : Nat) : List UInt8 :=
  wire (hdrVer lbit seq) ++ (if lbit then wire (UInt16.ofNat (n + hdrLen lbit seq)) else []) ++
    wire tid ++ wire cid ++ (if seq then wire ns ++ wire nr else [])

theorem length_header (tid cid : UInt16) (lbit seq : Bool) (ns nr : UInt16) (n : Nat) :
    (header tid cid lbit seq ns nr n).length = hdrLen lbit seq := by
  cases lbit <;> cases seq <;> rfl

theorem ofInt_natCast (n : Nat) : UInt16.ofInt (n : ℤ) = UInt16.ofNat n := by
  apply UInt16.toNat_inj.mp
  rw [UInt16.ofInt, UInt16.toNat_ofNat', UInt16.toNat_ofNat']
  omega

/-- The header lies right before the packet. -/
theorem addPayloadHdr_mem (e : Host) (tid : UInt16) (c : Call) {b : Buffer} {n : Nat}
    (hlen : b.len = n) :
    (addPayloadHdr e tid c b).2 =
      { b with
        mem := pokes b.mem (b.start - hdrLen c.lbit (c.fbit || c.ourfbit))
          (header tid c.cid c.lbit (c.fbit || c.ourfbit) c.dataSeqNum c.dataRecSeqNum n)
        start := b.start - hdrLen c.lbit (c.fbit || c.ourfbit)
        len := (n : ℤ) + hdrLen c.lbit (c.fbit || c.ourfbit) } := by
  obtain ⟨mem, start, len, maxlen⟩ := b
  simp only at hlen
  subst hlen
  have height : UInt16.ofInt (8 + (n : ℤ)) = UInt16.ofNat (8 + n) := ofInt_natCast (8 + n)
  have htwelve : UInt16.ofInt (12 + (n : ℤ)) = UInt16.ofNat (12 + n) := ofInt_natCast (12 + n)
  cases hl : c.lbit <;> cases hf : c.fbit <;> cases ho : c.ourfbit
  all_goals
    simp only [addPayloadHdr, hl, hf, ho, setWord_htons, sizeofPayloadHdr, header,
      hdrVer, hdrLen, if_true, if_false, Bool.false_eq_true, Bool.or_true, Bool.or_false,
      Bool.or_self, pokes_append, List.append_nil, wire]
    simp only [Buffer.mk.injEq, List.length_append, List.length_cons, List.length_nil,
      UInt16.zero_or, UInt16.or_zero, UInt16.or_self, Nat.cast_ofNat, Nat.zero_add, Nat.add_zero,
      Nat.reduceAdd]
    refine ⟨?_, by omega, by omega, trivial⟩
    ring_nf <;> simp only [height, htwelve, UInt16.or_assoc, UInt16.or_self]

theorem addPayloadHdr_bytes (e : Host) (tid : UInt16) (c : Call) {b : Buffer} {p : List UInt8}
    (hlen : b.len = p.length) (hbytes : slice b.mem b.start p.length = p) :
    (addPayloadHdr e tid c b).2.bytes =
      header tid c.cid c.lbit (c.fbit || c.ourfbit) c.dataSeqNum c.dataRecSeqNum p.length ++ p := by
  rw [addPayloadHdr_mem e tid c hlen, Buffer.bytes]
  generalize (c.fbit || c.ourfbit) = seq
  have hhdr := length_header tid c.cid c.lbit seq c.dataSeqNum c.dataRecSeqNum p.length
  generalize header tid c.cid c.lbit seq c.dataSeqNum c.dataRecSeqNum p.length = hdr at hhdr ⊢
  have hsum : ((p.length : ℤ) + hdr.length).toNat = hdr.length + p.length := by omega
  rw [← hhdr, hsum, slice_add]
  change slice (pokes b.mem (b.start - hdr.length) hdr) (b.start - hdr.length) hdr.length ++
    slice (pokes b.mem (b.start - hdr.length) hdr) (b.start - hdr.length + hdr.length) p.length = _
  rw [slice_pokes, slice_pokes_outside _ (by omega), Int.sub_add_cancel, hbytes]

/-- `struct payload_hdr`. -/
structure PayloadHdr where
  ver : UInt16
  length : UInt16
  tid : UInt16
  cid : UInt16
  ns : UInt16
  nr : UInt16
  oSize : UInt16
deriving Repr, DecidableEq

/-- The structure at an address, in the host's order. -/
def hdrAt (e : Host) (m : Memory) (a : ℤ) : PayloadHdr :=
  { ver := word e m a, length := word e m (a + 2), tid := word e m (a + 4),
    cid := word e m (a + 6), ns := word e m (a + 8), nr := word e m (a + 10),
    oSize := word e m (a + 12) }

/-- The words a header lacks, counted in bytes. -/
def missing (ver : UInt16) : ℤ :=
  (if plBit ver then 0 else 2) + (if pfBit ver then 0 else 4) + (if psBit ver then 0 else 2)

/-- The header on the wire, read word by word, with what stands for a missing word. -/
def plainHdr (m : Memory) (a len : ℤ) (c : Call) : PayloadHdr :=
  let ver := net m a
  let ids := if plBit ver then a + 2 else a
  { ver
    length := if plBit ver then net m (a + 2) else UInt16.ofInt (len + missing ver)
    tid := net m (ids + 2)
    cid := net m (ids + 4)
    ns := if pfBit ver then net m (ids + 6) else c.dataRecSeqNum
    nr := if pfBit ver then net m (ids + 8) else c.dataSeqNum
    oSize := if psBit ver then net m (ids + 6 + (if pfBit ver then 4 else 0)) else 0 }

theorem swaps_outside (e : Host) (m : Memory) {a i : ℤ} {n : Nat}
    (h : i < a ∨ a + 2 * n ≤ i) : swaps e m a n i = m i := by
  induction n generalizing m a with
  | zero => rfl
  | succ n ih =>
    rw [swaps, ih _ (by omega), setWord_outside _ _ _ (by omega)]

theorem word_swaps (e : Host) (m : Memory) {a i : ℤ} {n : Nat} (k : Nat) (hk : k < n)
    (hi : i = a + 2 * k) : word e (swaps e m a n) i = net m i := by
  induction n generalizing m a k with
  | zero => exact absurd hk (Nat.not_lt_zero k)
  | succ n ih =>
    rw [swaps]
    cases k with
    | zero =>
      obtain rfl : i = a := by omega
      have hkept := fun v => word_congr e
        (swaps_outside e (setWord e m i v) (n := n) (.inl (show i < i + 2 by omega)))
        (swaps_outside e (setWord e m i v) (n := n) (.inl (show i + 1 < i + 2 by omega)))
      rw [hkept, word_setWord, ntohs_word]
    | succ k =>
      rw [ih _ k (by omega) (by omega), net, net]
      rw [setWord_outside _ _ _ (by omega), setWord_outside _ _ _ (by omega)]

/-- The received header in the host's order. -/
theorem word_fixHdr {e : Host} {m : Memory} {a : ℤ} (hdata : ptBit (word e m a) = false) {i : ℤ}
    (heven : (i - a) % 2 = 0) (hlow : a ≤ i) (hhigh : i + missing (net m a) < a + 14) :
    word e (fixHdr e m a) i = net m i := by
  unfold fixHdr
  simp only [hdata, Bool.false_eq_true, if_false, ntohs_word]
  apply word_swaps e m ((i - a) / 2).toNat _ (by omega)
  unfold missing at hhigh
  split at hhigh <;> split at hhigh <;> split at hhigh <;> simp [*] <;> omega

theorem fixHdr_outside {e : Host} {m : Memory} {a : ℤ} (hdata : ptBit (word e m a) = false)
    {i : ℤ} (h : i < a ∨ a + 14 - missing (net m a) ≤ i) : fixHdr e m a i = m i := by
  unfold fixHdr
  simp only [hdata, Bool.false_eq_true, if_false, ntohs_word]
  apply swaps_outside
  unfold missing at h
  split at h <;> split at h <;> split at h <;> simp [*] <;> omega

/-- Filling a header in gives what reading it word by word gives, and leaves every
other byte as it was received. -/
theorem fillHdr_plain {e : Host} {m : Memory} {a len maxlen : ℤ} (c : Call)
    (hdata : ptBit (word e m a) = false) (hroom : missing (net m a) ≤ a) :
    ∃ b, fillHdr e { mem := fixHdr e m a, start := a, len, maxlen } c = some b ∧
      b.start = a - missing (net m a) ∧ b.len = len + missing (net m a) ∧
      hdrAt e b.mem b.start = plainHdr m a len c ∧
      ∀ i, i < b.start ∨ b.start + 14 ≤ i → b.mem i = m i := by
  have hword {i : ℤ} := word_fixHdr hdata (i := i)
  have hout {i : ℤ} := fixHdr_outside hdata (i := i)
  generalize fixHdr e m a = fixed at hword hout
  have hver : word e fixed a = net m a := by
    apply hword (by omega) (le_refl a)
    unfold missing
    split <;> split <;> split <;> omega
  have hfits : ¬ a - missing (net m a) < 0 := by omega
  unfold fillHdr
  simp only [hver]
  cases hl : plBit (net m a) <;> cases hf : pfBit (net m a) <;> cases hs : psBit (net m a)
  all_goals
    simp only [missing, hl, hf, hs, if_true, if_false, Bool.false_eq_true, Int.add_zero,
      Int.zero_add, Int.reduceAdd, Int.reduceEq] at hfits hword hout ⊢
  case true.true.true =>
    refine ⟨_, rfl, (Int.sub_zero a).symm, rfl, ?_, ?_⟩
    · simp (disch := omega) only [hdrAt, plainHdr, hl, hf, hs, hword, if_true, Int.add_assoc,
        Int.reduceAdd]
    · intro i hi
      simp only at hi
      apply hout
      omega
  all_goals
    simp (disch := omega) only [word_setWord, word_setWord_ne, hl, hf, hs, hver, hfits, if_true,
      if_false, Bool.false_eq_true]
    refine ⟨_, rfl, rfl, rfl, ?_, ?_⟩
    · simp (disch := omega) only [hdrAt, plainHdr, missing, word_setWord, word_setWord_ne, hl, hf,
        hs, hword, if_true, if_false, Bool.false_eq_true, Int.add_assoc, Int.reduceAdd]
    · intro i hi
      simp only at hi
      simp (disch := omega) only [setWord_outside]
      apply hout
      omega

end GameAcc.L2tp.Payload
