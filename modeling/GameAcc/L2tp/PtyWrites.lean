import GameAcc.L2tp.Framing
import GameAcc.L2tp.PtyReads

/-!
What `write_packet` puts on a pty. The table of the check is that of the
polynomial, so a frame it writes leaves the register of a reader at the good value;
`wbuf` is never overrun, and a packet is refused exactly when it could have been.
-/

namespace GameAcc.L2tp.Payload

open Memory Stuffing

/-- The generator of the check. -/
def pppPoly : BitVec 16 := 0x8408#16

theorem fcstab_eq : ∀ i : Fin 256,
    (fcstab.getD i 0).toBitVec = Crc.shifts pppPoly 8 (BitVec.ofNat 16 i) := by
  decide +kernel

theorem toBitVec_pppFcs (fcs : UInt16) (c : UInt8) :
    (pppFcs fcs c).toBitVec = Crc.feed pppPoly fcs.toBitVec c.toBitVec := by
  rw [Crc.feed_table]
  have hindex : ((fcs ^^^ c.toUInt16) &&& 0xff).toNat < 256 := by
    rw [UInt16.toNat_and]
    exact Nat.lt_of_le_of_lt Nat.and_le_right (by decide)
  have hentry := fcstab_eq ⟨_, hindex⟩
  have hword : BitVec.ofNat 16 ((fcs ^^^ c.toUInt16) &&& 0xff).toNat =
      (fcs.toBitVec ^^^ c.toBitVec.setWidth 16) &&& 255#16 := by
    rw [UInt16.toNat, BitVec.ofNat_toNat, BitVec.setWidth_eq]
    rfl
  rw [pppFcs, UInt16.toBitVec_xor, hentry, hword]
  rfl

theorem foldl_toBitVec (bytes : List UInt8) (fcs : UInt16) :
    (bytes.foldl pppFcs fcs).toBitVec =
      (bytes.map UInt8.toBitVec).foldl (Crc.feed pppPoly) fcs.toBitVec := by
  induction bytes generalizing fcs with
  | nil => rfl
  | cons c bytes ih =>
    rw [List.foldl_cons, ih, toBitVec_pppFcs, List.map_cons, List.foldl_cons]

/-- A packet with its check. -/
def checked (p : List UInt8) : List UInt8 :=
  let fcs := p.foldl pppFcs pppInitFcs ^^^ 0xffff
  p ++ [low fcs, high fcs]

theorem toBitVec_low (v : UInt16) : (low v).toBitVec = v.toBitVec.extractLsb' 0 8 := by
  apply BitVec.eq_of_toNat_eq
  rw [UInt8.toNat_toBitVec, low, UInt8.toNat_ofNat', BitVec.extractLsb'_toNat,
    UInt16.toNat_toBitVec, Nat.shiftRight_zero, Nat.mod_mod]

theorem toBitVec_high (v : UInt16) : (high v).toBitVec = v.toBitVec.extractLsb' 8 8 := by
  apply BitVec.eq_of_toNat_eq
  rw [UInt8.toNat_toBitVec, high, UInt8.toNat_ofNat', BitVec.extractLsb'_toNat,
    UInt16.toNat_toBitVec, Nat.shiftRight_eq_div_pow]

theorem low_high_inj {v w : UInt16} (hlow : low v = low w) (hhigh : high v = high w) : v = w := by
  rw [← wide_high_low v, hlow, hhigh, wide_high_low]

/-- The register tells the right check of a packet from every other one. -/
theorem good_iff (p : List UInt8) (v : UInt16) :
    (p ++ [low v, high v]).foldl pppFcs pppInitFcs = pppGoodFcs ↔
      p ++ [low v, high v] = checked p := by
  have hgood : pppGoodFcs.toBitVec = Crc.good pppPoly := by decide +kernel
  have hcomplement (fcs : UInt16) : (fcs ^^^ 0xffff).toBitVec = ~~~fcs.toBitVec :=
    BitVec.xor_allOnes
  have hcheck : v.toBitVec = ~~~(p.foldl pppFcs pppInitFcs).toBitVec ↔
      p ++ [low v, high v] = checked p := by
    rw [← hcomplement, UInt16.toBitVec_inj, checked, List.append_cancel_left_eq]
    constructor
    · rintro rfl
      rfl
    · intro h
      simp only [List.cons.injEq, and_true] at h
      exact low_high_inj h.1 h.2
  rw [← hcheck, ← UInt16.toBitVec_inj, hgood, foldl_toBitVec, foldl_toBitVec, List.map_append,
    List.foldl_append]
  simp only [List.map_cons, List.map_nil, List.foldl_cons, List.foldl_nil, toBitVec_low,
    toBitVec_high]
  exact Crc.feed_feed_eq_good (by decide) _ _

theorem checked_good (p : List UInt8) : (checked p).foldl pppFcs pppInitFcs = pppGoodFcs :=
  (good_iff p _).mpr rfl

/-- A frame with one byte changed shows it. -/
theorem changed_not_good {x y : UInt8} (hxy : x ≠ y) (before after : List UInt8)
    (hgood : (before ++ x :: after).foldl pppFcs pppInitFcs = pppGoodFcs) :
    (before ++ y :: after).foldl pppFcs pppInitFcs ≠ pppGoodFcs := by
  rw [← hgood]
  intro h
  have hregisters := congrArg UInt16.toBitVec h
  rw [foldl_toBitVec, foldl_toBitVec, List.map_append, List.map_append, List.map_cons,
    List.map_cons] at hregisters
  have hbytes : y.toBitVec ≠ x.toBitVec := fun heq => hxy (UInt8.toBitVec_inj.mp heq).symm
  exact Crc.foldl_feed_ne (by decide) (by decide) hbytes _ _ _ hregisters

/-- `add_fcs` makes a packet a frame. -/
theorem addFcs_bytes {b : Buffer} (hlen : 0 ≤ b.len) : (addFcs b).bytes = checked b.bytes := by
  have hsum : (b.len + 2).toNat = b.len.toNat + 2 := by omega
  simp only [addFcs, Buffer.bytes, checked, hsum, slice_add]
  congr 1
  · exact slice_pokes_outside b.mem (by omega)
  · exact slice_pokes b.mem _ [_, _]

/-- What a frame is sent as between its flags. -/
def stuffed (f : List UInt8) : List UInt8 := pppStuffing.stuff mustEscape f

theorem stuffed_cons (a : UInt8) (f : List UInt8) :
    stuffed (a :: f) = (if mustEscape a then [pppEscape, a ^^^ 0x20] else [a]) ++ stuffed f := by
  rw [stuffed, stuff, List.flatMap_cons]
  rfl

theorem stuffed_stuffed (f : List UInt8) : pppStuffing.Stuffed f (stuffed f) := by
  have hbytes : ∀ b : BitVec 8, (mustEscape ⟨b⟩ = false → pppStuffing.Ordinary ⟨b⟩) ∧
      (mustEscape ⟨b⟩ = true → pppStuffing.Ordinary (pppStuffing.trans ⟨b⟩)) := by
    decide +kernel
  exact pppStuffing.stuffed_stuff (fun a => (hbytes a.toBitVec).1)
    (fun a => (hbytes a.toBitVec).2) f

/-- The room `write_packet` keeps in `wbuf` for an escape, its byte and the flag. -/
def fits (f : List UInt8) : Bool := f = [] || 1 + (stuffed f.dropLast).length < 4096 - 4

theorem convert_eq (wbuf f : List UInt8) :
    convert wbuf f =
      if f = [] ∨ wbuf.length + (stuffed f.dropLast).length < 4096 - 4 then
        some (wbuf ++ stuffed f)
      else none := by
  induction f generalizing wbuf with
  | nil => simp [convert, stuffed, stuff]
  | cons a f ih =>
    have hstep : convert wbuf (a :: f) =
        if 4096 - 4 ≤ wbuf.length then none
        else convert (wbuf ++ if mustEscape a then [pppEscape, a ^^^ 0x20] else [a]) f := by
      rw [convert]
      cases mustEscape a <;> rfl
    rw [hstep, ih, stuffed_cons, ← List.append_assoc]
    have hone : 1 ≤ (if mustEscape a then [pppEscape, a ^^^ 0x20] else [a]).length := by
      cases mustEscape a <;> simp
    cases f with
    | nil =>
      by_cases hfull : 4096 - 4 ≤ wbuf.length
      · rw [if_pos hfull, if_neg]
        simp only [reduceCtorEq, false_or, List.dropLast_singleton]
        exact Nat.not_lt.mpr (Nat.le_add_right_of_le hfull)
      · have hshort : [a] = [] ∨ wbuf.length + (stuffed [a].dropLast).length < 4096 - 4 :=
          .inr (Nat.lt_of_not_le hfull)
        rw [if_neg hfull, if_pos (.inl rfl), if_pos hshort]
    | cons a' f =>
      rw [List.dropLast_cons_cons, stuffed_cons a (List.dropLast _), List.length_append,
        List.length_append]
      simp only [reduceCtorEq, false_or]
      split
      · rw [if_neg (by omega)]
      · congr 1
        rw [Nat.add_assoc]

theorem writeOut_prefix {bytes out : List UInt8} {ws : List Wrote} {all : Bool}
    (h : writeOut bytes ws = some (out, all)) :
    out <+: bytes ∧ (all = true → out = bytes) ∧ (all = false → Wrote.fail ∈ ws) := by
  induction ws generalizing bytes out with
  | nil =>
    cases bytes with
    | nil =>
      cases h
      exact ⟨List.prefix_refl [], fun _ => rfl, fun h => by cases h⟩
    | cons => cases h
  | cons w ws ih =>
    cases bytes with
    | nil =>
      cases h
      exact ⟨List.prefix_refl [], fun _ => rfl, fun h => by cases h⟩
    | cons b bs =>
      cases w with
      | bytes n =>
        obtain ⟨⟨rest, all'⟩, hrest, hout⟩ := Option.map_eq_some_iff.mp h
        cases hout
        obtain ⟨hfront, hall, hfail⟩ := ih hrest
        refine ⟨?_, ?_, fun hpart => List.mem_cons_of_mem _ (hfail hpart)⟩
        · have := List.prefix_append_right_inj ((b :: bs).take n) |>.mpr hfront
          rwa [List.take_append_drop] at this
        · intro hdone
          rw [hall hdone, List.take_append_drop]
      | again =>
        obtain ⟨hfront, hall, hfail⟩ := ih h
        exact ⟨hfront, hall, fun hpart => List.mem_cons_of_mem _ (hfail hpart)⟩
      | fail =>
        cases h
        exact ⟨List.nil_prefix, (fun h => by cases h), fun _ => List.mem_cons_self⟩

/-- The bytes a write takes. -/
def Wrote.taken : Wrote → Nat
  | .bytes n => n
  | _ => 0

/-- The loop comes to its end when the writes take enough or one of them fails. -/
theorem writeOut_isSome {bytes : List UInt8} {ws : List Wrote}
    (h : Wrote.fail ∈ ws ∨ bytes.length ≤ (ws.map Wrote.taken).sum) :
    (writeOut bytes ws).isSome = true := by
  induction ws generalizing bytes with
  | nil =>
    rcases h with hfail | hlen
    · cases hfail
    · obtain rfl := List.length_eq_zero_iff.mp (Nat.le_zero.mp hlen)
      rfl
  | cons w ws ih =>
    cases bytes with
    | nil => rfl
    | cons b bs =>
      cases w with
      | bytes n =>
        have hrest : Wrote.fail ∈ ws ∨
            ((b :: bs).drop n).length ≤ (ws.map Wrote.taken).sum := by
          rcases h with hfail | hlen
          · exact .inl (by simpa using hfail)
          · right
            rw [List.map_cons, List.sum_cons, Wrote.taken] at hlen
            rw [List.length_drop]
            omega
        rw [writeOut, Option.isSome_map]
        exact ih hrest
      | again =>
        have hrest : Wrote.fail ∈ ws ∨ (b :: bs).length ≤ (ws.map Wrote.taken).sum := by
          simpa [Wrote.taken] using h
        exact ih hrest
      | fail => rfl

/-- A packet as a pty gets it. -/
def frame (p : List UInt8) : List UInt8 := pppFlag :: stuffed (checked p) ++ [pppFlag]

theorem stuffed_append (f g : List UInt8) : stuffed (f ++ g) = stuffed f ++ stuffed g :=
  List.flatMap_append

theorem length_stuffed_le (f : List UInt8) : (stuffed f).length ≤ 2 * f.length := by
  induction f with
  | nil => exact Nat.le_refl 0
  | cons a f ih =>
    have hone : (if mustEscape a then [pppEscape, a ^^^ 0x20] else [a]).length ≤ 2 := by
      cases mustEscape a <;> simp
    rw [stuffed_cons, List.length_append, List.length_cons]
    omega

/-- A packet of this size fits whatever its bytes are. -/
theorem fits_checked {p : List UInt8} (hlen : p.length ≤ 2044) : fits (checked p) = true := by
  have hle := length_stuffed_le (checked p).dropLast
  have hlength : (checked p).length = p.length + 2 := by simp [checked]
  rw [List.length_dropLast, hlength] at hle
  simp only [fits, Bool.or_eq_true, decide_eq_true_eq]
  right
  omega

/-- Where a packet fits, what is written fits `wbuf`. -/
theorem length_frame_le {p : List UInt8} (hfits : fits (checked p) = true) :
    (frame p).length ≤ 4096 := by
  have hne : checked p ≠ [] := by simp [checked]
  have hsplit := List.dropLast_concat_getLast hne
  have hlast := length_stuffed_le [(checked p).getLast hne]
  simp only [fits, hne, decide_false, Bool.false_or, decide_eq_true_eq] at hfits
  rw [frame, List.length_append, List.length_cons, ← hsplit, stuffed_append, List.length_append]
  simp only [List.length_cons, List.length_nil] at hlast ⊢
  omega

theorem writePacket_eq {e : Host} {b : Buffer} {c : Call} {ws : List Wrote} {p : List UInt8}
    (hopen : c.fd = true) (hlen : 0 ≤ (skipHdr e b).len) (hbytes : (skipHdr e b).bytes = p) :
    writePacket e b c ws =
      if fits (checked p) then
        (writeOut (frame p) ws).map (fun out =>
          if out.2 then (0, c, out.1) else (-eio, { c with needclose := true, fd := false }, out.1))
      else some (-einval, c, []) := by
  rw [writePacket, if_neg (by simp [hopen]), addFcs_bytes hlen, hbytes, convert_eq, fits]
  have hone : [pppFlag].length = 1 := rfl
  rw [hone]
  by_cases hshort : checked p = [] ∨ 1 + (stuffed (checked p).dropLast).length < 4096 - 4
  · rw [if_pos hshort, if_pos (by simpa using hshort)]
    rfl
  · rw [if_neg hshort, if_neg (by simpa using hshort)]

/-- `write_packet` returns once the writes have taken the frame, or one has failed. -/
theorem writePacket_returns {e : Host} {b : Buffer} {c : Call} {ws : List Wrote}
    {p : List UInt8} (hopen : c.fd = true) (hlen : 0 ≤ (skipHdr e b).len)
    (hbytes : (skipHdr e b).bytes = p)
    (h : Wrote.fail ∈ ws ∨ (frame p).length ≤ (ws.map Wrote.taken).sum) :
    (writePacket e b c ws).isSome = true := by
  rw [writePacket_eq hopen hlen hbytes]
  split
  · rw [Option.isSome_map]
    exact writeOut_isSome h
  · rfl

/-- The ways `write_packet` ends for a packet, on a pty that is open. -/
inductive Written (ws : List Wrote) (c : Call) (p : List UInt8) : ℤ → Call → List UInt8 → Prop
  | whole (hfits : fits (checked p) = true) : Written ws c p 0 c (frame p)
  | refused (hfits : fits (checked p) = false) : Written ws c p (-einval) c []
  | failed (out : List UInt8) (hfits : fits (checked p) = true) (hout : out <+: frame p)
      (hfail : Wrote.fail ∈ ws) :
      Written ws c p (-eio) { c with needclose := true, fd := false } out

theorem writePacket_written {e : Host} {b : Buffer} {c c' : Call} {ws : List Wrote}
    {p out : List UInt8} {res : ℤ} (hopen : c.fd = true) (hlen : 0 ≤ (skipHdr e b).len)
    (hbytes : (skipHdr e b).bytes = p) (hwrite : writePacket e b c ws = some (res, c', out)) :
    Written ws c p res c' out := by
  rw [writePacket_eq hopen hlen hbytes] at hwrite
  cases hfits : fits (checked p) with
  | false =>
    rw [hfits] at hwrite
    cases hwrite
    exact .refused hfits
  | true =>
    rw [hfits, if_pos rfl] at hwrite
    obtain ⟨⟨bytes, all⟩, hout, hres⟩ := Option.map_eq_some_iff.mp hwrite
    obtain ⟨hfront, hall, hfail⟩ := writeOut_prefix hout
    cases all with
    | true =>
      cases hres
      rw [hall rfl]
      exact .whole hfits
    | false =>
      cases hres
      exact .failed bytes hfits hfront (hfail rfl)

/-- A packet that fits is written as one frame with the right check, and of any other
nothing is written; whatever the writes take, the pty gets a part of the frame, and
all of it if none fails. `write_packet` returns once the writes have taken the frame
or one of them fails. `wbuf` is never overrun. -/
theorem pty_gets_frame {e : Host} {b : Buffer} {c : Call} {ws : List Wrote} {p : List UInt8}
    (hopen : c.fd = true) (hlen : 0 ≤ (skipHdr e b).len) (hbytes : (skipHdr e b).bytes = p) :
    (∀ res c' out, writePacket e b c ws = some (res, c', out) → Written ws c p res c' out) ∧
      (Wrote.fail ∈ ws ∨ (frame p).length ≤ (ws.map Wrote.taken).sum →
        (writePacket e b c ws).isSome = true) ∧
      (fits (checked p) = true → (frame p).length ≤ 4096) ∧
      pppStuffing.Stuffed (checked p) (stuffed (checked p)) ∧
      (checked p).foldl pppFcs pppInitFcs = pppGoodFcs := by
  refine ⟨?_, writePacket_returns hopen hlen hbytes, length_frame_le, stuffed_stuffed _,
    checked_good p⟩
  intro res c' out hwrite
  exact writePacket_written hopen hlen hbytes hwrite

/-- A packet of two bytes behind its header. -/
def twoBytes : Buffer :=
  { mem := pokes (fun _ => 0) 14 [0x03, 0x21], start := 0, len := 16, maxlen := 4096 }

theorem pty_gets_frame_pieces : ∃ c' res out,
    writePacket .little twoBytes (newCall (fun _ => 0) 5 9 true) [.bytes 3, .again, .bytes 100] =
        some (res, c', out) ∧
      Written [.bytes 3, .again, .bytes 100] (newCall (fun _ => 0) 5 9 true) [0x03, 0x21] res c'
        out ∧
      (fits (checked [0x03, 0x21]) = true → (frame [0x03, 0x21]).length ≤ 4096) ∧
      pppStuffing.Stuffed (checked [0x03, 0x21]) (stuffed (checked [0x03, 0x21])) ∧
      (checked [0x03, 0x21]).foldl pppFcs pppInitFcs = pppGoodFcs := by
  have hbytes : (skipHdr .little twoBytes).bytes = [0x03, 0x21] := by
    decide
  have htaken : (frame [0x03, 0x21]).length ≤
      ([.bytes 3, .again, .bytes 100].map Wrote.taken).sum := by
    decide +kernel
  obtain ⟨hwritten, hreturns, hroom, hstuffed, hgood⟩ :=
    @pty_gets_frame .little twoBytes (newCall (fun _ => 0) 5 9 true)
      [.bytes 3, .again, .bytes 100] [0x03, 0x21] rfl (by decide) hbytes
  obtain ⟨⟨res, c', out⟩, hwrite⟩ := Option.isSome_iff_exists.mp (hreturns (.inr htaken))
  exact ⟨c', res, out, hwrite, hwritten res c' out hwrite, hroom, hstuffed, hgood⟩

theorem packet_checked (p : List UInt8) : packet (checked p) = p := by
  rw [packet, checked]
  simp

theorem trans_ne (a : UInt8) : a ^^^ pppTrans ≠ a := by
  have hbytes : ∀ b : BitVec 8, (⟨b⟩ : UInt8) ^^^ pppTrans ≠ ⟨b⟩ := by decide +kernel
  exact hbytes a.toBitVec

/-- A byte of the packet was changed, not one of its check. -/
theorem packet_changed {before after p : List UInt8} {a b : UInt8} (hab : b ≠ a)
    (hp : checked p = before ++ a :: after) (hin : before.length < p.length) :
    packet (before ++ b :: after) ≠ p := by
  intro hpacket
  have hsum := congrArg List.length hp
  simp only [checked, List.length_append, List.length_cons, List.length_nil] at hsum
  have htwo : 2 ≤ (before ++ b :: after).length := by
    rw [List.length_append, List.length_cons]
    omega
  have hsame : (before ++ b :: after).take p.length = (before ++ a :: after).take p.length := by
    rw [← hp, checked, List.take_left, ← hpacket, packet, if_pos htwo]
    simp [List.length_append, List.length_cons]
  have hbyte := congrArg (·[before.length]?) hsame
  simp [hin, hab] at hbyte

/-- Where a read finds nothing right behind an escape, the frame is sent on with the
escaped byte as it came, though its check shows the change; the frames around it
are sent as they are. Reads that find nothing elsewhere make no difference. -/
theorem escape_lost {e : Host} {tid : UInt16} {c c' : Call} {reads : List Read}
    {ds fs gs : List (List UInt8)} {xs ys us vs : List (Symbol UInt8)}
    {before after cs p : List UInt8} {a : UInt8} (hstart : Starting c)
    (hrun : Run e tid c reads ds c' []) (hrbuf : c'.rbuf = [])
    (hreads : symbols reads = xs ++ (us ++ ([.put pppEscape, .gap] ++ vs)) ++ ys)
    (hp : checked p = before ++ a :: after) (hbefore : pppStuffing.Stuffed before (puts us))
    (hvs : puts vs = (a ^^^ pppTrans) :: (cs ++ [pppFlag]))
    (hafter : pppStuffing.Stuffed after cs) (htrans : pppStuffing.Ordinary (a ^^^ pppTrans))
    (hus : pppStuffing.Unsplit us) (hvs' : pppStuffing.Unsplit vs)
    (hxs : pppStuffing.Framed fs (puts xs)) (hcalm : pppStuffing.Unsplit xs)
    (hys : pppStuffing.Framed gs (puts ys)) (hcalm' : pppStuffing.Unsplit ys)
    (hfit : ∀ f ∈ checked p :: fs ++ gs, f.length ≤ room) :
    List.Forall₂ (SentAs tid c) ds
        (packets (fs ++ (before ++ (a ^^^ pppTrans) :: after) :: gs)) ∧
      (before ++ (a ^^^ pppTrans) :: after).foldl pppFcs pppInitFcs ≠ pppGoodFcs ∧
      (before.length < p.length → packet (before ++ (a ^^^ pppTrans) :: after) ≠ p) := by
  have hlength : (checked p).length = p.length + 2 := by simp [checked]
  have hsum := congrArg List.length hp
  rw [hlength, List.length_append, List.length_cons] at hsum
  refine ⟨?_, ?_, ?_⟩
  · obtain ⟨heard, hsplit, hsent, -⟩ := hrun.emitted (fun _ => hstart.idle)
    rw [hstart.rbuf, List.map_nil, List.nil_append, hrbuf] at hsplit
    obtain rfl : symbols reads = heard := by simpa [symbols] using hsplit
    have hfirst : pppStuffing.read room Reader.start xs = (Reader.start, fs) :=
      pppStuffing.read_frames hxs (fun f hf => hfit f (by simp [hf])) hcalm
    have hlast : pppStuffing.read room Reader.start ys = (Reader.start, gs) :=
      pppStuffing.read_frames hys (fun f hf => hfit f (by simp [hf])) hcalm'
    have hroom := hfit (checked p) (by simp)
    have hcut : read Reader.start (us ++ ([.put pppEscape, .gap] ++ vs)) =
        (Reader.start, [before ++ (a ^^^ pppTrans) :: after]) :=
      pppStuffing.read_cut hbefore hafter htrans hvs hus hvs' (by omega)
    have hread : read Reader.start (symbols reads) =
        (Reader.start, fs ++ (before ++ (a ^^^ pppTrans) :: after) :: gs) := by
      rw [read] at hcut ⊢
      rw [hreads, read_append, read_append, hfirst, hcut, hlast, List.append_assoc]
      rfl
    rw [hread] at hsent
    exact hsent
  · apply changed_not_good (trans_ne a).symm
    rw [← hp]
    exact checked_good p
  · exact packet_changed (trans_ne a) hp

/-- A pty that has nothing for a while behind an escape, and once more further on. -/
def splitPacket : List Read :=
  [.data 0x7e [0x7d], .nothing, .data 0x23 [0x21], .nothing, .data 0xa4 [0x7d, 0x35, 0x7e],
    .nothing]

theorem run_splitPacket : ∃ ds c',
    Run .little 7 (newCall (fun _ => 0) 5 9 true) splitPacket ds c' [] ∧ c'.rbuf = [] := by
  have hfirst : ∃ c₁, readPacket (newCall (fun _ => 0) 5 9 true) splitPacket =
        some (0, c₁, splitPacket.drop 2) ∧ c₁.needclose = false ∧
      ∃ c₂, readPacket c₁ (splitPacket.drop 2) = some (0, c₂, splitPacket.drop 4) ∧
        c₂.needclose = false ∧
        (readPacket c₂ (splitPacket.drop 4)).map
          (fun out => (out.1, out.2.1.rbuf, out.2.2)) = some (2, [], [.nothing]) :=
    ⟨_, rfl, rfl, _, rfl, rfl, by decide +kernel⟩
  obtain ⟨c₁, hfirst, hopen₁, c₂, hsecond, hopen₂, hthird⟩ := hfirst
  obtain ⟨⟨res, c₃, reads⟩, hthird, hout⟩ := Option.map_eq_some_iff.mp hthird
  simp only [Prod.mk.injEq] at hout
  obtain ⟨rfl, hrbuf, rfl⟩ := hout
  have hdrain : drain .little 7 c₂ _ = some (_, _, []) := drain_one hthird (by decide) hrbuf
  exact ⟨_, _, .wake rfl (drain_waits hfirst) (.wake hopen₁ (drain_waits hsecond)
    (.wake hopen₂ hdrain (.stop _ []))), hrbuf⟩

theorem escape_lost_one : ∃ ds,
    List.Forall₂ (SentAs 7 (newCall (fun _ => 0) 5 9 true)) ds
        (packets [[0x23, 0x21, 0xa4, 0x15]]) ∧
      [0x23, 0x21, 0xa4, 0x15].foldl pppFcs pppInitFcs ≠ pppGoodFcs ∧
      packet [0x23, 0x21, 0xa4, 0x15] ≠ [0x03, 0x21] := by
  obtain ⟨ds, c', hrun, hrbuf⟩ := run_splitPacket
  have hchecked : checked [0x03, 0x21] = [] ++ 0x03 :: [0x21, 0xa4, 0x15] := by decide +kernel
  have hreads : symbols splitPacket = [.put pppFlag] ++ ([] ++ ([.put pppEscape, .gap] ++
      [.put 0x23, .put 0x21, .gap, .put 0xa4, .put 0x7d, .put 0x35, .put 0x7e])) ++ [.gap] := rfl
  have hafter : pppStuffing.Stuffed [0x21, 0xa4, 0x15] [0x21, 0xa4, 0x7d, 0x35] :=
    .plain (by decide) (.plain (by decide) (.escaped (by decide) .nil))
  obtain ⟨hsent, hbad, hother⟩ := escape_lost (starting_newCall (fun _ => 0) 5 9 true) hrun
    hrbuf hreads hchecked .nil rfl hafter (by decide) (by decide) (by decide) (.flag .nil)
    (by decide) .nil (by decide) (by decide +kernel)
  exact ⟨ds, hsent, hbad, hother (by decide)⟩

end GameAcc.L2tp.Payload
