import GameAcc.L2tp.PayloadReceive

/-!
Two daemons between two `pppd`s. One reads the frames of its `pppd` from a pty and
sends their packets; the network loses, repeats and reorders the datagrams, and other
traffic comes between them; the other daemon writes what arrives to the pty of its
own `pppd`.
-/

namespace GameAcc.L2tp.Payload

open Memory Stuffing

/-- The bytes the pty of a call got. -/
def outputFor (id : UInt16 × UInt16) (log : List ((UInt16 × UInt16) × List UInt8)) : List UInt8 :=
  (log.filter (·.1 = id)).flatMap (·.2)

/-- A datagram of the other daemon's: a packet that is not too large, with a header
that has no sequence numbers. -/
def OwnPacket (tid cid : UInt16) (lbit : Bool) (d p : List UInt8) : Prop :=
  p ≠ [] ∧ p.length ≤ 2044 ∧ ∃ ns nr, d = header tid cid lbit false ns nr p.length ++ p

section Receiving

variable {e : Host} {tid cid : UInt16} {lbit sanity : Bool} {ts ts' : List Tunnel} {x : Arrival}
  {out : List UInt8}

theorem handlePacket_ourcid {b : Buffer} {c c' : Call} {ws : List Wrote} {res : ℤ}
    (h : handlePacket e sanity b c ws = some (res, c', out)) : c'.ourcid = c.ourcid := by
  have hwrite {b : Buffer} {c : Call} (h : writePacket e b c ws = some (res, c', out)) :
      c'.ourcid = c.ourcid := by
    rw [writePacket] at h
    split at h
    · cases h
      rfl
    · split at h
      · cases h
        rfl
      · obtain ⟨⟨bytes, all⟩, -, hout⟩ := Option.map_eq_some_iff.mp h
        cases all <;> cases hout <;> rfl
  rw [handlePacket] at h
  split at h
  · cases h
    rfl
  · split at h
    · cases h
      rfl
    · rename_i b₁ c₁ hexpand
      have hsame : c₁.ourcid = c.ourcid := by
        simp only [expandPayload, Option.bind_eq_bind, Option.bind_eq_some_iff, Option.pure_def,
          Option.some.injEq, Prod.mk.injEq] at hexpand
        obtain ⟨b₂, -, c₂, hsequence, -, rfl⟩ := hexpand
        simp only [checkSequence] at hsequence
        split at hsequence
        · split at hsequence
          · cases hsequence
          · split at hsequence <;> cases hsequence
            rfl
        · cases hsequence
          rfl
      split at h
      · exact (hwrite h).trans hsame
      · split at h <;> cases h <;> exact hsame

/-- A packet of the other daemon's comes out as a frame, and the call stays open. -/
theorem receive_own {p : List UInt8} {c : Call} (hown : OwnPacket tid cid lbit x.datagram p)
    (hcall : getCall ts tid cid = some (sanity, c)) (hopen : c.fd = true)
    (hfail : Wrote.fail ∉ x.writes) (hreceive : receive e ts x = some (ts', out)) :
    out = frame p ∧ ∃ c', getCall ts' tid cid = some (sanity, c') ∧ c'.fd = true := by
  obtain ⟨hne, hp, ns, nr, hx⟩ := hown
  obtain ⟨hword, -, haddress⟩ := word_own (e := e) hx hp
  have hlen := len_own (e := e) hx hp
  have hstart : (x.fixed e).start = payloadBuf := rfl
  have hlong : ¬ ((x.fixed e).len < minPayloadHdrLen ∨
      ptBit (word e (x.fixed e).mem (x.fixed e).start) = true) := by
    rw [hstart, hword, (hdrVer_bits e lbit).1, hlen, minPayloadHdrLen, hdrLen]
    simp only [Bool.false_eq_true, or_false]
    omega
  simp only [receive, if_neg hlong, haddress, hcall] at hreceive
  obtain ⟨⟨res, c', bytes⟩, hhandle, hout⟩ := Option.map_eq_some_iff.mp hreceive
  simp only [Prod.mk.injEq] at hout
  obtain ⟨rfl, rfl⟩ := hout
  have hid := handlePacket_ourcid hhandle
  obtain ⟨expected, pLr, pnu, hwritten⟩ := handlePacket_own hx hp hne hopen hhandle
  cases hwritten with
  | whole => exact ⟨rfl, _, getCall_setCall_self hcall hid, hopen⟩
  | refused hfits =>
    rw [fits_checked hp] at hfits
    cases hfits
  | failed _ _ _ hmem => exact absurd hmem hfail

/-- What is for another call does not touch this one. -/
theorem receive_other (haddress : x.address e ≠ (tid, cid))
    (hreceive : receive e ts x = some (ts', out)) : getCall ts' tid cid = getCall ts tid cid := by
  rw [receive] at hreceive
  split at hreceive
  · cases hreceive
    rfl
  · split at hreceive
    · cases hreceive
      rfl
    · rename_i sanity' c hcall
      obtain ⟨⟨res, c', bytes⟩, hhandle, hout⟩ := Option.map_eq_some_iff.mp hreceive
      cases hout
      obtain ⟨-, -, -, -, hourcid⟩ := getCall_some hcall
      exact getCall_setCall_other ((handlePacket_ourcid hhandle).trans hourcid)
        (fun h => haddress h.symm)

end Receiving

/-- Among any other traffic, the pty of a call gets the frames of the packets that
arrive for it, one after another. -/
theorem receiveAll_own {e : Host} {tid cid : UInt16} {lbit sanity : Bool} {ts ts' : List Tunnel}
    {xs : List Arrival} {log : List ((UInt16 × UInt16) × List UInt8)} {c : Call}
    (hcall : getCall ts tid cid = some (sanity, c)) (hopen : c.fd = true)
    (harrive : ∀ x ∈ xs, (∃ p, OwnPacket tid cid lbit x.datagram p) ∧ Wrote.fail ∉ x.writes ∨
      x.address e ≠ (tid, cid))
    (hreceive : receiveAll e ts xs = some (ts', log)) :
    ∃ qs, List.Forall₂ (OwnPacket tid cid lbit)
        ((xs.filter (fun x => x.address e = (tid, cid))).map Arrival.datagram) qs ∧
      outputFor (tid, cid) log = qs.flatMap frame := by
  induction xs generalizing ts c log with
  | nil =>
    cases hreceive
    exact ⟨[], .nil, rfl⟩
  | cons x xs ih =>
    obtain ⟨⟨ts₁, out⟩, hfirst, hrest⟩ := Option.bind_eq_some_iff.mp hreceive
    obtain ⟨⟨ts₂, log₁⟩, hlater, hlog⟩ := Option.map_eq_some_iff.mp hrest
    cases hlog
    have hothers := fun y hy => harrive y (List.mem_cons_of_mem x hy)
    by_cases haddress : x.address e = (tid, cid)
    · rcases harrive x List.mem_cons_self with ⟨⟨p, hown⟩, hfail⟩ | hforeign
      · obtain ⟨rfl, c', hcall', hopen'⟩ := receive_own hown hcall hopen hfail hfirst
        obtain ⟨qs, hqs, houtput⟩ := ih hcall' hopen' hothers hlater
        refine ⟨p :: qs, ?_, ?_⟩
        · rw [List.filter_cons_of_pos (by simpa using haddress), List.map_cons]
          exact .cons hown hqs
        · rw [outputFor, List.filter_cons_of_pos (by simpa using haddress), List.flatMap_cons,
            List.flatMap_cons, ← houtput]
          rfl
      · exact absurd haddress hforeign
    · rw [← receive_other haddress hfirst] at hcall
      obtain ⟨qs, hqs, houtput⟩ := ih hcall hopen hothers hlater
      refine ⟨qs, ?_, ?_⟩
      · rw [List.filter_cons_of_neg (by simpa using haddress)]
        exact hqs
      · rw [outputFor, List.filter_cons_of_neg (by simpa using haddress)]
        exact houtput

theorem OwnPacket.unique {tid cid : UInt16} {lbit : Bool} {d p q : List UInt8}
    (hp : OwnPacket tid cid lbit d p) (hq : OwnPacket tid cid lbit d q) : p = q := by
  obtain ⟨-, -, ns, nr, hp⟩ := hp
  obtain ⟨-, -, ns', nr', hq⟩ := hq
  have hdrop := congrArg (List.drop (hdrLen lbit false)) (hp.symm.trans hq)
  rwa [List.drop_left' (length_header ..), List.drop_left' (length_header ..)] at hdrop

theorem forall₂_exists {α β : Type} {R : α → β → Prop} {xs : List α} {ys : List β}
    (h : List.Forall₂ R xs ys) {x : α} (hx : x ∈ xs) : ∃ y ∈ ys, R x y := by
  induction h with
  | nil => cases hx
  | cons hfirst _ ih =>
    rcases List.mem_cons.mp hx with rfl | hx
    · exact ⟨_, List.mem_cons_self, hfirst⟩
    · obtain ⟨y, hy, hR⟩ := ih hx
      exact ⟨y, List.mem_cons_of_mem _ hy, hR⟩

theorem packets_checked {ps : List (List UInt8)} (hps : ∀ p ∈ ps, p ≠ []) :
    packets (ps.map checked) = ps := by
  rw [packets, List.map_map, show packet ∘ checked = id from funext packet_checked, List.map_id,
    List.filter_eq_self]
  simpa using hps

theorem framed_frames (ps : List (List UInt8)) :
    pppStuffing.Framed (ps.map checked) (ps.flatMap frame) := by
  induction ps with
  | nil => exact .nil
  | cons p ps ih =>
    have hne : checked p ≠ [] := by simp [checked]
    have hframe : frame p ++ ps.flatMap frame =
        pppFlag :: (stuffed (checked p) ++ pppFlag :: ps.flatMap frame) := by
      simp [frame]
    rw [List.flatMap_cons, List.map_cons, hframe]
    exact .flag (.frame hne (stuffed_stuffed _) ih)

/-- What a daemon sends are packets of its own, some of those its `pppd` wrote, and
all of them once all was read. -/
theorem sent_own {e : Host} {tid : UInt16} {a a' : Call} {reads reads' : List Read}
    {ds ps : List (List UInt8)} (hstart : Starting a) (hfbit : a.fbit = false)
    (hourfbit : a.ourfbit = false) (hrun : Run e tid a reads ds a' reads')
    (hframed : pppStuffing.Framed (ps.map checked) (puts (symbols reads)))
    (hunsplit : pppStuffing.Unsplit (symbols reads)) (hps : ∀ p ∈ ps, p ≠ [] ∧ p.length ≤ 2044) :
    ∃ ps', ps' <+: ps ∧ List.Forall₂ (OwnPacket tid a.cid a.lbit) ds ps' ∧
      (a'.rbuf = [] → reads' = [] → ps' = ps) := by
  have hfit : ∀ f ∈ ps.map checked, f.length ≤ room := by
    intro f hf
    obtain ⟨p, hp, rfl⟩ := List.mem_map.mp hf
    have := (hps p hp).2
    simp only [checked, List.length_append, List.length_cons, List.length_nil, room]
    omega
  obtain ⟨fs, hfs, hsent, hall⟩ := sent_frames hstart hrun hframed hfit hunsplit
  obtain ⟨ps', hps', rfl⟩ := List.prefix_map_iff.mp hfs
  rw [packets_checked (fun p hp => (hps p (hps'.subset hp)).1)] at hsent
  refine ⟨ps', hps', ?_, fun hrbuf hreads => ?_⟩
  · obtain ⟨hlength, hzip⟩ := List.forall₂_iff_zip.mp hsent
    refine List.forall₂_iff_zip.mpr ⟨hlength, fun {d p} hmem => ?_⟩
    obtain ⟨hne, hp⟩ := hps p (hps'.subset (List.of_mem_zip hmem).2)
    obtain ⟨ns, nr, hd⟩ := hzip hmem
    rw [hfbit, hourfbit] at hd
    exact ⟨hne, hp, ns, nr, hd⟩
  · have hmap := hall hrbuf hreads
    have hlength := congrArg List.length hmap
    rw [List.length_map, List.length_map] at hlength
    exact hps'.eq_of_length hlength

/-- What comes out of the second pty are frames, with the right check, of packets that
went into the first; and where every datagram gets through, in order and once, they
are all of them. -/
theorem carried {e e' : Host} {tid : UInt16} {a a' b : Call} {reads reads' : List Read}
    {ds ps : List (List UInt8)} {ts ts' : List Tunnel} {sanity : Bool} {xs : List Arrival}
    {log : List ((UInt16 × UInt16) × List UInt8)} (hstart : Starting a) (hfbit : a.fbit = false)
    (hourfbit : a.ourfbit = false) (hrun : Run e tid a reads ds a' reads')
    (hframed : pppStuffing.Framed (ps.map checked) (puts (symbols reads)))
    (hunsplit : pppStuffing.Unsplit (symbols reads)) (hps : ∀ p ∈ ps, p ≠ [] ∧ p.length ≤ 2044)
    (hcall : getCall ts tid a.cid = some (sanity, b)) (hopen : b.fd = true)
    (harrive : ∀ x ∈ xs,
      x.datagram ∈ ds ∧ Wrote.fail ∉ x.writes ∨ x.address e' ≠ (tid, a.cid))
    (hreceive : receiveAll e' ts xs = some (ts', log)) :
    ∃ qs, (∀ q ∈ qs, q ∈ ps) ∧
      pppStuffing.Framed (qs.map checked) (outputFor (tid, a.cid) log) ∧
      (∀ q ∈ qs, (checked q).foldl pppFcs pppInitFcs = pppGoodFcs) ∧
      ((xs.filter (fun x => x.address e' = (tid, a.cid))).map Arrival.datagram = ds →
        a'.rbuf = [] → reads' = [] → qs = ps) := by
  obtain ⟨ps', hps', hsent, hall⟩ :=
    sent_own hstart hfbit hourfbit hrun hframed hunsplit hps
  obtain ⟨qs, hqs, houtput⟩ := receiveAll_own hcall hopen (fun x hx => (harrive x hx).imp
    (fun h => ⟨(forall₂_exists hsent h.1).imp fun p hp => hp.2, h.2⟩) id) hreceive
  refine ⟨qs, fun q hq => ?_, houtput ▸ framed_frames qs, fun q _ => checked_good q, ?_⟩
  · obtain ⟨d, hd, hown⟩ := forall₂_exists hqs.flip hq
    obtain ⟨x, hx, rfl⟩ := List.mem_map.mp hd
    obtain ⟨hmem, haddress⟩ := List.mem_filter.mp hx
    rcases harrive x hmem with ⟨hds, -⟩ | hforeign
    · obtain ⟨p, hp, hown'⟩ := forall₂_exists hsent hds
      rw [OwnPacket.unique hown hown']
      exact hps'.subset hp
    · exact absurd (by simpa using haddress) hforeign
  · intro hdatagrams hrbuf hreads
    rw [hdatagrams] at hqs
    have hunique : Relator.RightUnique (OwnPacket tid a.cid a.lbit) :=
      fun _ _ _ => OwnPacket.unique
    rw [List.right_unique_forall₂' hunique hqs hsent, hall hrbuf hreads]

/-- The datagram of one packet, for a pty that takes it in two pieces. -/
def oneArrival : Arrival :=
  { stale := fun _ => 0xaa, datagram := header 7 9 true false 0 0 2 ++ [0x03, 0x21],
    writes := [.bytes 3, .again, .bytes 100] }

theorem carried_one : ∃ qs log, (∀ q ∈ qs, q ∈ [[0x03, 0x21]]) ∧
    pppStuffing.Framed (qs.map checked) (outputFor (7, 9) log) ∧
    (∀ q ∈ qs, (checked q).foldl pppFcs pppInitFcs = pppGoodFcs) ∧ qs = [[0x03, 0x21]] := by
  obtain ⟨a', hrun, hrbuf⟩ := run_onePacket
  have hframed := framed_frames [[0x03, 0x21]]
  have hframe : [[0x03, 0x21]].flatMap frame = puts (symbols onePacket) := by decide +kernel
  rw [hframe] at hframed
  have hdone : (receiveAll .big [⟨7, true, [newCall (fun _ => 0) 9 5 true]⟩]
      [oneArrival]).isSome = true := by
    decide +kernel
  obtain ⟨⟨ts', log⟩, hreceive⟩ := Option.isSome_iff_exists.mp hdone
  have haddress : oneArrival.address .big = (7, 9) := by decide +kernel
  have harrive : ∀ x ∈ [oneArrival], x.datagram ∈ [header 7 9 true false 0 0 2 ++ [0x03, 0x21]] ∧
      Wrote.fail ∉ x.writes ∨ x.address .big ≠ (7, 9) := by
    intro x hx
    rw [List.mem_singleton.mp hx]
    exact .inl ⟨List.mem_singleton.mpr rfl, by decide⟩
  obtain ⟨qs, hmem, hout, hgood, hall⟩ := carried (starting_newCall (fun _ => 0) 5 9 true) rfl rfl
    hrun hframed (by decide) (by decide) rfl rfl harrive hreceive
  refine ⟨qs, log, hmem, hout, hgood, hall ?_ hrbuf rfl⟩
  rw [List.filter_cons_of_pos (by rw [decide_eq_true_eq]; exact haddress)]
  rfl

end GameAcc.L2tp.Payload
