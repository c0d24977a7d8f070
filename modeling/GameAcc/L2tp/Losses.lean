import GameAcc.L2tp.Progress

/-!
Three ways the control connection falls short. A ZLB for a call that is gone
uses up the number of the peer's next message. A closing tunnel goes at the
first ZLB that counts up to its closing message, which the peer need not have
taken. And no acknowledgement frees the message numbered 65535.
-/

namespace GameAcc.L2tp

open GameAcc.NumberedChannel

namespace Link

theorem trace_isPrefix (l : Link) (moves : List Move) (s : Side) :
    l.trace s <+: (l.run moves).trace s := by
  have hkept : Kept fun l' => l.trace s <+: l'.trace s := by
    intro l' x out t hl _
    by_cases hx : s = x
    · subst hx
      rw [put_trace_self]
      exact hl.trans (List.prefix_append _ out)
    · simpa [put, hx] using hl
  exact hkept.run l moves (List.prefix_refl _)

theorem took_isPrefix (l : Link) (moves : List Move) (s : Side) :
    took (l.trace s) <+: took ((l.run moves).trace s) := by
  obtain ⟨more, hmore⟩ := trace_isPrefix l moves s
  rw [← hmore, took_append]
  exact List.prefix_append _ _

theorem run_append (l : Link) (first second : List Move) :
    l.run (first ++ second) = (l.run first).run second := List.foldl_append

/-- A ZLB that arrives in its turn for a call the tunnel no longer has makes
the tunnel pass over the next message of the other side: it is handed over in no
continuation of the run. -/
theorem gone_zlb_loses (moves rest : List Move) (s : Side) (index : Nat) (finish : List Act)
    (p : Packet) (hlive : ((initial.run moves).ends s.peer).destroyed = false)
    (hwire : (wire ((initial.run moves).trace s))[index]? = some p) (hzlb : p.body = [])
    (hturn : p.hdr.ns = ((initial.run moves).ends s.peer).controlRecSeqNum)
    (hgone : ((initial.run moves).ends s.peer).getCall p.hdr.cid = none)
    (hfresh : Fresh ((initial.run (moves ++ .deliver s.peer index finish :: rest)).trace s)) :
    (handed ((initial.run (moves ++ .deliver s.peer index finish :: rest)).trace s.peer)).Sublist
      ((sent ((initial.run (moves ++ .deliver s.peer index finish :: rest)).trace s)).eraseIdx
        (took ((initial.run moves).trace s.peer)).length) := by
  have hbodies := handedBodies (moves ++ .deliver s.peer index finish :: rest) s.peer
  have hfaithful := channel_faithful (moves ++ .deliver s.peer index finish :: rest) s hfresh
  have hgenuine := (numbered moves s).onWire p (List.mem_of_getElem? hwire)
  rw [run_append] at hbodies hfaithful ⊢
  generalize initial.run moves = l at *
  have hreceive := receive_next hgenuine.length hgenuine.sane hturn finish
  rw [if_pos hzlb, if_pos hgone] at hreceive
  have hskip : took ((l.exec (.deliver s.peer index finish)).trace s.peer) =
      took (l.trace s.peer) ++ [none] := by
    rw [exec_eq]
    simp only [Move.side, hlive, Bool.false_eq_true, if_false, put_trace_self, took_append,
      perform, Side.peer_peer, hwire, hreceive]
  obtain ⟨more, hmore⟩ := took_isPrefix (l.exec (.deliver s.peer index finish)) rest s.peer
  have hskipped : (took ((l.run (.deliver s.peer index finish :: rest)).trace s.peer))[
      (took (l.trace s.peer)).length]? = some none := by
    have hrun : l.run (.deliver s.peer index finish :: rest) =
        (l.exec (.deliver s.peer index finish)).run rest := rfl
    rw [hrun, ← hmore, hskip, List.append_assoc, List.getElem?_append_right (Nat.le_refl _)]
    simp
  exact (handed_sublist hbodies).trans
    (reduceOption_sublist_eraseIdx hfaithful.genuine hskipped)

/-- A call is set up and closed on one side only, whose last acknowledgement
arrives a second time. -/
def repeatedAck : List Move :=
  [.act .lac (.add 5), .act .lac (.assignCid (.member 5) 7),
    .act .lns (.add 7), .act .lns (.assignCid (.member 7) 5),
    .act .lns (.send (.member 7) (single 1)), .deliver .lac 0 [], .deliver .lns 0 [],
    .act .lns (.peerClosed (.member 7)), .sweep .lns (.member 7) (single 14)]

/-- The message is answered by an acknowledgement and freed, and nobody has
seen it. -/
def unseen : List Move :=
  [.act .lac (.send .self (single 2)), .deliver .lns 1 [], .deliver .lac 1 [],
    .timer .lac 0 (single 4)]

theorem gone_zlb_loses_unseen :
    sent ((initial.run (repeatedAck ++ .deliver .lns 0 [] :: unseen)).trace .lac) = [[2]] ∧
      ((initial.run (repeatedAck ++ .deliver .lns 0 [] :: unseen)).ends .lac).events = [] ∧
      (handed ((initial.run (repeatedAck ++ .deliver .lns 0 [] :: unseen)).trace .lns)).Sublist
        ((sent ((initial.run (repeatedAck ++ .deliver .lns 0 [] :: unseen)).trace .lac)).eraseIdx
          (took ((initial.run repeatedAck).trace .lns)).length) :=
  ⟨by decide, by decide, gone_zlb_loses repeatedAck unseen .lac 0 []
    ((wire ((initial.run repeatedAck).trace .lac)).get ⟨0, by decide⟩) (by decide) (by decide)
    (by decide) (by decide) (by decide) (by unfold Fresh; decide)⟩

end Link

/-- The tunnel after a ZLB for itself, in its turn, while it waits for the
acknowledgement of its closing message. -/
theorem receive_zlb_closing {t : Tunnel} {p : Packet} (hlen : p.len = p.hdr.length.toNat)
    (hsane : sane p.hdr.ver = true) (hnext : p.hdr.ns = t.controlRecSeqNum) (hzlb : p.body = [])
    (hself : p.hdr.cid = 0) (hneed : t.self.needclose = true) (hclosing : t.self.closing = true)
    (finish : List Act) :
    (receive t p finish).1.self.closing = true ∧
      (receive t p finish).1.destroyed = t.destroyed ∧
      ((receive t p finish).1.self.needclose = true ↔ p.hdr.nr.toNat < t.self.closeSs.toNat) := by
  have hshort : p.len = 12 := by simp [Packet.len, hzlb]
  have hcheck : checkControl t .self (t.cidOf .self) p =
      (.fine, { (t.setCall .self fun c => { c with cnu := true }) with
        controlRecSeqNum := t.controlRecSeqNum + 1, cLr := p.hdr.nr.toNat }, []) := by
    unfold checkControl
    rw [if_neg (not_not.mpr hlen), if_neg (not_not.mpr hnext)]
    simp only [hsane, Bool.not_true, Bool.and_false, Bool.false_eq_true, if_false]
    rfl
  have hcall : t.getCall p.hdr.cid = some .self := by simp [Tunnel.getCall, hself]
  by_cases hreached : t.self.closeSs.toNat ≤ p.hdr.nr.toNat
  · simp [receive, hcall, handlePacket, hcheck, hshort, Tunnel.setCall, Tunnel.call?, hneed,
      hclosing, hreached]
  · simp [receive, hcall, handlePacket, hcheck, hshort, Tunnel.setCall, Tunnel.call?, hneed,
      hclosing, hreached]
    omega

namespace Link

/-- A tunnel that waits for the acknowledgement of its closing message goes
with the next ZLB exactly when that counts up to the message. Only if it counts
further has the other side taken the message. -/
theorem closing_ends (moves : List Move) (s : Side) (index : Nat) (finish : List Act)
    (body : Body) (p : Packet) (hlive : ((initial.run moves).ends s).destroyed = false)
    (hneed : ((initial.run moves).ends s).self.needclose = true)
    (hclosing : ((initial.run moves).ends s).self.closing = true)
    (hwire : (wire ((initial.run moves).trace s.peer))[index]? = some p) (hzlb : p.body = [])
    (hself : p.hdr.cid = 0)
    (hturn : p.hdr.ns = ((initial.run moves).ends s).controlRecSeqNum) :
    ((((initial.run moves).run [.deliver s index finish, .sweep s .self body]).ends s).destroyed =
        true ↔ ((initial.run moves).ends s).self.closeSs.toNat ≤ p.hdr.nr.toNat) ∧
      (((initial.run moves).ends s).self.closeSs.toNat < p.hdr.nr.toNat →
        ((initial.run moves).ends s).self.closeSs.toNat <
          (took ((initial.run moves).trace s.peer)).length) := by
  have hgenuine := (numbered moves s.peer).onWire p (List.mem_of_getElem? hwire)
  generalize initial.run moves = l at *
  refine ⟨?_, ?_⟩
  · obtain ⟨hclosing', hlive', hneed'⟩ :=
      receive_zlb_closing hgenuine.length hgenuine.sane hturn hzlb hself hneed hclosing finish
    have hdeliver : l.exec (.deliver s index finish) =
        l.put s (receive (l.ends s) p finish).1 (receive (l.ends s) p finish).2 := by
      rw [exec_eq]
      simp [Move.side, hlive, perform, hwire]
    simp only [run, List.foldl_cons, List.foldl_nil, hdeliver]
    rw [exec_eq]
    simp only [Move.side, put_ends_self, hlive', hlive, Bool.false_eq_true, if_false, perform,
      buildFdset, Tunnel.call?, hclosing']
    by_cases hreached : (l.ends s).self.closeSs.toNat ≤ p.hdr.nr.toNat
    · have hdone : (receive (l.ends s) p finish).1.self.needclose = false := by
        rw [Bool.eq_false_iff, Ne, hneed']
        omega
      simp [hdone, callClose, callCloseSelf, hclosing', hreached]
    · have hwait : (receive (l.ends s) p finish).1.self.needclose = true := hneed'.mpr (by omega)
      simp [hwait, hlive', hlive, hreached]
  · intro hfurther
    obtain ⟨m, hm, hnr⟩ := hgenuine.nr
    rw [hnr, UInt16.toNat_ofNat'] at hfurther
    have := Nat.mod_le m (2 ^ 16)
    omega

/-- A message is acknowledged while the closing message that follows it is
lost. -/
def lostClosing : List Move :=
  [.act .lac (.send .self (single 1)), .act .lac (.wantClose .self),
    .sweep .lac .self (single 4), .deliver .lns 0 []]

theorem closing_ends_early :
    (((initial.run lostClosing).run
        [.deliver .lac 0 [], .sweep .lac .self (single 4)]).ends .lac).destroyed = true ∧
      took ((initial.run lostClosing).trace .lns) = [some [1]] ∧
      sent ((initial.run lostClosing).trace .lac) = [[1], [4]] :=
  ⟨(closing_ends lostClosing .lac 0 [] (single 4)
    ((wire ((initial.run lostClosing).trace .lns)).get ⟨0, by decide⟩) (by decide) (by decide)
    (by decide) (by decide) (by decide) (by decide) (by decide)).1.mpr (by decide),
    by decide, by decide⟩

end Link

/-- The last number of all stays scheduled until its tunnel closes. -/
structure LastPending (t : Tunnel) (tr : List Event) : Prop where
  cLr : t.cLr ≤ 65535
  retries : ∀ buf ∈ t.events, buf.retries ≤ maxRetries
  last : 65536 ≤ (sent tr).length →
    (∃ buf ∈ t.events, buf.ns = 65535) ∨ t.self.closing = true

theorem LastPending.effect {arrives : Packet → Prop} {t t' : Tunnel} {tr out : List Event}
    (h : LastPending t tr) (hnumbered : Numbered t tr) (heffect : Effect arrives t out t') :
    LastPending t' (tr ++ out) := by
  have hnr : ∀ p : Packet, p.hdr.nr.toNat ≤ 65535 := fun p => by
    have := p.hdr.nr.toNat_lt
    omega
  -- an effect that numbers nothing and keeps what is scheduled
  have hkeep : t'.cLr ≤ 65535 → (sent out).length = 0 → t'.events = t.events →
      LastPending t' (tr ++ out) := by
    intro hcLr hsent hevents
    refine ⟨hcLr, hevents ▸ h.retries, ?_⟩
    intro hlong
    rw [sent_append, List.length_append, hsent, Nat.add_zero] at hlong
    rw [hevents]
    exact (h.last hlong).imp id heffect.closing
  cases heffect with
  | note _ hsame => exact hkeep (hsame.cLr ▸ h.cLr) rfl hsame.events
  | send cid body =>
    rw [sendMessage_eq]
    split
    · rename_i hahead
      refine ⟨h.cLr, h.retries, ?_⟩
      intro hlong
      have hcount : (sent (tr ++ [.queued body.val, .tossed t.controlSeqNum])).length =
          (sent tr).length + 1 := by
        simp [sent]
      have hcLr := h.cLr
      rw [hnumbered.seq, UInt16.toNat_ofNat'] at hahead
      rw [hcount] at hlong
      exact h.last (by omega)
    · refine ⟨h.cLr, ?_, ?_⟩
      · intro buf hbuf
        rcases List.mem_append.mp hbuf with hold | hnew
        · exact h.retries buf hold
        · rw [List.mem_singleton] at hnew
          subst hnew
          exact (by decide : 1 ≤ maxRetries)
      · intro hlong
        have hcount : (sent (tr ++ [.queued body.val,
            .wire (addControlHdr t cid body.val).1])).length = (sent tr).length + 1 := by
          simp [sent]
        rw [hcount] at hlong
        by_cases hbefore : 65536 ≤ (sent tr).length
        · rcases h.last hbefore with ⟨buf, hbuf, hns⟩ | hclosing
          · exact .inl ⟨buf, List.mem_append_left _ hbuf, hns⟩
          · exact .inr hclosing
        · have hlast : (sent tr).length = 65535 := by omega
          left
          refine ⟨_, List.mem_append_right _ (List.mem_singleton_self _), ?_⟩
          have hseq := hnumbered.seq
          rw [hlast] at hseq
          exact hseq
  | resend front back buf hevents _ hretries =>
    refine ⟨h.cLr, ?_, ?_⟩
    · intro b hb
      rcases List.mem_append.mp hb with hold | hnew
      · apply h.retries
        rw [hevents]
        rcases List.mem_append.mp hold with hfront | hback
        · exact List.mem_append_left _ hfront
        · exact List.mem_append_right _ (List.mem_cons_of_mem _ hback)
      · rw [List.mem_singleton] at hnew
        subst hnew
        exact hretries
    · intro hlong
      rcases h.last (by simpa [sent] using hlong) with ⟨b, hb, hns⟩ | hclosing
      · left
        rw [hevents] at hb
        rcases List.mem_append.mp hb with hfront | hrest
        · exact ⟨b, List.mem_append_left _ (List.mem_append_left _ hfront), hns⟩
        · rcases List.mem_cons.mp hrest with rfl | hback
          · exact ⟨_, List.mem_append_right _ (List.mem_singleton_self _), hns⟩
          · exact ⟨b, List.mem_append_left _ (List.mem_append_right _ hback), hns⟩
      · exact .inr hclosing
  | toss front back buf hevents hacked =>
    have hrest : ∀ b ∈ front ++ back, b ∈ t.events := by
      intro b hb
      rw [hevents]
      rcases List.mem_append.mp hb with hfront | hback
      · exact List.mem_append_left _ hfront
      · exact List.mem_append_right _ (List.mem_cons_of_mem _ hback)
    refine ⟨h.cLr, fun b hb => h.retries b (hrest b hb), ?_⟩
    intro hlong
    rcases h.last (by simpa [sent] using hlong) with ⟨b, hb, hns⟩ | hclosing
    · left
      -- no count reaches beyond the last number
      have hcLr := h.cLr
      have hother : b ≠ buf := by
        rintro rfl
        have hnat : b.packet.hdr.ns.toNat = 65535 := congrArg UInt16.toNat hns
        omega
      rw [hevents] at hb
      rcases List.mem_append.mp hb with hfront | hback
      · exact ⟨b, List.mem_append_left _ hfront, hns⟩
      · exact ⟨b, List.mem_append_right _ ((List.mem_cons.mp hback).resolve_left hother), hns⟩
    · exact .inr hclosing
  | clear => exact ⟨h.cLr, by simp, fun _ => .inr rfl⟩
  | zlb cid => exact hkeep h.cLr rfl rfl
  | take p _ _ _ _ => exact hkeep (hnr p) rfl rfl
  | ack p _ _ => exact hkeep (hnr p) rfl rfl

/-- The timer of a message that is not acknowledged sends it again or, when it
has been sent five times, starts to close the tunnel. -/
theorem controlXmit_unacked (stop : Body) (t : Tunnel) (buf : Buffer)
    (hunacked : t.cLr ≤ buf.packet.hdr.ns.toNat) :
    if buf.retries < maxRetries then
      { buf with retries := buf.retries + 1 } ∈ (controlXmit stop t buf).1.events
    else (controlXmit stop t buf).1.self.closing = true := by
  have hclose : ∀ t : Tunnel, (callCloseSelf stop t).1.self.closing = true := by
    intro t
    simp only [callCloseSelf]
    split
    · assumption
    · rfl
  have hnot : ¬ buf.packet.hdr.ns.toNat < t.cLr := by omega
  simp only [controlXmit, controlXmitWith, if_neg hnot]
  by_cases hretries : buf.retries < maxRetries
  · have hmore : ¬ buf.retries + 1 > maxRetries := by omega
    simp [hretries, hmore]
  · have hmore : buf.retries + 1 > maxRetries := by omega
    simp only [hretries, hmore, if_true, if_false]
    split <;> exact hclose _

namespace Link

theorem lastPending (moves : List Move) (s : Side) :
    LastPending ((initial.run moves).ends s) ((initial.run moves).trace s) :=
  ((kept_of_side LastPending.effect).run initial moves (fun _ => ⟨Numbered.new, by
    constructor <;> simp [initial, newTunnel, sent]⟩) s).2

/-- A side that has numbered 65536 messages is closing, or has the last of them
scheduled. Nothing frees that one: its timer sends it again, and when it has
been sent five times closes the tunnel. -/
theorem wrap_closes (moves : List Move) (s : Side)
    (hlong : 65536 ≤ (sent ((initial.run moves).trace s)).length) :
    ((initial.run moves).ends s).self.closing = true ∨
      ∃ index buf, ((initial.run moves).ends s).events[index]? = some buf ∧ buf.ns = 65535 ∧
        ∀ stop, ((initial.run moves).ends s).destroyed = false →
          if buf.retries < maxRetries then
            { buf with retries := buf.retries + 1 } ∈
              (((initial.run moves).exec (.timer s index stop)).ends s).events
          else (((initial.run moves).exec (.timer s index stop)).ends s).self.closing = true := by
  have hinv := lastPending moves s
  generalize initial.run moves = l at *
  rcases hinv.last hlong with ⟨buf, hbuf, hns⟩ | hclosing
  · right
    obtain ⟨index, hindex, hat⟩ := List.getElem_of_mem hbuf
    have hsome : (l.ends s).events[index]? = some buf := by
      rw [List.getElem?_eq_getElem hindex, hat]
    refine ⟨index, buf, hsome, hns, ?_⟩
    intro stop hlive
    have hunacked : (l.ends s).cLr ≤ buf.packet.hdr.ns.toNat := by
      have hnat : buf.packet.hdr.ns.toNat = 65535 := congrArg UInt16.toNat hns
      have := hinv.cLr
      omega
    have hxmit := controlXmit_unacked stop
      { l.ends s with events := (l.ends s).events.eraseIdx index } buf hunacked
    rw [exec_eq]
    simpa only [Move.side, hlive, Bool.false_eq_true, if_false, put_ends_self, perform, hsome]
      using hxmit
  · exact .inl hclosing

/-- One message after the other, without any answer. -/
def hellos (s : Side) (n : Nat) : List Move :=
  List.replicate n (.act s (.send .self (single 6)))

theorem sent_hellos (l : Link) (s : Side) (n : Nat) (hlive : (l.ends s).destroyed = false) :
    (sent ((l.run (hellos s n)).trace s)).length = (sent (l.trace s)).length + n := by
  induction n generalizing l with
  | zero => rfl
  | succ n ih =>
    let hello : Body := single 6
    have hexec : l.exec (.act s (.send .self hello)) =
        l.put s (sendMessage (l.ends s) ((l.ends s).cidOf .self) hello).1
          (sendMessage (l.ends s) ((l.ends s).cidOf .self) hello).2 := by
      rw [exec_eq]
      simp [Move.side, hlive, perform, act]
    have hlive' : ((l.exec (.act s (.send .self hello))).ends s).destroyed = false := by
      rw [hexec, put_ends_self, sendMessage_eq]
      split <;> exact hlive
    have hone : (sent ((l.exec (.act s (.send .self hello))).trace s)).length =
        (sent (l.trace s)).length + 1 := by
      rw [hexec, put_trace_self, sendMessage_eq]
      split <;> simp [sent]
    have hrest := ih (l.exec (.act s (.send .self hello))) hlive'
    have hrun : l.run (hellos s (n + 1)) =
        (l.exec (.act s (.send .self hello))).run (hellos s n) := rfl
    rw [hrun, hrest, hone]
    omega

theorem wrap_closes_hellos :
    ((initial.run (hellos .lac 65536)).ends .lac).self.closing = true ∨
      ∃ (index : Nat) (buf : Buffer),
        ((initial.run (hellos .lac 65536)).ends .lac).events[index]? = some buf ∧
          buf.ns = 65535 := by
  have hcount := sent_hellos initial .lac 65536 rfl
  have hlong : 65536 ≤ (sent ((initial.run (hellos .lac 65536)).trace .lac)).length := by omega
  rcases wrap_closes (hellos .lac 65536) .lac hlong with hclosing | ⟨index, buf, hat, hns, -⟩
  · exact .inl hclosing
  · exact .inr ⟨index, buf, hat, hns⟩

end Link

end GameAcc.L2tp
