import GameAcc.L2tp.Link

/-!
Everything a tunnel does, cut into small effects: a message is sent for the
first time, sent again or given up as acknowledged; the transmissions are
cleared because the tunnel closes; a ZLB leaves; a message is taken or an
acknowledgement noted. Every function of the tunnel is a sequence of these, so
what each of them keeps holds over all runs.
-/

namespace GameAcc.L2tp

/-- Flags, calls and the peer's numbers may differ; a closing tunnel stays one. -/
structure SameNumbers (t t' : Tunnel) : Prop where
  seq : t'.controlSeqNum = t.controlSeqNum
  expected : t'.controlRecSeqNum = t.controlRecSeqNum
  cLr : t'.cLr = t.cLr
  events : t'.events = t.events
  closing : t.self.closing = true → t'.self.closing = true

/-- One small effect on a tunnel that may find the packets of `arrives` in its
socket. -/
inductive Effect (arrives : Packet → Prop) : Tunnel → List Event → Tunnel → Prop
  | note (t t' : Tunnel) (hsame : SameNumbers t t') : Effect arrives t [] t'
  | send (t : Tunnel) (cid : UInt16) (body : Body) :
      Effect arrives t (sendMessage t cid body).2 (sendMessage t cid body).1
  | resend (t : Tunnel) (front back : List Buffer) (buf : Buffer)
      (hevents : t.events = front ++ buf :: back)
      (hunacked : t.cLr ≤ buf.packet.hdr.ns.toNat) (hretries : buf.retries < maxRetries) :
      Effect arrives t [.wire buf.packet]
        { t with events := front ++ back ++ [{ buf with retries := buf.retries + 1 }] }
  | toss (t : Tunnel) (front back : List Buffer) (buf : Buffer)
      (hevents : t.events = front ++ buf :: back)
      (hacked : buf.packet.hdr.ns.toNat < t.cLr) :
      Effect arrives t [.tossed buf.packet.hdr.ns] { t with events := front ++ back }
  | clear (t : Tunnel) : Effect arrives t []
      { t with events := [], self := { t.self with closing := true } }
  | zlb (t : Tunnel) (cid : UInt16) : Effect arrives t (controlZlb t cid).2 (controlZlb t cid).1
  | take (t : Tunnel) (p : Packet) (handed : Bool) (harrives : arrives p)
      (hnext : p.hdr.ns = t.controlRecSeqNum) (hbody : handed = true → p.body ≠ []) :
      Effect arrives t [.took p.body handed]
        { t with controlRecSeqNum := t.controlRecSeqNum + 1, cLr := p.hdr.nr.toNat }
  | ack (t : Tunnel) (p : Packet) (harrives : arrives p)
      (hnext : p.hdr.ns = t.controlRecSeqNum) :
      Effect arrives t [] { t with cLr := p.hdr.nr.toNat }

inductive Effects (arrives : Packet → Prop) : Tunnel → List Event → Tunnel → Prop
  | nil (t : Tunnel) : Effects arrives t [] t
  | cons {t t' t'' : Tunnel} {out more : List Event} (heffect : Effect arrives t out t')
      (hrest : Effects arrives t' more t'') : Effects arrives t (out ++ more) t''

variable {arrives : Packet → Prop} {t t' t'' : Tunnel} {out more : List Event}

theorem Effect.effects (h : Effect arrives t out t') : Effects arrives t out t' := by
  have hnil := Effects.cons h (.nil t')
  rwa [List.append_nil] at hnil

namespace Effects

theorem trans (h : Effects arrives t out t') (h' : Effects arrives t' more t'') :
    Effects arrives t (out ++ more) t'' := by
  induction h with
  | nil t => exact h'
  | cons heffect _ ih =>
    rw [List.append_assoc]
    exact .cons heffect (ih h')

theorem note (hsame : SameNumbers t t') : Effects arrives t [] t' := (Effect.note t t' hsame).effects

/-- What a function does after its effects without touching the numbers. -/
theorem thenNote (h : Effects arrives t out t') (hsame : SameNumbers t' t'') :
    Effects arrives t out t'' := by
  have hboth := h.trans (note hsame)
  rwa [List.append_nil] at hboth

theorem noteThen (hsame : SameNumbers t t') (h : Effects arrives t' out t'') :
    Effects arrives t out t'' := (note hsame).trans h

end Effects

/-- A change of one call that ends no closing. -/
theorem sameNumbers_setCall (t : Tunnel) (r : Ref) (f : Call → Call)
    (hf : ∀ c, c.closing = true → (f c).closing = true) : SameNumbers t (t.setCall r f) := by
  cases r with
  | self => exact ⟨rfl, rfl, rfl, rfl, hf t.self⟩
  | member ourcid => exact ⟨rfl, rfl, rfl, rfl, id⟩

theorem sendMessage_eq (t : Tunnel) (cid : UInt16) (body : Body) :
    sendMessage t cid body =
      if t.controlSeqNum.toNat < t.cLr then
        ({ t with controlSeqNum := t.controlSeqNum + 1 },
          [.queued body.val, .tossed t.controlSeqNum])
      else
        ({ t with
            controlSeqNum := t.controlSeqNum + 1
            events := t.events ++ [{ packet := (addControlHdr t cid body.val).1, retries := 1 }] },
          [.queued body.val, .wire (addControlHdr t cid body.val).1]) := by
  by_cases hahead : t.controlSeqNum.toNat < t.cLr
  · simp [sendMessage, controlXmitWith, addControlHdr, hahead]
  · simp [sendMessage, controlXmitWith, addControlHdr, maxRetries, hahead]

theorem effects_callCloseSelf (stop : Body) (t : Tunnel) :
    Effects arrives t (callCloseSelf stop t).2 (callCloseSelf stop t).1 := by
  simp only [callCloseSelf]
  split
  · rename_i hclosing
    apply (Effect.clear t).effects.thenNote
    exact ⟨rfl, rfl, rfl, rfl, fun _ => hclosing⟩
  · let t₁ : Tunnel :=
      { t with events := [], self := { t.self with closeSs := t.controlSeqNum, closing := true } }
    have hclear : Effects arrives t [] t₁ := by
      apply (Effect.clear t).effects.thenNote
      exact ⟨rfl, rfl, rfl, rfl, id⟩
    have hsend := hclear.trans (Effect.send t₁ t.self.cid stop).effects
    simp only [sendMessage_eq, t₁, addControlHdr, List.nil_append] at hsend ⊢
    by_cases hahead : t.controlSeqNum.toNat < t.cLr
    · simp only [if_pos hahead] at hsend ⊢
      exact hsend.thenNote ⟨rfl, rfl, rfl, rfl, id⟩
    · simp only [if_neg hahead] at hsend ⊢
      exact hsend.thenNote ⟨rfl, rfl, rfl, rfl, id⟩

theorem effects_callCloseMember (cdn : Body) (ourcid : UInt16) (t : Tunnel) :
    Effects arrives t (callCloseMember cdn ourcid t).2 (callCloseMember cdn ourcid t).1 := by
  simp only [callCloseMember]
  split
  · exact .nil t
  · rename_i c _
    split
    · exact Effects.note ⟨rfl, rfl, rfl, rfl, id⟩
    · let t₁ : Tunnel :=
        t.setCall (.member ourcid) fun c => { c with closeSs := t.controlSeqNum }
      have hmark : SameNumbers t t₁ := ⟨rfl, rfl, rfl, rfl, id⟩
      have hsend : Effects arrives t₁ (sendMessage t₁ c.cid cdn).2 (sendMessage t₁ c.cid cdn).1 :=
        (Effect.send t₁ c.cid cdn).effects
      exact (Effects.noteThen hmark hsend).thenNote ⟨rfl, rfl, rfl, rfl, id⟩

theorem effects_callClose (body : Body) (t : Tunnel) (r : Ref) :
    Effects arrives t (callClose body t r).2 (callClose body t r).1 := by
  cases r with
  | self => exact effects_callCloseSelf body t
  | member ourcid => exact effects_callCloseMember body ourcid t

theorem effects_buildFdset (body : Body) (t : Tunnel) (r : Ref) :
    Effects arrives t (buildFdset body t r).2 (buildFdset body t r).1 := by
  simp only [buildFdset]
  split
  · exact .nil t
  · split
    · exact effects_callClose body t r
    · exact .nil t

/-- A scheduled transmission is taken from the queue before it runs. When it
runs for the sixth time the tunnel starts to close, or goes. -/
theorem effects_controlXmit (stop : Body) (t : Tunnel) (front back : List Buffer) (buf : Buffer)
    (hevents : t.events = front ++ buf :: back) :
    Effects arrives t (controlXmit stop { t with events := front ++ back } buf).2
      (controlXmit stop { t with events := front ++ back } buf).1 := by
  have hclose : ∀ c : Call, (t.self.closing = true → c.closing = true) →
      Effects arrives t (callCloseSelf stop { t with events := front ++ back, self := c }).2
        (callCloseSelf stop { t with events := front ++ back, self := c }).1 := by
    intro c hc
    have hsame : callCloseSelf stop { t with events := front ++ back, self := c } =
        callCloseSelf stop { t with self := c } := rfl
    rw [hsame]
    have hnote : SameNumbers t { t with self := c } := ⟨rfl, rfl, rfl, rfl, hc⟩
    exact Effects.noteThen hnote (effects_callCloseSelf stop { t with self := c })
  simp only [controlXmit, controlXmitWith]
  split
  · rename_i hacked
    exact (Effect.toss t front back buf hevents hacked).effects
  · rename_i hunacked
    split
    · split
      · exact hclose _ fun _ => rfl
      · exact hclose _ id
    · rename_i hmore
      exact (Effect.resend t front back buf hevents (by omega) (by omega)).effects

theorem effects_act (t : Tunnel) (a : Act) : Effects arrives t (act t a).2 (act t a).1 := by
  cases a with
  | send r body => exact (Effect.send t (t.cidOf r) body).effects
  | quiet r =>
    exact Effects.note (sameNumbers_setCall t r (fun c => { c with cnu := false }) fun _ h => h)
  | wantClose r =>
    exact Effects.note
      (sameNumbers_setCall t r (fun c => { c with needclose := true }) fun _ h => h)
  | peerClosed r =>
    exact Effects.note
      (sameNumbers_setCall t r (fun c => { c with needclose := false, closing := true })
        fun _ _ => rfl)
  | close ourcid cdn => exact effects_callCloseMember cdn ourcid t
  | add ourcid => exact Effects.note ⟨rfl, rfl, rfl, rfl, id⟩
  | assignTid tid => exact Effects.note ⟨rfl, rfl, rfl, rfl, id⟩
  | assignCid r cid =>
    exact Effects.note (sameNumbers_setCall t r (fun c => { c with cid }) fun _ h => h)

theorem effects_acts (t : Tunnel) (finish : List Act) :
    Effects arrives t (acts t finish).2 (acts t finish).1 := by
  induction finish generalizing t with
  | nil => exact .nil t
  | cons a rest ih => exact (effects_act t a).trans (ih (act t a).1)

/-- A packet that is not the next one may be answered by a ZLB; the next one is
counted and its acknowledgement noted, whatever its header turns out to be. -/
theorem checkControl_cases (arrives : Packet → Prop) (t : Tunnel) (r : Ref) (cid : UInt16)
    (p : Packet) :
    (∃ t' out, checkControl t r cid p = (.unexpected, t', out) ∧ Effects arrives t out t') ∨
    (p.hdr.ns = t.controlRecSeqNum ∧ ∃ verdict, verdict ≠ .unexpected ∧
      checkControl t r cid p =
        (verdict,
          { (t.setCall r fun c => { c with cnu := true }) with
            controlRecSeqNum := t.controlRecSeqNum + 1, cLr := p.hdr.nr.toNat }, [])) := by
  have hstay : Effects arrives t [] t := .nil t
  have hzlb : Effects arrives t (controlZlb t cid).2 (controlZlb t cid).1 :=
    (Effect.zlb t cid).effects
  have hgone : Effects arrives t []
      (t.setCall r fun c => { c with needclose := false, closing := true }) :=
    Effects.note (sameNumbers_setCall t r _ fun _ _ => rfl)
  unfold checkControl
  split
  · exact .inl ⟨_, _, rfl, hstay⟩
  · split
    · left
      split
      · split
        · exact ⟨_, _, rfl, hzlb⟩
        · exact ⟨_, _, rfl, hstay⟩
      · split
        · exact ⟨_, _, rfl, hgone⟩
        · exact ⟨_, _, rfl, hstay⟩
    · rename_i hnext
      right
      have hcounted : ({ (({ t with controlRecSeqNum := t.controlRecSeqNum + 1 } :
          Tunnel).setCall r fun c => { c with cnu := true }) with cLr := p.hdr.nr.toNat } : Tunnel) =
          { (t.setCall r fun c => { c with cnu := true }) with
            controlRecSeqNum := t.controlRecSeqNum + 1, cLr := p.hdr.nr.toNat } := by
        cases r <;> rfl
      refine ⟨Decidable.not_not.mp hnext, ?_⟩
      simp only [hcounted]
      split
      · exact ⟨.refused, by decide, rfl⟩
      · exact ⟨.fine, by decide, rfl⟩

/-- The next packet, counted and kept. -/
theorem effects_take (t : Tunnel) (r : Ref) (p : Packet) (handed : Bool) (harrives : arrives p)
    (hnext : p.hdr.ns = t.controlRecSeqNum) (hbody : handed = true → p.body ≠ []) :
    Effects arrives t [.took p.body handed]
      { (t.setCall r fun c => { c with cnu := true }) with
        controlRecSeqNum := t.controlRecSeqNum + 1, cLr := p.hdr.nr.toNat } := by
  let t₁ := t.setCall r fun c => { c with cnu := true }
  have hmark : SameNumbers t t₁ := sameNumbers_setCall t r _ fun _ h => h
  have htake :=
    (Effect.take t₁ p handed harrives (hnext.trans hmark.expected.symm) hbody).effects
  rw [hmark.expected] at htake
  exact Effects.noteThen hmark htake

/-- A ZLB for a known call: the count is taken back, the acknowledgement stays. -/
theorem effects_ack (t : Tunnel) (r : Ref) (p : Packet) (harrives : arrives p)
    (hnext : p.hdr.ns = t.controlRecSeqNum) :
    Effects arrives t []
      { (t.setCall r fun c => { c with cnu := true }) with
        controlRecSeqNum := t.controlRecSeqNum + 1 - 1, cLr := p.hdr.nr.toNat } := by
  let t₁ := t.setCall r fun c => { c with cnu := true }
  have hmark : SameNumbers t t₁ := sameNumbers_setCall t r _ fun _ h => h
  have hack := (Effect.ack t₁ p harrives (hnext.trans hmark.expected.symm)).effects
  apply (Effects.noteThen hmark hack).thenNote
  exact ⟨rfl, (UInt16.add_sub_cancel _ _).trans hmark.expected.symm, rfl, rfl, id⟩

theorem effects_handlePacket (t : Tunnel) (r : Ref) (p : Packet) (finish : List Act)
    (harrives : arrives p) :
    Effects arrives t (handlePacket t r p finish).2 (handlePacket t r p finish).1 := by
  simp only [handlePacket]
  rcases checkControl_cases arrives t r (t.cidOf r) p with
    ⟨t', out, hcheck, heffects⟩ | ⟨hnext, verdict, hverdict, hcheck⟩
  · rw [hcheck]
    exact heffects
  · rw [hcheck]
    cases verdict with
    | unexpected => exact absurd rfl hverdict
    | refused => exact effects_take t r p false harrives hnext (by simp)
    | fine =>
      simp only
      split
      · have hlast : ∀ t₂ : Tunnel, SameNumbers t₂ (t₂.setCall r fun c =>
            if c.needclose && c.closing && decide (c.closeSs.toNat ≤ t₂.cLr) then
              { c with needclose := false }
            else c) := by
          intro t₂
          apply sameNumbers_setCall
          intro c hc
          split <;> exact hc
        exact ((effects_ack t r p harrives hnext).thenNote
          (sameNumbers_setCall _ r (fun c => { c with cnu := false }) fun _ h => h)).thenNote
          (hlast _)
      · rename_i hlen
        have hbody : p.body ≠ [] := fun hempty => hlen (by simp [Packet.len, hempty])
        exact (effects_take t r p true harrives hnext fun _ => hbody).trans
          (effects_acts _ finish)

theorem effects_handleSpecial (t : Tunnel) (p : Packet) (harrives : arrives p) :
    Effects arrives t (handleSpecial t p).2 (handleSpecial t p).1 := by
  let t₁ := t.setCall .self fun c => { c with cid := p.hdr.cid }
  have hborrow : SameNumbers t t₁ := sameNumbers_setCall t .self _ fun _ h => h
  have hback : ∀ t', SameNumbers t' (t'.setCall .self fun c => { c with cid := 0 }) :=
    fun t' => sameNumbers_setCall t' .self _ fun _ h => h
  simp only [handleSpecial]
  apply Effects.noteThen hborrow
  rcases checkControl_cases arrives t₁ .self p.hdr.cid p with
    ⟨t', out, hcheck, heffects⟩ | ⟨hnext, verdict, hverdict, hcheck⟩
  · simp only [t₁] at hcheck
    rw [hcheck]
    exact heffects.thenNote (hback t')
  · have htake := effects_take t₁ .self p false harrives hnext (by simp)
    simp only [t₁] at hcheck
    rw [hcheck]
    cases verdict with
    | unexpected => exact absurd rfl hverdict
    | refused => exact htake.thenNote (hback _)
    | fine =>
      simp only
      split
      · exact htake.thenNote (hback _)
      · exact (htake.trans (Effect.zlb _ p.hdr.cid).effects).thenNote (hback _)

theorem effects_receive (t : Tunnel) (p : Packet) (finish : List Act) (harrives : arrives p) :
    Effects arrives t (receive t p finish).2 (receive t p finish).1 := by
  simp only [receive]
  split
  · exact effects_handleSpecial t p harrives
  · rename_i r _
    have hhandle := effects_handlePacket t r p finish harrives
    split
    · apply (hhandle.trans (Effect.zlb _ _).effects).thenNote
      exact sameNumbers_setCall _ r (fun c => { c with cnu := false }) fun _ h => h
    · exact hhandle

namespace Link

/-- A move is a sequence of effects on its side, with what the other side has
put on the wire so far within reach. -/
theorem effects_perform (l : Link) (m : Move) :
    Effects (· ∈ wire (l.trace m.side.peer)) (l.ends m.side) (l.perform m).2 (l.perform m).1 := by
  cases m with
  | act s a => exact effects_act _ a
  | timer s index stop =>
    simp only [perform]
    split
    · exact .nil _
    · rename_i buf hbuf
      obtain ⟨hlt, rfl⟩ := List.getElem?_eq_some_iff.mp hbuf
      rw [List.eraseIdx_eq_take_drop_succ]
      apply effects_controlXmit
      rw [List.getElem_cons_drop, List.take_append_drop]
      rfl
  | sweep s r body => exact effects_buildFdset body _ r
  | deliver s index finish =>
    simp only [perform]
    split
    · exact .nil _
    · rename_i p hp
      exact effects_receive _ p finish (List.mem_of_getElem? hp)

/-- The link with one side moved on. -/
def put (l : Link) (s : Side) (t : Tunnel) (out : List Event) : Link where
  ends := fun x => if x = s then t else l.ends x
  trace := fun x => if x = s then l.trace x ++ out else l.trace x

@[simp] theorem put_ends_self (l : Link) (s : Side) (t : Tunnel) (out : List Event) :
    (l.put s t out).ends s = t := if_pos rfl

@[simp] theorem put_trace_self (l : Link) (s : Side) (t : Tunnel) (out : List Event) :
    (l.put s t out).trace s = l.trace s ++ out := if_pos rfl

@[simp] theorem put_ends_peer (l : Link) (s : Side) (t : Tunnel) (out : List Event) :
    (l.put s t out).ends s.peer = l.ends s.peer := if_neg s.peer_ne

@[simp] theorem put_trace_peer (l : Link) (s : Side) (t : Tunnel) (out : List Event) :
    (l.put s t out).trace s.peer = l.trace s.peer := if_neg s.peer_ne

theorem put_nothing (l : Link) (s : Side) : l.put s (l.ends s) [] = l := by
  ext1 <;> funext x <;> by_cases h : x = s <;> simp [put, h]

theorem put_put (l : Link) (s : Side) (t t' : Tunnel) (out more : List Event) :
    (l.put s t out).put s t' more = l.put s t' (out ++ more) := by
  ext1 <;> funext x <;> by_cases h : x = s <;> simp [put, h]

theorem exec_eq (l : Link) (m : Move) :
    l.exec m =
      if (l.ends m.side).destroyed then l
      else l.put m.side (l.perform m).1 (l.perform m).2 := rfl

variable {P : Link → Prop}

/-- What every single effect of either side keeps. -/
abbrev Kept (P : Link → Prop) : Prop :=
  ∀ (l : Link) (s : Side) (out : List Event) (t : Tunnel), P l →
    Effect (· ∈ wire (l.trace s.peer)) (l.ends s) out t → P (l.put s t out)

theorem Kept.effects (hkept : Kept P) {s : Side} {t t' : Tunnel} {out : List Event}
    (h : Effects arrives t out t') (l : Link) (hl : P l) (ht : l.ends s = t)
    (harrives : arrives = (· ∈ wire (l.trace s.peer))) : P (l.put s t' out) := by
  induction h generalizing l with
  | nil t =>
    rw [← ht, put_nothing]
    exact hl
  | @cons t t₁ t₂ out₁ out₂ heffect _ ih =>
    subst ht harrives
    have hfirst : P (l.put s t₁ out₁) := hkept l s out₁ t₁ hl heffect
    have hrest := ih (l.put s t₁ out₁) hfirst (put_ends_self l s t₁ out₁)
      (by rw [put_trace_peer])
    rwa [put_put] at hrest

theorem Kept.exec (hkept : Kept P) (l : Link) (m : Move) (hl : P l) : P (l.exec m) := by
  rw [exec_eq]
  split
  · exact hl
  · exact hkept.effects (effects_perform l m) l hl rfl rfl

/-- What every effect of either side keeps holds along every run. -/
theorem Kept.run (hkept : Kept P) (l : Link) (moves : List Move) (hl : P l) : P (l.run moves) := by
  induction moves generalizing l with
  | nil => exact hl
  | cons m rest ih => exact ih (l.exec m) (hkept.exec l m hl)

end Link

end GameAcc.L2tp
