import GameAcc.L2tp.Effects

/-!
The numbers of one side: its next number counts the messages it has numbered,
the number it expects counts what it has taken, and whatever it has put on the
wire or still has to send again carries the number its message was given.
-/

namespace GameAcc.L2tp

@[simp] theorem wire_append (a b : List Event) : wire (a ++ b) = wire a ++ wire b :=
  List.filterMap_append

@[simp] theorem sent_append (a b : List Event) : sent (a ++ b) = sent a ++ sent b :=
  List.filterMap_append

@[simp] theorem took_append (a b : List Event) : took (a ++ b) = took a ++ took b :=
  List.filterMap_append

@[simp] theorem handed_append (a b : List Event) : handed (a ++ b) = handed a ++ handed b :=
  List.filterMap_append

theorem ofNat_succ (n : Nat) : UInt16.ofNat n + 1 = UInt16.ofNat (n + 1) :=
  (UInt16.ofNat_add n 1).symm

/-- Numbers below 65536 are told apart by their last 16 bits. -/
theorem eq_of_ofNat_eq {m n : Nat} (hm : m < 65536) (hn : n < 65536)
    (h : UInt16.ofNat m = UInt16.ofNat n) : m = n := by
  have hnat := congrArg UInt16.toNat h
  rwa [UInt16.toNat_ofNat_of_lt' hm, UInt16.toNat_ofNat_of_lt' hn] at hnat

/-- A packet some side with this history has made: it passes the checks of its
header, counts no more than what has been taken, and has the number of its
message or, without a body, of a message that comes next. -/
structure Genuine (tr : List Event) (p : Packet) : Prop where
  length : p.len = p.hdr.length.toNat
  sane : sane p.hdr.ver = true
  nr : ∃ m ≤ (took tr).length, p.hdr.nr = UInt16.ofNat m
  zlb : p.body = [] → ∃ n ≤ (sent tr).length, p.hdr.ns = UInt16.ofNat n
  message : p.body ≠ [] → ∃ n : Nat, (sent tr)[n]? = some p.body ∧ p.hdr.ns = UInt16.ofNat n

structure Numbered (t : Tunnel) (tr : List Event) : Prop where
  seq : t.controlSeqNum = UInt16.ofNat (sent tr).length
  expected : t.controlRecSeqNum = UInt16.ofNat (took tr).length
  onWire : ∀ p ∈ wire tr, Genuine tr p
  pending : ∀ buf ∈ t.events, buf.packet.body ≠ [] ∧ Genuine tr buf.packet

theorem Genuine.later {tr : List Event} {p : Packet} (h : Genuine tr p) (out : List Event) :
    Genuine (tr ++ out) p where
  length := h.length
  sane := h.sane
  nr := by
    obtain ⟨m, hm, hnr⟩ := h.nr
    exact ⟨m, by simp only [took_append, List.length_append]; omega, hnr⟩
  zlb := by
    intro hbody
    obtain ⟨n, hn, hns⟩ := h.zlb hbody
    exact ⟨n, by simp only [sent_append, List.length_append]; omega, hns⟩
  message := by
    intro hbody
    obtain ⟨n, hn, hns⟩ := h.message hbody
    obtain ⟨hlt, -⟩ := List.getElem?_eq_some_iff.mp hn
    exact ⟨n, by rw [sent_append, List.getElem?_append_left hlt, hn], hns⟩

theorem sane_made : sane (tBit ||| lBit ||| fBit ||| verL2tp) = true := by decide

theorem addControlHdr_length (t : Tunnel) (cid : UInt16) (body : List UInt8)
    (hbody : body.length ≤ maxBody) :
    (addControlHdr t cid body).1.len = (addControlHdr t cid body).1.hdr.length.toNat := by
  have hfits : 12 + body.length < 65536 := by
    simp only [maxBody] at hbody
    omega
  exact (UInt16.toNat_ofNat_of_lt' hfits).symm

namespace Numbered

variable {arrives : Packet → Prop} {t t' : Tunnel} {tr out : List Event}

theorem new : Numbered newTunnel [] where
  seq := rfl
  expected := rfl
  onWire := by simp [wire]
  pending := by simp [newTunnel]

/-- The header made for the message that has just been numbered. -/
theorem genuine_message (h : Numbered t tr) (cid : UInt16) (body : Body) :
    Genuine (tr ++ [.queued body.val]) (addControlHdr t cid body.val).1 where
  length := addControlHdr_length t cid body.val body.property.2
  sane := sane_made
  nr := ⟨(took tr).length, by simp [took], h.expected⟩
  zlb := fun hempty => absurd hempty body.property.1
  message := fun _ => ⟨(sent tr).length, by simp [sent, addControlHdr], h.seq⟩

theorem genuine_zlb (h : Numbered t tr) (cid : UInt16) :
    Genuine tr (addControlHdr t cid []).1 where
  length := addControlHdr_length t cid [] (by decide)
  sane := sane_made
  nr := ⟨(took tr).length, Nat.le_refl _, h.expected⟩
  zlb := fun _ => ⟨(sent tr).length, Nat.le_refl _, h.seq⟩
  message := fun hbody => absurd rfl hbody

theorem later (h : Numbered t tr) (out : List Event)
    (hseq : t'.controlSeqNum = UInt16.ofNat (sent (tr ++ out)).length)
    (hexpected : t'.controlRecSeqNum = UInt16.ofNat (took (tr ++ out)).length)
    (hwire : ∀ p ∈ wire out, Genuine (tr ++ out) p)
    (hpending : ∀ buf ∈ t'.events,
      buf ∈ t.events ∨ buf.packet.body ≠ [] ∧ Genuine (tr ++ out) buf.packet) :
    Numbered t' (tr ++ out) where
  seq := hseq
  expected := hexpected
  onWire := by
    intro p hp
    rw [wire_append, List.mem_append] at hp
    rcases hp with hold | hnew
    · exact (h.onWire p hold).later out
    · exact hwire p hnew
  pending := by
    intro buf hbuf
    rcases hpending buf hbuf with hold | hnew
    · exact ⟨(h.pending buf hold).1, (h.pending buf hold).2.later out⟩
    · exact hnew

theorem effect (h : Numbered t tr) (heffect : Effect arrives t out t') :
    Numbered t' (tr ++ out) := by
  cases heffect with
  | note _ hsame =>
    apply h.later
    · rw [hsame.seq, List.append_nil, h.seq]
    · rw [hsame.expected, List.append_nil, h.expected]
    · simp [wire]
    · intro buf hbuf
      exact .inl (hsame.events ▸ hbuf)
  | send cid body =>
    have hgenuine := h.genuine_message cid body
    rw [sendMessage_eq]
    split
    · apply h.later
      · rw [h.seq, ofNat_succ]
        simp [sent]
      · simp [took, h.expected]
      · simp [wire]
      · exact fun buf hbuf => .inl hbuf
    · have hlater := hgenuine.later [.wire (addControlHdr t cid body.val).1]
      rw [List.append_assoc] at hlater
      apply h.later
      · rw [h.seq, ofNat_succ]
        simp [sent]
      · simp [took, h.expected]
      · intro p hp
        simp only [wire, List.filterMap_cons, List.filterMap_nil, List.mem_singleton] at hp
        exact hp ▸ hlater
      · intro buf hbuf
        rcases List.mem_append.mp hbuf with hold | hnew
        · exact .inl hold
        · rw [List.mem_singleton] at hnew
          subst hnew
          exact .inr ⟨body.property.1, hlater⟩
  | resend front back buf hevents _ _ =>
    have hmem : buf ∈ t.events := hevents ▸ List.mem_append_cons_self
    obtain ⟨hbody, hgenuine⟩ := h.pending buf hmem
    have hlater := hgenuine.later [.wire buf.packet]
    apply h.later
    · simp [sent, h.seq]
    · simp [took, h.expected]
    · intro p hp
      simp only [wire, List.filterMap_cons, List.filterMap_nil, List.mem_singleton] at hp
      exact hp ▸ hlater
    · intro b hb
      rcases List.mem_append.mp hb with hold | hnew
      · left
        rw [hevents]
        rcases List.mem_append.mp hold with hfront | hback
        · exact List.mem_append_left _ hfront
        · exact List.mem_append_right _ (List.mem_cons_of_mem _ hback)
      · rw [List.mem_singleton] at hnew
        subst hnew
        exact .inr ⟨hbody, hlater⟩
  | toss front back buf hevents _ =>
    apply h.later
    · simp [sent, h.seq]
    · simp [took, h.expected]
    · simp [wire]
    · intro b hb
      left
      rw [hevents]
      rcases List.mem_append.mp hb with hfront | hback
      · exact List.mem_append_left _ hfront
      · exact List.mem_append_right _ (List.mem_cons_of_mem _ hback)
  | clear =>
    apply h.later
    · simp [h.seq]
    · simp [h.expected]
    · simp [wire]
    · simp
  | zlb cid =>
    apply h.later
    · simp [controlZlb, addControlHdr, sent, h.seq]
    · simp [controlZlb, addControlHdr, took, h.expected]
    · intro p hp
      simp only [wire, controlZlb, List.filterMap_cons, List.filterMap_nil,
        List.mem_singleton] at hp
      exact hp ▸ (h.genuine_zlb cid).later _
    · exact fun buf hbuf => .inl hbuf
  | take p handed _ _ _ =>
    apply h.later
    · simp [sent, h.seq]
    · rw [h.expected, ofNat_succ]
      simp [took]
    · simp [wire]
    · exact fun buf hbuf => .inl hbuf
  | ack p _ _ =>
    apply h.later
    · simp [h.seq]
    · simp [h.expected]
    · simp [wire]
    · exact fun buf hbuf => .inl hbuf

end Numbered

namespace Link

/-- Both sides keep their numbers, whatever the network delivers. -/
theorem numbered_kept : Kept fun l => ∀ s, Numbered (l.ends s) (l.trace s) := by
  intro l s out t hl heffect x
  by_cases hx : x = s
  · subst hx
    simp only [put_ends_self, put_trace_self]
    exact (hl x).effect heffect
  · simp only [put, if_neg hx]
    exact hl x

/-- What an effect of a side keeps of that side, given its numbers, is kept. -/
theorem kept_of_side {P : Tunnel → List Event → Prop}
    (hP : ∀ {arrives : Packet → Prop} {t t' : Tunnel} {tr out : List Event}, P t tr →
      Numbered t tr → Effect arrives t out t' → P t' (tr ++ out)) :
    Kept fun l => ∀ s, Numbered (l.ends s) (l.trace s) ∧ P (l.ends s) (l.trace s) := by
  intro l s out t hl heffect x
  refine ⟨numbered_kept l s out t (fun y => (hl y).1) heffect x, ?_⟩
  by_cases hx : x = s
  · subst hx
    rw [put_ends_self, put_trace_self]
    exact hP (hl x).2 (hl x).1 heffect
  · simpa [put, hx] using (hl x).2

theorem numbered (moves : List Move) (s : Side) :
    Numbered ((initial.run moves).ends s) ((initial.run moves).trace s) :=
  numbered_kept.run initial moves (fun _ => Numbered.new) s

end Link

end GameAcc.L2tp
