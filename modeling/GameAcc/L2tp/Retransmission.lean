import GameAcc.L2tp.Delivery
import Mathlib.Data.List.Nodup

/-!
What becomes of a message that got a number: it stays scheduled until the other
side has gone past its number or its own tunnel starts to close, and it is put
on the wire five times at most. As long as it may be sent once more it can still
be taken.
-/

namespace GameAcc.L2tp

/-- The datagram is the message with this number. -/
def carries (ns : UInt16) (p : Packet) : Bool := p.body ≠ [] && p.hdr.ns = ns

/-- How often the message with this number was put on the wire. -/
def transmissions (tr : List Event) (ns : UInt16) : Nat := (wire tr).countP (carries ns)

@[simp] theorem transmissions_append (a b : List Event) (ns : UInt16) :
    transmissions (a ++ b) ns = transmissions a ns + transmissions b ns := by
  simp [transmissions]

def Buffer.ns (buf : Buffer) : UInt16 := buf.packet.hdr.ns

/-- The retries of a scheduled message count its transmissions. -/
structure Counted (t : Tunnel) (tr : List Event) : Prop where
  nodup : (t.events.map Buffer.ns).Nodup
  retries : ∀ buf ∈ t.events, transmissions tr buf.ns = buf.retries
  bounded : ∀ ns, transmissions tr ns ≤ maxRetries

/-- A message is scheduled, was freed as acknowledged, or its tunnel closes. -/
def Pending (t : Tunnel) (tr : List Event) : Prop :=
  ∀ n < (sent tr).length, (∃ buf ∈ t.events, buf.ns = UInt16.ofNat n) ∨
    .tossed (UInt16.ofNat n) ∈ tr ∨ t.self.closing = true

section Effects

variable {arrives : Packet → Prop} {t t' : Tunnel} {tr out : List Event}

theorem Effect.closing (h : Effect arrives t out t') (hclosing : t.self.closing = true) :
    t'.self.closing = true := by
  cases h with
  | note _ hsame => exact hsame.closing hclosing
  | send cid body =>
    rw [sendMessage_eq]
    split <;> exact hclosing
  | resend _ _ _ _ _ _ | toss _ _ _ _ _ | zlb _ | take _ _ _ _ _ | ack _ _ _ => exact hclosing
  | clear => rfl

/-- The number given next has never been on the wire. -/
theorem Numbered.unused (h : Numbered t tr) (hfresh : Fresh tr) :
    transmissions tr t.controlSeqNum = 0 := by
  simp only [transmissions, List.countP_eq_zero]
  intro p hp hcarries
  simp only [carries, ne_eq, decide_not, Bool.and_eq_true, Bool.not_eq_eq_eq_not, Bool.not_true,
    decide_eq_false_iff_not, decide_eq_true_eq] at hcarries
  obtain ⟨n, hn, hns⟩ := (h.onWire p hp).message hcarries.1
  obtain ⟨hlt, -⟩ := List.getElem?_eq_some_iff.mp hn
  simp only [Fresh] at hfresh
  have hsame : UInt16.ofNat n = UInt16.ofNat (sent tr).length :=
    hns.symm.trans (hcarries.2.trans h.seq)
  have := eq_of_ofNat_eq (by omega) (by omega) hsame
  omega

/-- The number given next belongs to no scheduled message. -/
theorem Numbered.unscheduled (h : Numbered t tr) (hfresh : Fresh tr) :
    t.controlSeqNum ∉ t.events.map Buffer.ns := by
  intro hmem
  obtain ⟨buf, hbuf, hns⟩ := List.mem_map.mp hmem
  obtain ⟨hbody, hgenuine⟩ := h.pending buf hbuf
  obtain ⟨n, hn, hnumber⟩ := hgenuine.message hbody
  obtain ⟨hlt, -⟩ := List.getElem?_eq_some_iff.mp hn
  simp only [Fresh] at hfresh
  have hsame : UInt16.ofNat n = UInt16.ofNat (sent tr).length :=
    hnumber.symm.trans (hns.trans h.seq)
  have := eq_of_ofNat_eq (by omega) (by omega) hsame
  omega

theorem transmissions_wire (p : Packet) (ns : UInt16) :
    transmissions [.wire p] ns = if carries ns p then 1 else 0 := by
  simp [transmissions, wire, List.countP_cons]

theorem carries_iff {p : Packet} (hbody : p.body ≠ []) (ns : UInt16) :
    carries ns p = true ↔ ns = p.hdr.ns := by
  simp [carries, hbody, eq_comm]

/-- Fewer scheduled messages and nothing new on the wire. -/
theorem Counted.fewer (h : Counted t tr) (hevents : t'.events.Sublist t.events)
    (hwire : ∀ ns, transmissions out ns = 0) : Counted t' (tr ++ out) where
  nodup := (hevents.map Buffer.ns).nodup h.nodup
  retries := by
    intro buf hbuf
    rw [transmissions_append, hwire, h.retries buf (hevents.subset hbuf), Nat.add_zero]
  bounded := by
    intro ns
    rw [transmissions_append, hwire]
    exact h.bounded ns

theorem Counted.effect (h : Counted t tr) (hnumbered : Numbered t tr) (hfresh : Fresh tr)
    (heffect : Effect arrives t out t') : Counted t' (tr ++ out) := by
  cases heffect with
  | note _ hsame =>
    apply h.fewer
    · rw [hsame.events]
    · exact fun _ => rfl
  | send cid body =>
    have hunused := hnumbered.unused hfresh
    have hunscheduled := hnumbered.unscheduled hfresh
    rw [sendMessage_eq]
    split
    · exact h.fewer (List.Sublist.refl _) fun _ => rfl
    · have hcarries := carries_iff (p := (addControlHdr t cid body.val).1) body.property.1
      have hone : ∀ ns, transmissions [.queued body.val, .wire (addControlHdr t cid body.val).1] ns =
          if ns = t.controlSeqNum then 1 else 0 := by
        intro ns
        have hwire := transmissions_wire (addControlHdr t cid body.val).1 ns
        simp only [hcarries] at hwire
        exact hwire
      refine ⟨?_, ?_, ?_⟩
      · simp only [List.map_append, List.map_cons, List.map_nil]
        rw [List.nodup_append_comm, List.singleton_append, List.nodup_cons]
        exact ⟨hunscheduled, h.nodup⟩
      · intro buf hbuf
        rw [transmissions_append, hone]
        rcases List.mem_append.mp hbuf with hold | hnew
        · have hne : buf.ns ≠ t.controlSeqNum := fun heq =>
            hunscheduled (heq ▸ List.mem_map_of_mem hold)
          rw [if_neg hne, h.retries buf hold, Nat.add_zero]
        · rw [List.mem_singleton] at hnew
          subst hnew
          simp only [Buffer.ns, addControlHdr, if_true, hunused]
      · intro ns
        rw [transmissions_append, hone]
        split
        · rename_i heq
          rw [heq, hunused]
          decide
        · exact h.bounded ns
  | resend front back buf hevents _ hretries =>
    have hmem : buf ∈ t.events := hevents ▸ List.mem_append_cons_self
    obtain ⟨hbody, -⟩ := hnumbered.pending buf hmem
    have hone : ∀ ns, transmissions [.wire buf.packet] ns = if ns = buf.ns then 1 else 0 := by
      intro ns
      have hwire := transmissions_wire buf.packet ns
      simp only [carries_iff hbody] at hwire
      exact hwire
    have hnodup := h.nodup
    rw [hevents] at hnodup
    simp only [List.map_append, List.map_cons] at hnodup
    have hmoved := (List.perm_middle.nodup_iff).mp hnodup
    rw [List.nodup_cons] at hmoved
    refine ⟨?_, ?_, ?_⟩
    · simp only [List.map_append, List.map_cons, List.map_nil]
      rw [List.nodup_append_comm, List.singleton_append, List.nodup_cons]
      exact hmoved
    · intro b hb
      rw [transmissions_append, hone]
      rcases List.mem_append.mp hb with hold | hnew
      · have hne : b.ns ≠ buf.ns := by
          intro heq
          apply hmoved.1
          rw [← List.map_append, ← heq]
          exact List.mem_map_of_mem hold
        have hbefore : b ∈ t.events := by
          rw [hevents]
          rcases List.mem_append.mp hold with hfront | hback
          · exact List.mem_append_left _ hfront
          · exact List.mem_append_right _ (List.mem_cons_of_mem _ hback)
        rw [if_neg hne, h.retries b hbefore, Nat.add_zero]
      · rw [List.mem_singleton] at hnew
        subst hnew
        have hcount := h.retries buf hmem
        simp only [Buffer.ns, if_true] at hcount ⊢
        omega
    · intro ns
      rw [transmissions_append, hone]
      split
      · rename_i heq
        rw [heq, h.retries buf hmem]
        omega
      · exact h.bounded ns
  | toss front back buf hevents _ =>
    apply h.fewer
    · rw [hevents]
      exact (List.Sublist.refl front).append (List.sublist_cons_self buf back)
    · exact fun _ => rfl
  | clear => exact h.fewer (List.nil_sublist _) fun _ => rfl
  | zlb cid =>
    have hnone : ∀ ns, transmissions (controlZlb t cid).2 ns = 0 := by
      intro ns
      simp [controlZlb, addControlHdr, transmissions_wire, carries]
    exact h.fewer (List.Sublist.refl _) hnone
  | take _ _ _ _ _ => exact h.fewer (List.Sublist.refl _) fun _ => rfl
  | ack _ _ _ => exact h.fewer (List.Sublist.refl _) fun _ => rfl

theorem Pending.effect (h : Pending t tr) (hnumbered : Numbered t tr)
    (heffect : Effect arrives t out t') : Pending t' (tr ++ out) := by
  -- a message numbered before keeps its place unless the effect frees or clears it
  have hkeep : ∀ n < (sent tr).length,
      (∀ buf ∈ t.events, buf.ns = UInt16.ofNat n → (∃ b ∈ t'.events, b.ns = UInt16.ofNat n) ∨
        .tossed (UInt16.ofNat n) ∈ tr ++ out ∨ t'.self.closing = true) →
      (∃ b ∈ t'.events, b.ns = UInt16.ofNat n) ∨ .tossed (UInt16.ofNat n) ∈ tr ++ out ∨
        t'.self.closing = true := by
    intro n hn hscheduled
    rcases h n hn with ⟨buf, hbuf, hns⟩ | htossed | hclosing
    · exact hscheduled buf hbuf hns
    · exact .inr (.inl (List.mem_append_left _ htossed))
    · exact .inr (.inr (heffect.closing hclosing))
  intro n hn
  cases heffect with
  | note _ hsame =>
    apply hkeep n (by simpa using hn)
    intro buf hbuf hns
    exact .inl ⟨buf, hsame.events ▸ hbuf, hns⟩
  | send cid body =>
    rw [sendMessage_eq] at hn hkeep ⊢
    split at hn
    · rename_i hahead
      simp only [if_pos hahead] at hkeep ⊢
      simp only [sent_append, List.length_append] at hn
      by_cases hold : n < (sent tr).length
      · exact hkeep n hold fun buf hbuf hns => .inl ⟨buf, hbuf, hns⟩
      · have hlast : n = (sent tr).length := by
          simp only [sent, List.filterMap_cons, List.filterMap_nil, List.length_singleton] at hn hold ⊢
          omega
        right
        left
        rw [hlast, ← hnumbered.seq]
        simp
    · rename_i hahead
      simp only [if_neg hahead] at hkeep ⊢
      simp only [sent_append, List.length_append] at hn
      by_cases hold : n < (sent tr).length
      · exact hkeep n hold fun buf hbuf hns => .inl ⟨buf, List.mem_append_left _ hbuf, hns⟩
      · have hlast : n = (sent tr).length := by
          simp only [sent, List.filterMap_cons, List.filterMap_nil, List.length_singleton] at hn hold ⊢
          omega
        left
        refine ⟨_, List.mem_append_right _ (List.mem_singleton_self _), ?_⟩
        rw [hlast, ← hnumbered.seq]
        rfl
  | resend front back buf hevents _ _ =>
    apply hkeep n (by simpa [sent] using hn)
    intro b hb hns
    left
    rw [hevents] at hb
    rcases List.mem_append.mp hb with hfront | hrest
    · exact ⟨b, List.mem_append_left _ (List.mem_append_left _ hfront), hns⟩
    · rcases List.mem_cons.mp hrest with rfl | hback
      · exact ⟨_, List.mem_append_right _ (List.mem_singleton_self _), hns⟩
      · exact ⟨b, List.mem_append_left _ (List.mem_append_right _ hback), hns⟩
  | toss front back buf hevents _ =>
    apply hkeep n (by simpa [sent] using hn)
    intro b hb hns
    rw [hevents] at hb
    rcases List.mem_append.mp hb with hfront | hrest
    · exact .inl ⟨b, List.mem_append_left _ hfront, hns⟩
    · rcases List.mem_cons.mp hrest with rfl | hback
      · right
        left
        rw [← hns]
        exact List.mem_append_right _ (List.mem_singleton_self _)
      · exact .inl ⟨b, List.mem_append_right _ hback, hns⟩
  | clear => exact .inr (.inr rfl)
  | zlb cid =>
    exact hkeep n (by simpa [controlZlb, addControlHdr, sent] using hn)
      fun buf hbuf hns => .inl ⟨buf, hbuf, hns⟩
  | take p _ _ _ _ =>
    exact hkeep n (by simpa [sent] using hn) fun buf hbuf hns => .inl ⟨buf, hbuf, hns⟩
  | ack _ _ _ =>
    exact hkeep n (by simpa using hn) fun buf hbuf hns => .inl ⟨buf, hbuf, hns⟩

end Effects

namespace Link

/-- A side never believes more received than the other side has taken, and
frees a message only when its number has been passed. -/
structure Acknowledged (l : Link) : Prop where
  cLr : ∀ s, (l.ends s).cLr ≤ (took (l.trace s.peer)).length
  tossed : ∀ s ns, .tossed ns ∈ l.trace s → ns.toNat < (took (l.trace s.peer)).length

theorem cLr_effect {l : Link} {s : Side} {out : List Event} {t : Tunnel}
    (hnumbered : ∀ x, Numbered (l.ends x) (l.trace x)) (hl : Acknowledged l)
    (heffect : Effect (· ∈ wire (l.trace s.peer)) (l.ends s) out t) :
    t.cLr ≤ (took (l.trace s.peer)).length := by
  have hnr : ∀ p ∈ wire (l.trace s.peer), p.hdr.nr.toNat ≤ (took (l.trace s.peer)).length := by
    intro p hp
    obtain ⟨m, hm, hnr⟩ := ((hnumbered s.peer).onWire p hp).nr
    rw [hnr, UInt16.toNat_ofNat']
    exact (Nat.mod_le _ _).trans hm
  cases heffect with
  | note _ hsame => exact hsame.cLr ▸ hl.cLr s
  | send cid body =>
    rw [sendMessage_eq]
    split <;> exact hl.cLr s
  | take p _ harrives _ _ => exact hnr p harrives
  | ack p harrives _ => exact hnr p harrives
  | resend _ _ _ _ _ _ | toss _ _ _ _ _ | clear | zlb _ => exact hl.cLr s

theorem tossed_effect {l : Link} {s : Side} {out : List Event} {t : Tunnel} (hl : Acknowledged l)
    (heffect : Effect (· ∈ wire (l.trace s.peer)) (l.ends s) out t) (ns : UInt16)
    (hmem : .tossed ns ∈ out) : ns.toNat < (took (l.trace s.peer)).length := by
  have hcLr := hl.cLr s
  cases heffect with
  | send cid body =>
    rw [sendMessage_eq] at hmem
    split at hmem
    · rename_i hahead
      simp only [List.mem_cons, reduceCtorEq, Event.tossed.injEq, List.not_mem_nil, or_false,
        false_or] at hmem
      subst hmem
      omega
    · simp at hmem
  | toss front back buf _ hacked =>
    simp only [List.mem_singleton, Event.tossed.injEq] at hmem
    subst hmem
    omega
  | note _ _ | resend _ _ _ _ _ _ | clear | zlb _ | take _ _ _ _ _ | ack _ _ _ =>
    simp [controlZlb] at hmem

theorem acknowledged_kept :
    Kept fun l => (∀ s, Numbered (l.ends s) (l.trace s)) ∧ Acknowledged l := by
  intro l s out t ⟨hnumbered, hl⟩ heffect
  have hgrow : ∀ x, (took (l.trace x)).length ≤ (took ((l.put s t out).trace x)).length := by
    intro x
    by_cases hx : x = s
    · subst hx
      rw [put_trace_self, took_append, List.length_append]
      omega
    · simp [put, hx]
  refine ⟨numbered_kept l s out t hnumbered heffect, ?_, ?_⟩
  · intro x
    by_cases hx : x = s
    · subst hx
      rw [put_ends_self, put_trace_peer]
      exact cLr_effect hnumbered hl heffect
    · have hcLr := hl.cLr x
      have := hgrow x.peer
      simp only [put, if_neg hx] at this ⊢
      omega
  · intro x ns hmem
    by_cases hx : x = s
    · subst hx
      rw [put_trace_self] at hmem
      rw [put_trace_peer]
      rcases List.mem_append.mp hmem with hold | hnew
      · exact hl.tossed x ns hold
      · exact tossed_effect hl heffect ns hnew
    · have hbefore := hl.tossed x ns (by simpa [put, hx] using hmem)
      have := hgrow x.peer
      omega

theorem acknowledged (moves : List Move) : Acknowledged (initial.run moves) :=
  (acknowledged_kept.run initial moves ⟨fun _ => Numbered.new, by
    constructor <;> simp [initial, newTunnel]⟩).2

theorem pending (moves : List Move) (s : Side) :
    Pending ((initial.run moves).ends s) ((initial.run moves).trace s) :=
  ((kept_of_side Pending.effect).run initial moves (fun _ => ⟨Numbered.new, by simp [Pending, initial, sent]⟩) s).2

theorem counted (moves : List Move) (s : Side) (hfresh : Fresh ((initial.run moves).trace s)) :
    Counted ((initial.run moves).ends s) ((initial.run moves).trace s) :=
  ((kept_of_side (P := fun t tr => Fresh tr → Counted t tr) fun h hnumbered heffect hfresh =>
    (h hfresh.earlier).effect hnumbered hfresh.earlier heffect).run initial moves (fun _ => ⟨Numbered.new, fun _ => by
    constructor <;> simp [initial, newTunnel, transmissions, wire, maxRetries]⟩) s).2 hfresh

/-- What may have become of a message. -/
theorem fate (moves : List Move) (s : Side) (hfresh : Fresh ((initial.run moves).trace s))
    (n : Nat) (hn : n < (sent ((initial.run moves).trace s)).length) :
    (∃ buf ∈ ((initial.run moves).ends s).events, buf.ns = UInt16.ofNat n ∧
        (sent ((initial.run moves).trace s))[n]? = some buf.packet.body) ∨
      n < (took ((initial.run moves).trace s.peer)).length ∨
      ((initial.run moves).ends s).self.closing = true := by
  have hbelow : n < 65536 := by
    simp only [Fresh] at hfresh
    omega
  rcases pending moves s n hn with ⟨buf, hbuf, hns⟩ | htossed | hclosing
  · left
    obtain ⟨hbody, hgenuine⟩ := (numbered moves s).pending buf hbuf
    obtain ⟨m, hm, hnumber⟩ := hgenuine.message hbody
    obtain ⟨hlt, -⟩ := List.getElem?_eq_some_iff.mp hm
    simp only [Fresh] at hfresh
    have hsame : m = n := eq_of_ofNat_eq (by omega) hbelow (hnumber.symm.trans hns)
    exact ⟨buf, hbuf, hns, hsame ▸ hm⟩
  · right
    left
    have hpassed := (acknowledged moves).tossed s _ htossed
    rwa [UInt16.toNat_ofNat_of_lt' hbelow] at hpassed
  · exact .inr (.inr hclosing)

/-- A message is scheduled until the other side has gone past its number, or
its own tunnel starts to close; and it is never on the wire more than five times. -/
theorem never_forgotten (moves : List Move) (s : Side)
    (hfresh : Fresh ((initial.run moves).trace s)) (n : Nat)
    (hn : n < (sent ((initial.run moves).trace s)).length) :
    ((∃ buf ∈ ((initial.run moves).ends s).events, buf.ns = UInt16.ofNat n ∧
        (sent ((initial.run moves).trace s))[n]? = some buf.packet.body) ∨
      n < (took ((initial.run moves).trace s.peer)).length ∨
      ((initial.run moves).ends s).self.closing = true) ∧
    transmissions ((initial.run moves).trace s) (UInt16.ofNat n) ≤ 5 :=
  ⟨fate moves s hfresh n hn, (counted moves s hfresh).bounded _⟩

theorem never_forgotten_lost :
    transmissions ((initial.run [.act .lac (.send .self (single 1)),
      .timer .lac 0 (single 4)]).trace .lac) 0 ≤ 5 ∧
    (took ((initial.run [.act .lac (.send .self (single 1)),
      .timer .lac 0 (single 4)]).trace .lns)) = [] :=
  ⟨(never_forgotten [.act .lac (.send .self (single 1)), .timer .lac 0 (single 4)]
    .lac (by unfold Fresh; decide) 0 (by decide)).2, by decide⟩

end Link

end GameAcc.L2tp
