import GameAcc.Foundations.NumberedChannel
import GameAcc.L2tp.Numbering

/-!
Each direction of the control connection is a numbered channel, as long as the
16 bits of its numbers have not come round. What is handed over is what was
sent, in order and at most once, over a network that loses, repeats and
reorders; and all of it up to some number, unless a datagram came for a call
the tunnel no longer had.
-/

namespace GameAcc.L2tp

open GameAcc.NumberedChannel

/-- The numbers of a direction have not come round. -/
def Fresh (tr : List Event) : Prop := (sent tr).length < 65535

theorem Fresh.earlier {tr out : List Event} (h : Fresh (tr ++ out)) : Fresh tr := by
  simp only [Fresh, sent_append, List.length_append] at h ⊢
  omega

/-- An effect takes at most one packet, the one whose turn it is. -/
theorem Effect.takes {arrives : Packet → Prop} {t t' : Tunnel} {out : List Event}
    (h : Effect arrives t out t') :
    took out = [] ∨ ∃ p handed, arrives p ∧ p.hdr.ns = t.controlRecSeqNum ∧
      out = [.took p.body handed] := by
  cases h with
  | take p handed harrives hnext _ => exact .inr ⟨p, handed, harrives, hnext, rfl⟩
  | send cid body =>
    rw [sendMessage_eq]
    split <;> exact .inl rfl
  | note _ _ | resend _ _ _ _ _ _ | toss _ _ _ _ _ | clear | zlb _ | ack _ _ _ => exact .inl rfl

namespace Link

/-- The direction from one side to the other. -/
def channel (l : Link) (s : Side) : Channel (List UInt8) :=
  ⟨sent (l.trace s), took (l.trace s.peer)⟩

/-- The packet whose turn it is carries the message of that number, or stands
for one that is still to come. -/
theorem take_step {l : Link} {s : Side} (hsender : Numbered (l.ends s.peer) (l.trace s.peer))
    (hreceiver : Numbered (l.ends s) (l.trace s)) (hfresh : Fresh (l.trace s.peer))
    (hfaithful : Faithful (l.channel s.peer)) {p : Packet}
    (harrives : p ∈ wire (l.trace s.peer)) (hnext : p.hdr.ns = (l.ends s).controlRecSeqNum)
    (handed : Bool) :
    Step (l.channel s.peer)
      ⟨sent (l.trace s.peer), took (l.trace s) ++ took [.took p.body handed]⟩ := by
  have hgenuine : Genuine (l.trace s.peer) p := hsender.onWire p harrives
  have hbounded : (took (l.trace s)).length ≤ (sent (l.trace s.peer)).length + 1 := by
    simpa [channel] using hfaithful.bounded
  have htaken : (l.channel s.peer).taken = took (l.trace s) := by simp [channel]
  rw [hreceiver.expected] at hnext
  simp only [Fresh] at hfresh
  by_cases hbody : p.body = []
  · obtain ⟨n, hn, hns⟩ := hgenuine.zlb hbody
    have hturn : n = (took (l.trace s)).length :=
      eq_of_ofNat_eq (by omega) (by omega) (hns.symm.trans hnext)
    have hentry : took [.took p.body handed] = [none] := by simp [took, hbody]
    have hstep := Step.skip (l.channel s.peer) (by rw [htaken, ← hturn]; exact hn)
    rw [htaken] at hstep
    rw [hentry]
    exact hstep
  · obtain ⟨n, hn, hns⟩ := hgenuine.message hbody
    obtain ⟨hlt, -⟩ := List.getElem?_eq_some_iff.mp hn
    have hturn : n = (took (l.trace s)).length :=
      eq_of_ofNat_eq (by omega) (by omega) (hns.symm.trans hnext)
    have hentry : took [.took p.body handed] = [some p.body] := by simp [took, hbody]
    have hstep := Step.take (l.channel s.peer) p.body (by rw [htaken, ← hturn]; exact hn)
    rw [htaken] at hstep
    rw [hentry]
    exact hstep

/-- Every effect moves each direction by steps of a numbered channel. -/
theorem effect_steps {l : Link} {s : Side} {out : List Event} {t : Tunnel}
    (hnumbered : ∀ x, Numbered (l.ends x) (l.trace x))
    (heffect : Effect (· ∈ wire (l.trace s.peer)) (l.ends s) out t) (x : Side)
    (hfresh : Fresh (l.trace x)) (hfaithful : Faithful (l.channel x)) :
    Steps (l.channel x) ((l.put s t out).channel x) := by
  by_cases hx : x = s
  · subst hx
    have hsends := Steps.sends (l.channel x) (sent out)
    simpa [channel] using hsends
  · obtain rfl : x = s.peer := by cases x <;> cases s <;> simp_all [Side.peer]
    have hsame : (l.put s t out).channel s.peer =
        ⟨sent (l.trace s.peer), took (l.trace s) ++ took out⟩ := by
      simp [channel]
    rw [hsame]
    rcases heffect.takes with hnone | ⟨p, handed, harrives, hnext, rfl⟩
    · rw [hnone, List.append_nil]
      have hstay : (⟨sent (l.trace s.peer), took (l.trace s)⟩ : Channel (List UInt8)) =
          l.channel s.peer := by
        simp [channel]
      rw [hstay]
    · exact .single (take_step (hnumbered s.peer) (hnumbered s) hfresh hfaithful harrives hnext
        handed)

theorem channel_kept : Kept fun l => (∀ s, Numbered (l.ends s) (l.trace s)) ∧
    ∀ s, Fresh (l.trace s) → Steps ⟨[], []⟩ (l.channel s) := by
  intro l s out t ⟨hnumbered, hsteps⟩ heffect
  refine ⟨numbered_kept l s out t hnumbered heffect, ?_⟩
  intro x hfresh
  have hearlier : Fresh (l.trace x) := by
    by_cases hx : x = s
    · subst hx
      rw [put_trace_self] at hfresh
      exact hfresh.earlier
    · simpa [put, hx] using hfresh
  have hbefore := hsteps x hearlier
  exact hbefore.trans
    (effect_steps hnumbered heffect x hearlier (Faithful.empty.steps hbefore))

/-- Each direction of a running link is a numbered channel. -/
theorem channel_steps (moves : List Move) (s : Side)
    (hfresh : Fresh ((initial.run moves).trace s)) :
    Steps ⟨[], []⟩ ((initial.run moves).channel s) :=
  (channel_kept.run initial moves ⟨fun _ => Numbered.new, fun s _ => by
    simp [channel, initial, sent, took, Relation.ReflTransGen.refl]⟩).2 s hfresh

theorem channel_faithful (moves : List Move) (s : Side)
    (hfresh : Fresh ((initial.run moves).trace s)) :
    Faithful ((initial.run moves).channel s) :=
  Faithful.empty.steps (channel_steps moves s hfresh)

end Link

/-- What is handed over has a body. -/
def HandedBodies (tr : List Event) : Prop := ∀ body, .took body true ∈ tr → body ≠ []

theorem Link.handedBodies_kept : Link.Kept fun l => ∀ s, HandedBodies (l.trace s) := by
  intro l s out t hl heffect x
  by_cases hx : x = s
  · subst hx
    rw [Link.put_trace_self]
    intro body hmem
    rcases List.mem_append.mp hmem with hold | hnew
    · exact hl x body hold
    · cases heffect with
      | take p handed _ _ hbody =>
        simp only [List.mem_singleton, Event.took.injEq] at hnew
        obtain ⟨rfl, rfl⟩ := hnew
        exact hbody rfl
      | send cid body =>
        rw [sendMessage_eq] at hnew
        split at hnew <;> simp at hnew
      | note _ _ | resend _ _ _ _ _ _ | toss _ _ _ _ _ | clear | zlb _ | ack _ _ _ =>
        simp [controlZlb] at hnew
  · simp only [Link.put, if_neg hx]
    exact hl x

theorem HandedBodies.tail {e : Event} {rest : List Event} (h : HandedBodies (e :: rest)) :
    HandedBodies rest := fun body hmem => h body (List.mem_cons_of_mem e hmem)

/-- The messages handed over are among those taken, in the same order. -/
theorem handed_sublist {tr : List Event} (hbodies : HandedBodies tr) :
    (handed tr).Sublist (took tr).reduceOption := by
  induction tr with
  | nil => exact List.nil_sublist _
  | cons e rest ih =>
    have hrest := ih hbodies.tail
    cases e with
    | queued _ | wire _ | tossed _ => exact hrest
    | took body flag =>
      cases flag with
      | true =>
        have hbody : body ≠ [] := hbodies body List.mem_cons_self
        simpa [handed, took, hbody] using hrest
      | false =>
        by_cases hbody : body = []
        · simpa [handed, took, hbody] using hrest
        · simpa [handed, took, hbody] using hrest.cons body

/-- Nothing was taken without being handed over. -/
def AllHanded (tr : List Event) : Prop := ∀ body flag, .took body flag ∈ tr → flag = true

def Event.handedOver : Event → Bool
  | .took _ flag => flag
  | _ => true

theorem allHanded_of_all {tr : List Event} (h : tr.all Event.handedOver = true) :
    AllHanded tr := fun _ _ hmem => List.all_eq_true.mp h _ hmem

theorem took_eq_handed {tr : List Event} (hbodies : HandedBodies tr) (hall : AllHanded tr) :
    took tr = (handed tr).map some := by
  induction tr with
  | nil => rfl
  | cons e rest ih =>
    have hrest := ih hbodies.tail fun body flag hmem => hall body flag (List.mem_cons_of_mem e hmem)
    cases e with
    | queued _ | wire _ | tossed _ => exact hrest
    | took body flag =>
      obtain rfl : flag = true := hall body flag List.mem_cons_self
      have hbody : body ≠ [] := hbodies body List.mem_cons_self
      simpa [handed, took, hbody] using hrest

namespace Link

theorem handedBodies (moves : List Move) (s : Side) :
    HandedBodies ((initial.run moves).trace s) :=
  handedBodies_kept.run initial moves (fun _ => by simp [HandedBodies, initial]) s

/-- Over a network that loses, repeats and reorders datagrams, what one side
hands over is what the other sent, in order and at most once. When every packet
taken was handed over, nothing is missing in between. -/
theorem handed_in_order (moves : List Move) (s : Side)
    (hfresh : Fresh ((initial.run moves).trace s)) :
    (handed ((initial.run moves).trace s.peer)).Sublist (sent ((initial.run moves).trace s)) ∧
      (AllHanded ((initial.run moves).trace s.peer) →
        handed ((initial.run moves).trace s.peer) <+: sent ((initial.run moves).trace s)) := by
  have hbodies := handedBodies moves s.peer
  have hfaithful := channel_faithful moves s hfresh
  refine ⟨?_, ?_⟩
  · exact (handed_sublist hbodies).trans (reduceOption_sublist hfaithful.genuine)
  · intro hall
    have htook := took_eq_handed hbodies hall
    have hfull : none ∉ ((initial.run moves).channel s).taken := by
      simp [channel, htook]
    have hfront := hfaithful.isPrefix hfull
    simpa [channel, htook, List.reduceOption] using hfront

/-- Two messages; the second arrives first, and the first arrives twice. -/
def reordered : List Move :=
  [.act .lac (.send .self (single 1)), .act .lac (.send .self (single 2)),
    .deliver .lns 1 [], .deliver .lns 0 [], .deliver .lns 0 [], .deliver .lns 1 []]

theorem handed_in_order_reordered :
    handed ((initial.run reordered).trace .lns) = [[1], [2]] ∧
      handed ((initial.run reordered).trace .lns) <+: sent ((initial.run reordered).trace .lac) := by
  have hrun : handed ((initial.run reordered).trace .lns) = [[1], [2]] := by decide
  have hall : AllHanded ((initial.run reordered).trace .lns) := allHanded_of_all (by decide)
  exact ⟨hrun, (handed_in_order reordered .lac (by unfold Fresh; decide)).2 hall⟩

end Link

end GameAcc.L2tp
