import GameAcc.L2tp.Payload

/-!
Payloads that another implementation numbers. `expand_payload` lets a packet through
that is a little ahead of the last one, and takes its number for the one expected
next, so a single loss goes unnoticed. It compares with the number the daemon itself
is going to send, too, which lets any packet of that number through. After three
losses in a row nothing is let through before the numbers have come round.
-/

namespace GameAcc.L2tp.Payload

/-- A numbered packet, and the number the daemon is going to send when it arrives. -/
structure Numbered where
  ns : UInt16
  nr : UInt16
  own : UInt16
deriving Repr, DecidableEq

/-- Which of the packets are let through, and the call behind them. -/
def sequence (c : Call) : List Numbered → List Bool × Call
  | [] => ([], c)
  | x :: xs =>
    match checkSequence { c with dataSeqNum := x.own } x.ns x.nr with
    | some c' => (true :: (sequence c' xs).1, (sequence c' xs).2)
    | none =>
      (false :: (sequence { c with dataSeqNum := x.own } xs).1,
        (sequence { c with dataSeqNum := x.own } xs).2)

/-- Each packet is the next one, or the one after it, by the number of the last. The
second must not be the daemon's own number, since that advances the expected one by
one only. -/
def Stepwise : UInt16 → List Numbered → Prop
  | _, [] => True
  | last, x :: xs =>
    (x.ns = last + 1 ∨ (x.ns = last + 2 ∧ x.ns ≠ x.own)) ∧ Stepwise x.ns xs

def lastOf (last : UInt16) : List Numbered → UInt16
  | [] => last
  | x :: xs => lastOf x.ns xs

/-- The expected number once a packet was let through. -/
def Near (c : Call) (last : UInt16) : Prop :=
  c.dataRecSeqNum = last ∨ c.dataRecSeqNum = last + 1

theorem checkSequence_own (c : Call) (nr : UInt16) :
    checkSequence c c.dataSeqNum nr =
      some { c with dataRecSeqNum := c.dataRecSeqNum + 1, pnu := true, pLr := nr.toNat } := by
  simp [checkSequence]

theorem checkSequence_near {c : Call} {last ns nr : UInt16} (hnear : Near c last)
    (hns : ns = last + 1 ∨ ns = last + 2) (hown : ns ≠ c.dataSeqNum) :
    checkSequence c ns nr = some { c with dataRecSeqNum := ns, pLr := nr.toNat } := by
  have hlast := last.toNat_lt
  have hfudge : payloadFudge = 2 := rfl
  have hexpected : c.dataRecSeqNum.toNat = last.toNat ∨
      c.dataRecSeqNum.toNat = (last.toNat + 1) % 65536 := by
    rcases hnear with h | h
    · rw [h]
      exact .inl rfl
    · rw [h]
      exact .inr (UInt16.toNat_add ..)
  have hseen : ns.toNat = (last.toNat + 1) % 65536 ∨ ns.toNat = (last.toNat + 2) % 65536 := by
    rcases hns with h | h
    · rw [h]
      exact .inl (UInt16.toNat_add ..)
    · rw [h]
      exact .inr (UInt16.toNat_add ..)
  simp only [checkSequence, if_pos hown]
  rw [if_neg (by omega), if_pos (by omega)]

theorem checkSequence_next {c : Call} {last ns : UInt16} (nr : UInt16) (hnear : Near c last)
    (hns : ns = last + 1 ∨ (ns = last + 2 ∧ ns ≠ c.dataSeqNum)) :
    ∃ c', checkSequence c ns nr = some c' ∧ Near c' ns := by
  rcases eq_or_ne ns c.dataSeqNum with hown | hown
  · have hone : ns = last + 1 := hns.resolve_right (fun h => h.2 hown)
    rw [hown]
    refine ⟨_, checkSequence_own c nr, ?_⟩
    rw [← hown, hone]
    rcases hnear with h | h
    · exact .inl (congrArg (· + 1) h)
    · exact .inr (congrArg (· + 1) h)
  · have hnext : ns = last + 1 ∨ ns = last + 2 := hns.imp_right And.left
    exact ⟨_, checkSequence_near hnear hnext hown, .inl rfl⟩

theorem sequence_stepwise {c : Call} {last : UInt16} {xs : List Numbered} (hnear : Near c last)
    (hsteps : Stepwise last xs) (ys : List Numbered) :
    ∃ c', Near c' (lastOf last xs) ∧
      sequence c (xs ++ ys) =
        (xs.map (fun _ => true) ++ (sequence c' ys).1, (sequence c' ys).2) := by
  induction xs generalizing c last with
  | nil => exact ⟨c, hnear, rfl⟩
  | cons x xs ih =>
    have hnear' : Near { c with dataSeqNum := x.own } last := hnear
    obtain ⟨c₁, hcheck, hnear₁⟩ := checkSequence_next x.nr hnear' hsteps.1
    obtain ⟨c', hnear₂, hrest⟩ := ih hnear₁ hsteps.2
    refine ⟨c', hnear₂, ?_⟩
    simp only [List.cons_append, sequence, hcheck, hrest, List.map_cons]

theorem sequence_ahead {c : Call} {ys : List Numbered}
    (hahead : ∀ y ∈ ys, c.dataRecSeqNum.toNat + payloadFudge < y.ns.toNat ∧ y.ns ≠ y.own) :
    (sequence c ys).1 = ys.map (fun _ => false) := by
  induction ys generalizing c with
  | nil => rfl
  | cons y ys ih =>
    obtain ⟨hfar, hown⟩ := hahead y List.mem_cons_self
    have hcheck : checkSequence { c with dataSeqNum := y.own } y.ns y.nr = none := by
      simp only [checkSequence, if_pos hown]
      rw [if_neg (by omega), if_neg (by omega)]
    rw [sequence, hcheck]
    have hrest : (sequence { c with dataSeqNum := y.own } ys).1 = ys.map (fun _ => false) :=
      ih (fun z hz => hahead z (List.mem_cons_of_mem y hz))
    simp only [hrest, List.map_cons]

/-- As long as no two packets in a row are lost all are let through, also where the
numbers come round. Once three in a row are lost none is, in whatever order they
arrive, until the numbers have come round; only one with the very number the daemon
is going to send would be. -/
theorem three_lost_stop {c : Call} {last : UInt16} {xs ys : List Numbered} (hnear : Near c last)
    (hsteps : Stepwise last xs)
    (hlost : ∀ y ∈ ys, (lastOf last xs).toNat + 3 < y.ns.toNat ∧ y.ns ≠ y.own) :
    (sequence c (xs ++ ys)).1 = xs.map (fun _ => true) ++ ys.map (fun _ => false) := by
  obtain ⟨c', hnear', hrun⟩ := sequence_stepwise hnear hsteps ys
  rw [hrun, sequence_ahead]
  intro y hy
  obtain ⟨hfar, hown⟩ := hlost y hy
  refine ⟨?_, hown⟩
  have hbound := y.ns.toNat_lt
  rcases hnear' with h | h
  · rw [h, payloadFudge]
    omega
  · rw [h, payloadFudge, UInt16.toNat_add]
    have hone : (1 : UInt16).toNat = 1 := rfl
    omega

theorem three_lost_stop_wrap :
    (sequence { newCall (fun _ => 0) 5 9 true with dataRecSeqNum := 0xfffe }
      ([⟨0xffff, 0, 0⟩, ⟨1, 0, 2⟩, ⟨2, 0, 2⟩] ++ [⟨7, 0, 8⟩, ⟨6, 0, 8⟩])).1 =
        [true, true, true] ++ [false, false] :=
  three_lost_stop (.inl rfl) ⟨by decide, by decide, by decide, trivial⟩ (by decide)

end GameAcc.L2tp.Payload
