import GameAcc.Foundations.Exchange
import GameAcc.Ppp.FsmEffects

/-!
Two automata that face each other over lines that lose packets but keep their
order. Whatever the layers above and below do, and whatever is lost or sent
again: when both are opened, each has acknowledged what the other asks for in the
request it uses now.
-/

namespace GameAcc.Ppp

variable {σ : Type}

inductive End where
  | near
  | far
deriving Repr, DecidableEq

def End.other : End → End
  | .near => .far
  | .far => .near

/-- `line` holds what an end has sent and what has not arrived yet. -/
structure Pair (σ : Type) where
  ends : End → Fsm σ
  line : End → List Packet

inductive Move where
  | act (e : End) (event : { event : Event // event.own = true })
  | deliver (e : End)
  | lose (e : End) (index : Nat)

namespace Pair

def initial (s : End → Setup) (ci : End → σ) : Pair σ where
  ends := fun e => fsmInit (s e) (ci e)
  line := fun _ => []

/-- An end after a move, with the line it sends on and the one it reads. -/
def put (l : Pair σ) (e : End) (f : Fsm σ) (sends reads : List Packet) : Pair σ where
  ends := fun s => if s = e then f else l.ends s
  line := fun s => if s = e then sends else reads

/-- What was sent since. -/
def news (f g : Fsm σ) : List Packet := (sent g.log).drop (sent f.log).length

/-- An end acts on its own, or takes the first packet from the line, or a packet
is lost. -/
def exec (c : Callbacks σ) (l : Pair σ) : Move → Pair σ
  | .act e event =>
    let f := step c (l.ends e) event.val
    l.put e f (l.line e ++ news (l.ends e) f) (l.line e.other)
  | .deliver e =>
    match l.line e.other with
    | [] => l
    | p :: rest =>
      let f := step c (l.ends e) (.input (encode p))
      l.put e f (l.line e ++ news (l.ends e) f) rest
  | .lose e index => l.put e (l.ends e) ((l.line e).eraseIdx index) (l.line e.other)

def run (c : Callbacks σ) (l : Pair σ) (moves : List Move) : Pair σ := moves.foldl (exec c) l

end Pair

/-- The requests among packets. -/
def requests : List Packet → List (Nat × List UInt8) := List.filterMap fun p =>
  if p.code = confreq then some (p.id.toNat, p.data) else none

def acknowledgements : List Packet → List (Nat × List UInt8) := List.filterMap fun p =>
  if p.code = confack then some (p.id.toNat, p.data) else none

/-- What the first automaton asks of the second one. -/
def exchange (c : Callbacks σ) (a b : Fsm σ) (ab ba : List Packet) :
    Exchange (List UInt8) where
  number := a.reqid.toNat
  content := c.request a.ci
  live := live a.state
  acked := gotAck a.state
  asks := requests ab
  asked := (asked b.log).getLast?.map fun r => (r.id.toNat, r.data)
  acks := acknowledgements ba

/-- The numbers have not gone round. -/
structure Numbered (f : Fsm σ) : Prop where
  id : f.id = UInt8.ofNat (ids f.log)
  reqid : ∃ n ≤ ids f.log, f.reqid = UInt8.ofNat n

/-- What was acknowledged last is known, and it suits the request in use, unless a
new one has been made since. -/
def Recorded (c : Callbacks σ) (knows : σ → List UInt8 → Prop)
    (suits : List UInt8 → List UInt8 → Prop) (f : Fsm σ) : Prop :=
  sentAck f.state = true → ∃ r, (asked f.log).getLast? = some r ∧ knows f.ci r.data ∧
    r.own.toNat ≤ f.reqid.toNat ∧ (r.own = f.reqid → suits (c.request f.ci) r.data)

def Short (limit : Nat) (line : List Packet) : Prop :=
  ∀ p ∈ line, p.code = confreq ∨ p.code = confack → p.data.length + headerlen ≤ limit

structure Ready (c : Callbacks σ) (knows : σ → List UInt8 → Prop)
    (suits : List UInt8 → List UInt8 → Prop) (limit : Nat) (f : Fsm σ) : Prop where
  numbered : Numbered f
  recorded : Recorded c knows suits f
  mru : limit ≤ f.peerMru

/-- What an end does with the packets it reads, seen from both directions. -/
structure Turn (c : Callbacks σ) (knows : σ → List UInt8 → Prop)
    (suits : List UInt8 → List UInt8 → Prop) (limit : Nat) (reads : List Packet)
    (f g : Fsm σ) (out : List Packet) : Prop where
  sent : sent g.log = sent f.log ++ out
  asks : ∀ b ab ba, (exchange c f b ab (reads ++ ba)).Steps (exchange c g b (ab ++ out) ba)
  answers : ∀ a ab ba, (exchange c a f (reads ++ ab) ba).Steps (exchange c a g ab (ba ++ out))
  last : (asked g.log).getLast? = (asked f.log).getLast? ∨
    reads ≠ [] ∧ ∃ r, (asked g.log).getLast? = some r ∧ r.own = g.reqid
  ready : Ready c knows suits limit g
  short : Short limit out

section Lines

@[simp] theorem requests_append (a b : List Packet) :
    requests (a ++ b) = requests a ++ requests b :=
  List.filterMap_append

@[simp] theorem acknowledgements_append (a b : List Packet) :
    acknowledgements (a ++ b) = acknowledgements a ++ acknowledgements b :=
  List.filterMap_append

theorem requests_none {out : List Packet} (h : ∀ p ∈ out, p.code ≠ confreq) :
    requests out = [] :=
  List.filterMap_eq_nil_iff.mpr fun p hp => if_neg (h p hp)

theorem acknowledgements_none {out : List Packet} (h : ∀ p ∈ out, p.code ≠ confack) :
    acknowledgements out = [] :=
  List.filterMap_eq_nil_iff.mpr fun p hp => if_neg (h p hp)

theorem Short.append {limit : Nat} {a b : List Packet} (ha : Short limit a) (hb : Short limit b) :
    Short limit (a ++ b) := by
  intro p hp
  rcases List.mem_append.mp hp with h | h
  · exact ha p h
  · exact hb p h

theorem Short.subset {limit : Nat} {a b : List Packet} (hb : Short limit b) (hsub : a ⊆ b) :
    Short limit a :=
  fun p hp => hb p (hsub hp)

end Lines

variable {c : Callbacks σ} {knows : σ → List UInt8 → Prop}
  {suits : List UInt8 → List UInt8 → Prop} {limit : Nat} {f g k : Fsm σ} {out more : List Packet}

theorem Numbered.toNat_id (h : Numbered f) (hids : ids f.log < 256) : f.id.toNat = ids f.log := by
  rw [h.id, UInt8.toNat_ofNat_of_lt' hids]

theorem Numbered.toNat_reqid (h : Numbered f) (hids : ids f.log < 256) :
    f.reqid.toNat ≤ ids f.log := by
  obtain ⟨n, hn, hreqid⟩ := h.reqid
  rw [hreqid, UInt8.toNat_ofNat_of_lt' (Nat.lt_of_le_of_lt hn hids)]
  exact hn

namespace Effect

theorem grew (h : Effect c knows f out g) :
    sent g.log = sent f.log ++ out ∧ asked g.log = asked f.log ∧ g.peerMru = f.peerMru := by
  cases h with
  | note hid hgrew hkeeps => exact ⟨hgrew.sent, hgrew.asked, hgrew.mru⟩
  | send code id data hcode => exact ⟨by simp [Fsm.sdata, sent], by simp [Fsm.sdata, asked], rfl⟩
  | number => exact ⟨by simp [Fsm.nextId, sent], by simp [Fsm.nextId, asked], rfl⟩
  | renumber hdead => exact ⟨(List.append_nil _).symm, rfl, rfl⟩
  | ask hid hreqid hids hgrew hlive hgot hstands => exact ⟨hgrew.sent, hgrew.asked, hgrew.mru⟩
  | again hid hgrew hlive hkeeps => exact ⟨hgrew.sent, hgrew.asked, hgrew.mru⟩

theorem ids_le (h : Effect c knows f out g) : ids f.log ≤ ids g.log := by
  cases h with
  | note hid => exact Nat.le_of_eq hid.ids.symm
  | send => simp [Fsm.sdata]
  | number => simp [Fsm.nextId]
  | renumber => exact Nat.le_refl _
  | ask hid hreqid hids => omega
  | again hid => exact Nat.le_of_eq hid.ids.symm

theorem numbered (h : Effect c knows f out g) (hn : Numbered f) : Numbered g := by
  obtain ⟨hid, n, hle, hreqid⟩ := hn
  have hsame : SameId f g → Numbered g := fun hs =>
    ⟨by rw [hs.id, hs.ids, hid], n, by rw [hs.ids]; exact hle, by rw [hs.reqid, hreqid]⟩
  have hsucc : f.id + 1 = UInt8.ofNat (ids f.log + 1) := by
    rw [hid]
    exact (UInt8.ofNat_add _ _).symm
  cases h with
  | note hs => exact hsame hs
  | send => exact ⟨by simp [Fsm.sdata, ids, hid], n, by simpa [Fsm.sdata, ids] using hle, hreqid⟩
  | number =>
    refine ⟨?_, n, ?_, hreqid⟩
    · simpa [Fsm.nextId, ids] using hsucc
    · simp only [Fsm.nextId, ids_append]
      omega
  | renumber hdead => exact ⟨hid, _, Nat.le_refl _, hid⟩
  | ask hid' hreqid' hids =>
    have hg : g.id = UInt8.ofNat (ids g.log) := by rw [hid', hids, hsucc]
    exact ⟨hg, _, Nat.le_refl _, hreqid'.trans hg⟩
  | again hs => exact hsame hs

theorem clean (h : Effect c knows f out g) : ∀ p ∈ out, p.code ≠ confack := by
  intro p hp
  cases h with
  | note | number | renumber => cases hp
  | send code id data hcode =>
    rw [List.mem_singleton.mp hp]
    exact hcode.2
  | ask | again =>
    rw [List.mem_singleton.mp hp]
    exact (by decide : confreq ≠ confack)

theorem recorded (h : Effect c knows f out g) (hn : Numbered f) (hids : ids g.log < 256)
    (hr : Recorded c knows suits f) : Recorded c knows suits g := by
  have hasked := h.grew.2.1
  have hkeep : Keeps c knows f g → g.reqid = f.reqid → Recorded c knows suits g := by
    intro hkeeps hreqid hsent
    obtain ⟨hsent', hknows⟩ := hkeeps.stands hsent
    obtain ⟨r, hlast, hdata, hown, hsuits⟩ := hr hsent'
    obtain ⟨-, hrequest⟩ := hkeeps.live (live_of_sentAck hsent)
    refine ⟨r, by rw [hasked, hlast], hknows _ hdata, by rw [hreqid]; exact hown, ?_⟩
    rw [hreqid, hrequest]
    exact hsuits
  have hsame : g.state = f.state → g.ci = f.ci → g.reqid = f.reqid →
      Recorded c knows suits g := by
    intro hstate hci hreqid
    exact hkeep (.less hci (by rw [hstate]; exact fun h => h) (by rw [hstate]; exact fun h => h)
      (by rw [hstate]; exact fun h => h)) hreqid
  have hreqidf : f.reqid.toNat ≤ ids f.log :=
    hn.toNat_reqid (Nat.lt_of_le_of_lt h.ids_le hids)
  have hidg : g.id.toNat = ids g.log := (h.numbered hn).toNat_id hids
  cases h with
  | note hid hgrew hkeeps => exact hkeep hkeeps hid.reqid
  | send => exact hsame rfl rfl rfl
  | number => exact hsame rfl rfl rfl
  | renumber hdead =>
    intro hsent
    have hlive : live f.state = true := live_of_sentAck hsent
    rw [hdead] at hlive
    cases hlive
  | ask hid hreqid hcount hgrew hlive hgot hstands =>
    intro hsent
    obtain ⟨hsent', hknows⟩ := hstands hsent
    obtain ⟨r, hlast, hdata, hown, hsuits⟩ := hr hsent'
    have hnew : r.own.toNat < g.reqid.toNat := by
      rw [hreqid, hidg]
      omega
    refine ⟨r, by rw [hasked, hlast], hknows _ hdata, Nat.le_of_lt hnew, ?_⟩
    intro heq
    rw [heq] at hnew
    omega
  | again hid hgrew hlive hkeeps => exact hkeep hkeeps hid.reqid

end Effect

/-- A step without a new request: what is asked for stays, or nothing is asked
for any more. -/
theorem steps_of_keeps (hlive : live g.state = true →
      live f.state = true ∧ c.request g.ci = c.request f.ci)
    (hgot : gotAck g.state = true → gotAck f.state = true) (hreqid : g.reqid = f.reqid)
    (hout : requests out = []) (b : Fsm σ) (ab ba : List Packet) :
    (exchange c f b ab ba).Steps (exchange c g b (ab ++ out) ba) := by
  have hasks : requests (ab ++ out) = requests ab := by simp [hout]
  cases hg : live g.state with
  | false =>
    have hnone : gotAck g.state = false := gotAck_of_dead hg
    have hrest := Exchange.Step.rest (exchange c f b ab ba) f.reqid.toNat (c.request g.ci)
      (Nat.le_refl _)
    have heq : exchange c g b (ab ++ out) ba = { exchange c f b ab ba with
        number := f.reqid.toNat, content := c.request g.ci, live := false, acked := false } := by
      simp [exchange, hasks, hreqid, hg, hnone]
    rw [heq]
    exact .single hrest
  | true =>
    obtain ⟨hf, hrequest⟩ := hlive hg
    cases hack : gotAck g.state with
    | false =>
      have heq : exchange c g b (ab ++ out) ba = { exchange c f b ab ba with acked := false } := by
        simp [exchange, hasks, hreqid, hg, hf, hack, hrequest]
      rw [heq]
      exact .single (.forget _)
    | true =>
      have heq : exchange c g b (ab ++ out) ba = exchange c f b ab ba := by
        simp [exchange, hasks, hreqid, hg, hf, hack, hgot hack, hrequest]
      rw [heq]

theorem requests_requestPacket (hfits : ∀ ci, (c.request ci).length + headerlen ≤ limit)
    (hmru : limit ≤ g.peerMru) :
    requests [requestPacket c g] = [(g.reqid.toNat, c.request g.ci)] := by
  have hwhole : (c.request g.ci).take (g.peerMru - headerlen) = c.request g.ci := by
    apply List.take_of_length_le
    have := hfits g.ci
    omega
  simp [requests, requestPacket, hwhole]

namespace Effect

theorem asks (h : Effect c knows f out g) (hn : Numbered f) (hids : ids g.log < 256)
    (hfits : ∀ ci, (c.request ci).length + headerlen ≤ limit) (hmru : limit ≤ f.peerMru)
    (b : Fsm σ) (ab ba : List Packet) :
    (exchange c f b ab ba).Steps (exchange c g b (ab ++ out) ba) := by
  have hmru' : limit ≤ g.peerMru := by
    rw [h.grew.2.2]
    exact hmru
  have hidf : f.id.toNat = ids f.log := hn.toNat_id (Nat.lt_of_le_of_lt h.ids_le hids)
  have hreqidf : f.reqid.toNat ≤ ids f.log :=
    hn.toNat_reqid (Nat.lt_of_le_of_lt h.ids_le hids)
  have hidg : g.id.toNat = ids g.log := (h.numbered hn).toNat_id hids
  cases h with
  | note hid hgrew hkeeps => exact steps_of_keeps hkeeps.live hkeeps.gotAck hid.reqid rfl b ab ba
  | send code id data hcode =>
    apply steps_of_keeps (fun h => ⟨h, rfl⟩) (fun h => h) rfl
    exact requests_none fun p hp => by rw [List.mem_singleton.mp hp]; exact hcode.1
  | number => exact steps_of_keeps (fun h => ⟨h, rfl⟩) (fun h => h) rfl rfl b ab ba
  | renumber hdead =>
    have hnone : gotAck f.state = false := gotAck_of_dead hdead
    have hrest := Exchange.Step.rest (exchange c f b ab ba) f.id.toNat (c.request f.ci)
      (show f.reqid.toNat ≤ f.id.toNat by omega)
    have heq : exchange c { f with reqid := f.id } b (ab ++ []) ba = { exchange c f b ab ba with
        number := f.id.toNat, content := c.request f.ci, live := false, acked := false } := by
      simp [exchange, hdead, hnone]
    rw [heq]
    exact .single hrest
  | ask hid hreqid hcount hgrew hlive hgot hstands =>
    have hnew : f.reqid.toNat < g.reqid.toNat := by
      rw [hreqid, hidg]
      omega
    have hask := Exchange.Step.ask (exchange c f b ab ba) g.reqid.toNat (c.request g.ci) hnew
    have heq : exchange c g b (ab ++ [requestPacket c g]) ba = { exchange c f b ab ba with
        number := g.reqid.toNat, content := c.request g.ci, live := true, acked := false,
        asks := requests ab ++ [(g.reqid.toNat, c.request g.ci)] } := by
      simp only [exchange, requests_append, requests_requestPacket hfits hmru', hlive, hgot]
    rw [heq]
    exact .single hask
  | again hid hgrew hlive hkeeps =>
    have hkeep : (exchange c f b ab ba).Steps (exchange c g b (ab ++ []) ba) :=
      steps_of_keeps hkeeps.live hkeeps.gotAck hid.reqid rfl b ab ba
    rw [List.append_nil] at hkeep
    have hagain := Exchange.Step.again (exchange c g b ab ba)
    have heq : exchange c g b (ab ++ [requestPacket c g]) ba = { exchange c g b ab ba with
        asks := requests ab ++ [(g.reqid.toNat, c.request g.ci)] } := by
      simp only [exchange, requests_append, requests_requestPacket hfits hmru']
    rw [heq]
    exact hkeep.tail hagain

theorem short (h : Effect c knows f out g)
    (hfits : ∀ ci, (c.request ci).length + headerlen ≤ limit) : Short limit out := by
  have hrequest : Short limit [requestPacket c g] := by
    intro p hp hcode
    rw [List.mem_singleton.mp hp]
    have := hfits g.ci
    simp only [requestPacket, List.length_take]
    omega
  cases h with
  | note | number | renumber => exact fun p hp => by cases hp
  | send code id data hcode =>
    intro p hp hor
    rw [List.mem_singleton.mp hp] at hor
    exact absurd hor (not_or.mpr hcode)
  | ask | again => exact hrequest

theorem turn (h : Effect c knows f out g) (hready : Ready c knows suits limit f)
    (hids : ids g.log < 256) (hfits : ∀ ci, (c.request ci).length + headerlen ≤ limit) :
    Turn c knows suits limit [] f g out where
  sent := h.grew.1
  asks := h.asks hready.numbered hids hfits hready.mru
  answers a ab ba := by
    have heq : exchange c a g ab (ba ++ out) = exchange c a f ab ba := by
      simp [exchange, h.grew.2.1, acknowledgements_none h.clean]
    rw [heq]
    exact .refl
  last := .inl (by rw [h.grew.2.1])
  ready := ⟨h.numbered hready.numbered, h.recorded hready.numbered hids hready.recorded,
    by rw [h.grew.2.2]; exact hready.mru⟩
  short := h.short hfits

end Effect

/-- Packets are lost. -/
theorem exchange_lose (a b : Fsm σ) {ab ab' ba ba' : List Packet} (hab : ab'.Sublist ab)
    (hba : ba'.Sublist ba) : (exchange c a b ab ba).Steps (exchange c a b ab' ba') :=
  .single (Exchange.Step.lose (exchange c a b ab ba) _ _ (hab.filterMap _) (hba.filterMap _))

namespace Turn

variable {reads : List Packet}

theorem refl (hready : Ready c knows suits limit f) : Turn c knows suits limit [] f f [] where
  sent := (List.append_nil _).symm
  asks b ab ba := by
    rw [List.append_nil]
    exact .refl
  answers a ab ba := by
    rw [List.append_nil]
    exact .refl
  last := .inl rfl
  ready := hready
  short p hp := by cases hp

theorem trans (h : Turn c knows suits limit [] f g out)
    (h' : Turn c knows suits limit reads g k more) :
    Turn c knows suits limit reads f k (out ++ more) where
  sent := by rw [h'.sent, h.sent, List.append_assoc]
  asks b ab ba := by
    rw [← List.append_assoc]
    exact (h.asks b ab (reads ++ ba)).trans (h'.asks b (ab ++ out) ba)
  answers a ab ba := by
    rw [← List.append_assoc]
    exact (h.answers a (reads ++ ab) ba).trans (h'.answers a ab (ba ++ out))
  last := by
    rcases h.last with hsame | ⟨hne, -⟩
    · rw [← hsame]
      exact h'.last
    · exact absurd rfl hne
  ready := h'.ready
  short := h.short.append h'.short

/-- What is read need not matter. -/
theorem reading (h : Turn c knows suits limit [] f g out) (p : Packet) :
    Turn c knows suits limit [p] f g out where
  sent := h.sent
  asks b ab ba := (h.asks b ab (p :: ba)).trans
    (exchange_lose g b (List.Sublist.refl _) (List.sublist_cons_self p ba))
  answers a ab ba := (h.answers a (p :: ab) ba).trans
    (exchange_lose a g (List.sublist_cons_self p ab) (List.Sublist.refl _))
  last := by
    rcases h.last with hsame | ⟨hne, -⟩
    · exact .inl hsame
    · exact absurd rfl hne
  ready := h.ready
  short := h.short

end Turn

theorem Effects.ids_le (h : Effects c knows f out g) : ids f.log ≤ ids g.log := by
  induction h with
  | nil => exact Nat.le_refl _
  | cons heffect _ ih => exact Nat.le_trans heffect.ids_le ih

theorem Effects.turn (h : Effects c knows f out g) (hready : Ready c knows suits limit f)
    (hids : ids g.log < 256) (hfits : ∀ ci, (c.request ci).length + headerlen ≤ limit) :
    Turn c knows suits limit [] f g out := by
  induction h with
  | nil f => exact .refl hready
  | cons heffect hrest ih =>
    have hfirst := heffect.turn hready (Nat.lt_of_le_of_lt hrest.ids_le hids) hfits
    exact hfirst.trans (ih hfirst.ready hids)

theorem Numbered.same (h : Numbered f) (hs : SameId f g) : Numbered g := by
  obtain ⟨hid, n, hle, hreqid⟩ := h
  exact ⟨by rw [hs.id, hs.ids, hid], n, by rw [hs.ids]; exact hle, by rw [hs.reqid, hreqid]⟩

theorem Reply.turn {q : Packet} {code : UInt8} {data : List UInt8}
    (h : Reply c knows suits q f code data g) (hcode : q.code = confreq)
    (hready : Ready c knows suits limit f) (hshort : q.data.length + headerlen ≤ limit) :
    Turn c knows suits limit [q] f g [⟨code, q.id, data.take (f.peerMru - headerlen)⟩] := by
  have hmru := hready.mru
  have hnone : requests [⟨code, q.id, data.take (f.peerMru - headerlen)⟩] = [] :=
    requests_none fun p hp => by rw [List.mem_singleton.mp hp]; exact h.other
  have hwhole : code = confack → data.take (f.peerMru - headerlen) = q.data := by
    intro hack
    rw [h.ack hack]
    apply List.take_of_length_le
    omega
  have hlast : (Ppp.asked g.log).getLast? = some ⟨f.reqid, q.id, q.data⟩ := by simp [h.asked]
  refine ⟨h.sent, ?_, ?_, .inr ⟨by simp, _, hlast, h.id.reqid.symm⟩,
    ⟨hready.numbered.same h.id, ?_, by rw [h.mru]; exact hmru⟩, ?_⟩
  · intro b ab ba
    exact (steps_of_keeps h.live h.gotAck h.id.reqid hnone b ab (q :: ba)).trans
      (exchange_lose g b (List.Sublist.refl _) (List.sublist_cons_self q ba))
  · intro a ab ba
    have hasks : requests (q :: ab) = (q.id.toNat, q.data) :: requests ab := by
      simp [requests, hcode]
    have hanswer := Exchange.Step.answer (exchange c a f (q :: ab) ba) (q.id.toNat, q.data)
      (requests ab) (code == confack) hasks
    have hacks : acknowledgements (ba ++ [⟨code, q.id, data.take (f.peerMru - headerlen)⟩]) =
        if (code == confack) = true then acknowledgements ba ++ [(q.id.toNat, q.data)]
        else acknowledgements ba := by
      rw [acknowledgements_append]
      split
      · rename_i hack
        have hack' : code = confack := by simpa using hack
        simp only [acknowledgements, List.filterMap_cons, hack', if_true, List.filterMap_nil]
        rw [hwhole hack']
      · rename_i hack
        have hother : ∀ p ∈ [(⟨code, q.id, data.take (f.peerMru - headerlen)⟩ : Packet)],
            p.code ≠ confack := by
          intro p hp
          rw [List.mem_singleton.mp hp]
          simpa using hack
        rw [acknowledgements_none hother, List.append_nil]
    have heq : exchange c a g ab (ba ++ [⟨code, q.id, data.take (f.peerMru - headerlen)⟩]) =
        { exchange c a f (q :: ab) ba with
          asks := requests ab, asked := some (q.id.toNat, q.data),
          acks := if (code == confack) = true then acknowledgements ba ++ [(q.id.toNat, q.data)]
            else acknowledgements ba } := by
      simp only [exchange, hacks, h.asked, List.getLast?_append]
      rfl
    simp only [List.singleton_append]
    rw [heq]
    exact .single hanswer
  · intro hsent
    obtain ⟨-, hknows, hsuits⟩ := h.stands hsent
    refine ⟨_, hlast, hknows, Nat.le_of_eq (congrArg _ h.id.reqid.symm), fun _ => ?_⟩
    rw [(h.live (live_of_sentAck hsent)).2]
    exact hsuits
  · intro p hp hor
    rw [List.mem_singleton.mp hp] at hor ⊢
    rcases hor with hreq | hack
    · exact absurd hreq h.other
    · simp only
      rw [hwhole hack]
      exact hshort

theorem Hear.turn {q : Packet} (h : Hear c knows q f g) (hcode : q.code = confack)
    (hready : Ready c knows suits limit f) : Turn c knows suits limit [q] f g [] := by
  refine ⟨h.grew.sent, ?_, ?_, .inl (by rw [h.grew.asked]),
    ⟨hready.numbered.same h.id, ?_, ?_⟩, fun p hp => by cases hp⟩
  · intro b ab ba
    have hacks : acknowledgements (q :: ba) = (q.id.toNat, q.data) :: acknowledgements ba := by
      simp [acknowledgements, hcode]
    have hhear := Exchange.Step.hear (exchange c f b ab (q :: ba)) (q.id.toNat, q.data)
      (acknowledgements ba) hacks h.before (by simp [exchange, h.current])
    have heq : exchange c g b (ab ++ []) ba = { exchange c f b ab (q :: ba) with
        acks := acknowledgements ba, acked := true } := by
      simp [exchange, h.id.reqid, h.live, h.before, h.request, h.gotAck]
    simp only [List.singleton_append]
    rw [heq]
    exact .single hhear
  · intro a ab ba
    have heq : exchange c a g (q :: ab) (ba ++ []) = exchange c a f (q :: ab) ba := by
      simp [exchange, h.grew.asked]
    have hlose := exchange_lose (c := c) a g (List.sublist_cons_self q ab)
      (List.Sublist.refl (ba ++ []))
    rw [heq] at hlose
    exact hlose
  · intro hsent
    obtain ⟨hsent', hknows⟩ := h.stands hsent
    obtain ⟨r, hlast, hdata, hown, hsuits⟩ := hready.recorded hsent'
    refine ⟨r, by rw [h.grew.asked, hlast], hknows _ hdata, by rw [h.id.reqid]; exact hown, ?_⟩
    rw [h.id.reqid, h.request]
    exact hsuits
  · rw [h.grew.mru]
    exact hready.mru

theorem Reaction.ids_le {q : Packet} (h : Reaction c knows suits q f g) :
    ids f.log ≤ ids g.log := by
  cases h with
  | does h =>
    obtain ⟨out, h⟩ := h
    exact h.ids_le
  | answers hcode h hreply =>
    obtain ⟨out, h⟩ := h
    exact Nat.le_trans h.ids_le (Nat.le_of_eq hreply.id.ids.symm)
  | hears hcode h => exact Nat.le_of_eq h.id.ids.symm

theorem Reaction.turn {q : Packet} (h : Reaction c knows suits q f g)
    (hready : Ready c knows suits limit f) (hids : ids g.log < 256) (hfits : ∀ ci, (c.request ci).length + headerlen ≤ limit)
    (p : Packet) (hsame : q.code = confreq ∨ q.code = confack →
      q = p ∧ p.data.length + headerlen ≤ limit) :
    ∃ out, Turn c knows suits limit [p] f g out := by
  cases h with
  | does h =>
    obtain ⟨out, h⟩ := h
    exact ⟨out, (h.turn hready hids hfits).reading p⟩
  | answers hcode h hreply =>
    obtain ⟨rfl, hshort⟩ := hsame (.inl hcode)
    obtain ⟨out, h⟩ := h
    have hfirst := h.turn hready (hreply.id.ids ▸ hids) hfits
    exact ⟨_, hfirst.trans (hreply.turn hcode hfirst.ready hshort)⟩
  | hears hcode h =>
    obtain ⟨rfl, -⟩ := hsame (.inr hcode)
    exact ⟨_, h.turn hcode hready⟩

theorem parse_encode {p : Packet} (hshort : p.data.length + headerlen < 65536) :
    parse (encode p) = some p := by
  have hhi : (UInt8.ofNat ((p.data.length + headerlen) / 256)).toNat =
      (p.data.length + headerlen) / 256 := UInt8.toNat_ofNat_of_lt' (by simp only [UInt8.size]; omega)
  have hlo : (UInt8.ofNat ((p.data.length + headerlen) % 256)).toNat =
      (p.data.length + headerlen) % 256 := UInt8.toNat_ofNat_of_lt' (by simp only [UInt8.size]; omega)
  have hlen : (p.data.length + headerlen) / 256 * 256 + (p.data.length + headerlen) % 256 =
      p.data.length + headerlen := by omega
  simp only [encode, List.cons_append, List.nil_append, parse, hhi, hlo, hlen, List.length_cons]
  rw [if_neg (by omega), if_neg (by simp only [headerlen]; omega), Nat.add_sub_cancel,
    List.take_length]

/-- However long a packet is, its code arrives. -/
theorem parse_encode_code {p q : Packet} (h : parse (encode p) = some q) : q.code = p.code := by
  simp only [encode, List.cons_append, List.nil_append, parse] at h
  split at h
  · cases h
  · obtain ⟨-, hwhole⟩ := Option.ite_none_left_eq_some.mp h
    rw [← Option.some.inj hwhole]

/-- What an end does with the first packet on its line. -/
theorem turn_deliver (hh : Honest c knows suits) (hready : Ready c knows suits limit f) (p : Packet)
    (hids : ids (step c f (.input (encode p))).log < 256)
    (hfits : ∀ ci, (c.request ci).length + headerlen ≤ limit) (hlimit : limit < 65536)
    (hshort : p.code = confreq ∨ p.code = confack → p.data.length + headerlen ≤ limit) :
    ∃ out, Turn c knows suits limit [p] f (step c f (.input (encode p))) out := by
  cases hparse : parse (encode p) with
  | none =>
    have hsame : step c f (.input (encode p)) = f := by simp [step, fsmInput, hparse]
    rw [hsame]
    exact ⟨_, (Turn.refl hready).reading p⟩
  | some q =>
    apply (reaction_fsmInput hh f hparse).turn hready hids hfits p
    intro hcode
    rw [parse_encode_code hparse] at hcode
    have hshort' := hshort hcode
    have hwhole := parse_encode (Nat.lt_of_le_of_lt hshort' hlimit)
    exact ⟨Option.some.inj (hparse.symm.trans hwhole), hshort'⟩

theorem End.cases_other (e s : End) : s = e ∨ s = e.other := by
  cases e <;> cases s <;> simp [End.other]

theorem End.other_ne (e : End) : e.other ≠ e := by
  cases e <;> simp [End.other]

@[simp] theorem End.other_other (e : End) : e.other.other = e := by
  cases e <;> rfl

/-- Of two answers one came after the request the other one answered. -/
def Crossed (f g : Fsm σ) : Prop :=
  ∀ r ∈ (asked f.log).getLast?, ∀ r' ∈ (asked g.log).getLast?,
    r'.id.toNat ≤ r.own.toNat ∨ r.id.toNat ≤ r'.own.toNat

theorem Crossed.symm (h : Crossed f g) : Crossed g f :=
  fun r hr r' hr' => (h r' hr' r hr).symm

structure Agreed (c : Callbacks σ) (knows : σ → List UInt8 → Prop)
    (suits : List UInt8 → List UInt8 → Prop) (limit : Nat) (l : Pair σ) : Prop where
  ordered : ∀ e,
    (exchange c (l.ends e) (l.ends e.other) (l.line e) (l.line e.other)).Ordered
  crossed : ∀ e, Crossed (l.ends e) (l.ends e.other)
  ready : ∀ e, Ready c knows suits limit (l.ends e)
  short : ∀ e, Short limit (l.line e)

namespace Agreed

variable {l : Pair σ}

theorem initial (s : End → Setup) (ci : End → σ) (hmru : ∀ e, limit ≤ (s e).peerMru) :
    Agreed c knows suits limit (Pair.initial s ci) where
  ordered e := by
    constructor <;> simp [exchange, Pair.initial, fsmInit, requests, acknowledgements, asked,
      gotAck]
  crossed e r hr := by cases hr
  ready e := ⟨⟨rfl, 0, Nat.le_refl _, rfl⟩, (fun hsent => by cases hsent), hmru e⟩
  short e p hp := by cases hp

theorem put (h : Agreed c knows suits limit l) (e : End) {g : Fsm σ} {sends reads : List Packet}
    (hasks : (exchange c (l.ends e) (l.ends e.other) (l.line e) (l.line e.other)).Steps
      (exchange c g (l.ends e.other) sends reads))
    (hanswers : (exchange c (l.ends e.other) (l.ends e) (l.line e.other) (l.line e)).Steps
      (exchange c (l.ends e.other) g reads sends))
    (hlast : (asked g.log).getLast? = (asked (l.ends e).log).getLast? ∨
      ∃ r, (asked g.log).getLast? = some r ∧ r.own = g.reqid)
    (hready : Ready c knows suits limit g) (hsends : Short limit sends)
    (hreads : Short limit reads) : Agreed c knows suits limit (l.put e g sends reads) := by
  have hother := End.other_ne e
  have hordered := (h.ordered e).steps hasks
  have hcrossed : Crossed g (l.ends e.other) := by
    rcases hlast with hsame | ⟨r, hlast, hown⟩
    · rw [Crossed, hsame]
      exact h.crossed e
    · intro r₁ hr₁ r₂ hr₂
      obtain rfl : r₁ = r := by
        rw [hlast] at hr₁
        exact (Option.some.inj hr₁).symm
      have hle := hordered.asked_le (q := (r₂.id.toNat, r₂.data)) (by
        rw [Option.mem_def] at hr₂
        simp [exchange, hr₂])
      rw [hown]
      exact .inl hle
  refine ⟨?_, ?_, ?_, ?_⟩ <;> intro s <;> rcases End.cases_other e s with rfl | rfl
  · simpa [Pair.put, hother] using hordered
  · have hback := h.ordered e.other
    rw [End.other_other] at hback
    simpa [Pair.put, hother] using hback.steps hanswers
  · simpa [Pair.put, hother] using hcrossed
  · simpa [Pair.put, hother] using hcrossed.symm
  · simpa [Pair.put] using hready
  · simpa [Pair.put, hother] using h.ready e.other
  · simpa [Pair.put] using hsends
  · simpa [Pair.put, hother] using hreads

theorem turn (h : Agreed c knows suits limit l) (e : End) {g : Fsm σ} {reads rest : List Packet}
    (hline : l.line e.other = reads ++ rest)
    (ht : Turn c knows suits limit reads (l.ends e) g out) :
    Agreed c knows suits limit (l.put e g (l.line e ++ Pair.news (l.ends e) g) rest) := by
  have hnews : Pair.news (l.ends e) g = out := by simp [Pair.news, ht.sent]
  rw [hnews]
  apply h.put e
  · rw [hline]
    exact ht.asks _ _ _
  · rw [hline]
    exact ht.answers _ _ _
  · exact ht.last.imp_right fun hnew => hnew.2
  · exact ht.ready
  · exact (h.short e).append ht.short
  · apply (h.short e.other).subset
    rw [hline]
    exact List.subset_append_right _ _

theorem exec (hh : Honest c knows suits)
    (hfits : ∀ ci, (c.request ci).length + headerlen ≤ limit) (hlimit : limit < 65536)
    (h : Agreed c knows suits limit l) (m : Move)
    (hids : ∀ e, ids ((l.exec c m).ends e).log < 256) :
    Agreed c knows suits limit (l.exec c m) := by
  cases m with
  | act e event =>
    have hself : ((l.exec c (.act e event)).ends e) = step c (l.ends e) event.val := by
      simp [Pair.exec, Pair.put]
    obtain ⟨out, hdoes⟩ := does_step hh (l.ends e) event.property
    have ht := hdoes.turn (h.ready e) (hself ▸ hids e) hfits
    exact h.turn e (List.nil_append _).symm ht
  | deliver e =>
    cases hline : l.line e.other with
    | nil => simpa [Pair.exec, hline] using h
    | cons p rest =>
      have hself : (l.exec c (.deliver e)).ends e = step c (l.ends e) (.input (encode p)) := by
        simp [Pair.exec, hline, Pair.put]
      have hshort := h.short e.other p (by simp [hline])
      obtain ⟨out, ht⟩ := turn_deliver hh (h.ready e) p (hself ▸ hids e) hfits hlimit hshort
      have hread : l.line e.other = [p] ++ rest := hline
      simpa [Pair.exec, hline] using h.turn e hread ht
  | lose e index =>
    have hsub := List.eraseIdx_sublist (l.line e) index
    apply h.put e
    · exact exchange_lose _ _ hsub (List.Sublist.refl _)
    · exact exchange_lose _ _ (List.Sublist.refl _) hsub
    · exact .inl rfl
    · exact h.ready e
    · exact (h.short e).subset hsub.subset
    · exact h.short e.other

end Agreed

theorem exec_ids_le (hh : Honest c knows suits) (l : Pair σ) (m : Move) (e : End) :
    ids (l.ends e).log ≤ ids ((l.exec c m).ends e).log := by
  have hput : ∀ (s : End) (g : Fsm σ) (sends reads : List Packet),
      ids (l.ends s).log ≤ ids g.log →
      ids (l.ends e).log ≤ ids ((l.put s g sends reads).ends e).log := by
    intro s g sends reads hle
    simp only [Pair.put]
    split
    · rename_i heq
      rw [heq]
      exact hle
    · exact Nat.le_refl _
  cases m with
  | act s event =>
    obtain ⟨out, hdoes⟩ := does_step hh (l.ends s) event.property
    exact hput s _ _ _ hdoes.ids_le
  | deliver s =>
    simp only [Pair.exec]
    split
    · exact Nat.le_refl _
    · rename_i p rest hline
      apply hput
      cases hparse : parse (encode p) with
      | none => simp [step, fsmInput, hparse]
      | some q => exact (reaction_fsmInput hh (l.ends s) hparse).ids_le
  | lose s index => exact hput s _ _ _ (Nat.le_refl _)

theorem run_ids_le (hh : Honest c knows suits) (l : Pair σ) (moves : List Move) (e : End) :
    ids (l.ends e).log ≤ ids ((l.run c moves).ends e).log := by
  induction moves generalizing l with
  | nil => exact Nat.le_refl _
  | cons m rest ih => exact Nat.le_trans (exec_ids_le hh l m e) (ih (l.exec c m))

theorem Agreed.run (hh : Honest c knows suits)
    (hfits : ∀ ci, (c.request ci).length + headerlen ≤ limit) (hlimit : limit < 65536)
    {l : Pair σ} (h : Agreed c knows suits limit l) (moves : List Move)
    (hids : ∀ e, ids ((l.run c moves).ends e).log < 256) :
    Agreed c knows suits limit (l.run c moves) := by
  induction moves generalizing l with
  | nil => exact h
  | cons m rest ih =>
    have hnext : ∀ e, ids ((l.exec c m).ends e).log < 256 := fun e =>
      Nat.lt_of_le_of_lt (run_ids_le hh (l.exec c m) rest e) (hids e)
    exact ih (h.exec hh hfits hlimit m hnext) hids

/-- The last request that an end has answered, when the other end holds an
acknowledgement. -/
theorem Agreed.last {l : Pair σ} (h : Agreed c knows suits limit l) (e : End)
    (hgot : gotAck (l.ends e).state = true) :
    ∃ r, (asked (l.ends e.other).log).getLast? = some r ∧ r.id = (l.ends e).reqid ∧
      r.data = c.request (l.ends e).ci := by
  have hagree := (h.ordered e).agree hgot
  simp only [exchange, Option.map_eq_some_iff, Prod.mk.injEq] at hagree
  obtain ⟨r, hlast, hid, hdata⟩ := hagree
  exact ⟨r, hlast, UInt8.toNat_inj.mp hid, hdata⟩

theorem Agreed.answered {l : Pair σ} (h : Agreed c knows suits limit l) (e : End)
    (hopen : (l.ends e).state = .opened) :
    ∃ r, (asked (l.ends e.other).log).getLast? = some r ∧ r.id = (l.ends e).reqid ∧
      r.data = c.request (l.ends e).ci ∧
      (sentAck (l.ends e.other).state = true →
        knows (l.ends e.other).ci (c.request (l.ends e).ci)) := by
  obtain ⟨r, hlast, hid, hdata⟩ := h.last e (by rw [hopen]; rfl)
  refine ⟨r, hlast, hid, hdata, fun hsent => ?_⟩
  obtain ⟨r', hlast', hknows, -⟩ := (h.ready e.other).recorded hsent
  obtain rfl : r' = r := Option.some.inj (hlast'.symm.trans hlast)
  rw [← hdata]
  exact hknows

theorem Agreed.suited {l : Pair σ} (h : Agreed c knows suits limit l)
    (hopen : ∀ e, (l.ends e).state = .opened) :
    ∃ e : End, suits (c.request (l.ends e).ci) (c.request (l.ends e.other).ci) := by
  have hend : ∀ e, ∃ r, (asked (l.ends e).log).getLast? = some r ∧
      r.id = (l.ends e.other).reqid ∧ r.data = c.request (l.ends e.other).ci ∧
      r.own.toNat ≤ (l.ends e).reqid.toNat ∧
      (r.own = (l.ends e).reqid → suits (c.request (l.ends e).ci) r.data) := by
    intro e
    obtain ⟨r, hlast, hid, hdata⟩ := h.last e.other (by rw [hopen]; rfl)
    rw [End.other_other] at hlast
    obtain ⟨r', hlast', -, hown, hsuits⟩ := (h.ready e).recorded (by rw [hopen]; rfl)
    obtain rfl : r' = r := Option.some.inj (hlast'.symm.trans hlast)
    exact ⟨r', hlast, hid, hdata, hown, hsuits⟩
  obtain ⟨r, hlast, hid, hdata, hown, hsuits⟩ := hend .near
  obtain ⟨r', hlast', hid', hdata', hown', hsuits'⟩ := hend .far
  rcases h.crossed .near r hlast r' hlast' with hcross | hcross
  · refine ⟨.near, ?_⟩
    rw [← hdata]
    apply hsuits
    rw [hid'] at hcross
    exact UInt8.toNat_inj.mp (Nat.le_antisymm hown hcross)
  · refine ⟨.far, ?_⟩
    rw [← hdata']
    apply hsuits'
    rw [hid] at hcross
    exact UInt8.toNat_inj.mp (Nat.le_antisymm hown' hcross)

/-- Where an automaton is opened, the last request its peer answered is the one
it uses now; and once the peer has acknowledged it, the peer knows just the
options this request asks for. -/
theorem opened_agree (hh : Honest c knows suits) (limit : Nat)
    (hfits : ∀ ci, (c.request ci).length + headerlen ≤ limit) (hlimit : limit < 65536)
    (s : End → Setup) (ci : End → σ) (hmru : ∀ e, limit ≤ (s e).peerMru) (moves : List Move)
    (l : Pair σ) (hl : l = (Pair.initial s ci).run c moves)
    (hids : ∀ e, ids (l.ends e).log < 256) (e : End) (hopen : (l.ends e).state = .opened) :
    ∃ r, (asked (l.ends e.other).log).getLast? = some r ∧ r.id = (l.ends e).reqid ∧
      r.data = c.request (l.ends e).ci ∧
      (sentAck (l.ends e.other).state = true →
        knows (l.ends e.other).ci (c.request (l.ends e).ci)) := by
  subst hl
  exact ((Agreed.initial s ci hmru).run hh hfits hlimit moves hids).answered e hopen

/-- Where both automata are opened, one of them has found the request of the
other to suit the request it uses itself now: the two have not changed what they
ask for behind each other's back. -/
theorem opened_suit (hh : Honest c knows suits) (limit : Nat)
    (hfits : ∀ ci, (c.request ci).length + headerlen ≤ limit) (hlimit : limit < 65536)
    (s : End → Setup) (ci : End → σ) (hmru : ∀ e, limit ≤ (s e).peerMru) (moves : List Move)
    (l : Pair σ) (hl : l = (Pair.initial s ci).run c moves)
    (hids : ∀ e, ids (l.ends e).log < 256) (hopen : ∀ e, (l.ends e).state = .opened) :
    ∃ e : End, suits (c.request (l.ends e).ci) (c.request (l.ends e.other).ci) := by
  subst hl
  exact ((Agreed.initial s ci hmru).run hh hfits hlimit moves hids).suited hopen

end GameAcc.Ppp
