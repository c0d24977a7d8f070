import GameAcc.Ppp.FsmSilent

/-!
What an automaton does, seen by its peer: it asks with a new number, asks again,
sends something that is neither a request nor an acknowledgement, or says
nothing and promises no more than before. Every function of the automaton is a
sequence of these, except that a request may be answered at the end and that an
acknowledgement may be heard.
-/

namespace GameAcc.Ppp

variable {σ : Type}

/-- A request of the peer that was answered while `own` was in use. -/
structure Asked where
  own : UInt8
  id : UInt8
  data : List UInt8

def asked : List Action → List Asked := List.filterMap fun
  | .asked own id data => some ⟨own, id, data⟩
  | _ => none

/-- How often `f->id` was stepped. -/
def ids (log : List Action) : Nat := log.count .newId

/-- Calls of the layers above and below. -/
def Action.told : Action → Bool
  | .up | .down | .starting | .finished => true
  | _ => false

def live (s : State) : Bool := negotiating s || s = .opened

def gotAck (s : State) : Bool := s = .ackrcvd || s = .opened

def sentAck (s : State) : Bool := s = .acksent || s = .opened

theorem live_of_gotAck {s : State} (h : gotAck s = true) : live s = true := by
  cases s <;> first | rfl | cases h

theorem gotAck_of_dead {s : State} (h : live s = false) : gotAck s = false := by
  cases s <;> first | rfl | cases h

theorem live_of_sentAck {s : State} (h : sentAck s = true) : live s = true := by
  cases s <;> first | rfl | cases h

/-- What is expected of a protocol. Its options change only where `fsm.c` lets
them, and what it knows of the peer stays when it has acknowledged a request: that
the peer has asked for the options `data` is `knows ci data`. What it acknowledges
suits its own request. -/
structure Honest (c : Callbacks σ) (knows : σ → List UInt8 → Prop)
    (suits : List UInt8 → List UInt8 → Prop) : Prop where
  check : ∀ (f : Fsm σ) (data : List UInt8),
    c.request (c.check f data).2.2 = c.request f.ci ∧
      ((c.check f data).1 = .ack →
        (c.check f data).2.1 = data ∧ knows (c.check f data).2.2 data ∧
          suits (c.request f.ci) data)
  up : ∀ up, c.up = some up → ∀ ci,
    c.request (up ci) = c.request ci ∧ ∀ data, knows ci data → knows (up ci) data
  retransmit : ∀ retransmit, c.retransmit = some retransmit → ∀ ci,
    c.request (retransmit ci) = c.request ci ∧
      ∀ data, knows ci data → knows (retransmit ci) data
  nakci : ∀ nakci, c.nakci = some nakci → ∀ state ci data treat,
    ((nakci state ci data treat).1 = 0 → c.request (nakci state ci data treat).2 = c.request ci) ∧
      ∀ his, knows ci his → knows (nakci state ci data treat).2 his
  rejci : ∀ rejci, c.rejci = some rejci → ∀ state ci data,
    ((rejci state ci data).1 = 0 → c.request (rejci state ci data).2 = c.request ci) ∧
      ∀ his, knows ci his → knows (rejci state ci data).2 his
  extcode : ∀ extcode, c.extcode = some extcode → ∀ state ci p,
    (c.request (extcode state ci p).2 = c.request ci ∧
      ∀ data, knows ci data → knows (extcode state ci p).2 data) ∧
    ∀ replies, (extcode state ci p).1 = some replies →
      ∀ r ∈ replies, r.code ≠ confreq ∧ r.code ≠ confack

structure SameId (f g : Fsm σ) : Prop where
  id : g.id = f.id
  reqid : g.reqid = f.reqid
  ids : ids g.log = ids f.log

structure Grew (f g : Fsm σ) (out : List Packet) : Prop where
  sent : sent g.log = sent f.log ++ out
  asked : asked g.log = asked f.log
  mru : g.peerMru = f.peerMru

/-- The acknowledgement that was sent still stands. -/
def Stands (knows : σ → List UInt8 → Prop) (f g : Fsm σ) : Prop :=
  sentAck g.state = true → sentAck f.state = true ∧ ∀ data, knows f.ci data → knows g.ci data

structure Keeps (c : Callbacks σ) (knows : σ → List UInt8 → Prop) (f g : Fsm σ) : Prop where
  live : live g.state = true → live f.state = true ∧ c.request g.ci = c.request f.ci
  gotAck : gotAck g.state = true → gotAck f.state = true
  stands : Stands knows f g

/-- The request as it is sent. -/
def requestPacket (c : Callbacks σ) (f : Fsm σ) : Packet :=
  ⟨confreq, f.reqid, (c.request f.ci).take (f.peerMru - headerlen)⟩

inductive Effect (c : Callbacks σ) (knows : σ → List UInt8 → Prop) :
    Fsm σ → List Packet → Fsm σ → Prop
  | note {f g : Fsm σ} (hid : SameId f g) (hgrew : Grew f g []) (hkeeps : Keeps c knows f g) :
      Effect c knows f [] g
  | send (f : Fsm σ) (code id : UInt8) (data : List UInt8)
      (hcode : code ≠ confreq ∧ code ≠ confack) :
      Effect c knows f [⟨code, id, data.take (f.peerMru - headerlen)⟩] (f.sdata code id data)
  | number (f : Fsm σ) : Effect c knows f [] f.nextId
  | renumber (f : Fsm σ) (hdead : live f.state = false) :
      Effect c knows f [] { f with reqid := f.id }
  | ask {f g : Fsm σ} (hid : g.id = f.id + 1) (hreqid : g.reqid = g.id)
      (hids : ids g.log = ids f.log + 1) (hgrew : Grew f g [requestPacket c g])
      (hlive : live g.state = true) (hgot : gotAck g.state = false) (hstands : Stands knows f g) :
      Effect c knows f [requestPacket c g] g
  | again {f g : Fsm σ} (hid : SameId f g) (hgrew : Grew f g [requestPacket c g])
      (hlive : live g.state = true) (hkeeps : Keeps c knows f g) :
      Effect c knows f [requestPacket c g] g

inductive Effects (c : Callbacks σ) (knows : σ → List UInt8 → Prop) :
    Fsm σ → List Packet → Fsm σ → Prop
  | nil (f : Fsm σ) : Effects c knows f [] f
  | cons {f g k : Fsm σ} {out more : List Packet} (heffect : Effect c knows f out g)
      (hrest : Effects c knows g more k) : Effects c knows f (out ++ more) k

/-- Some sequence of effects. -/
def Does (c : Callbacks σ) (knows : σ → List UInt8 → Prop) (f g : Fsm σ) : Prop :=
  ∃ out, Effects c knows f out g

/-- A request is answered. -/
structure Reply (c : Callbacks σ) (knows : σ → List UInt8 → Prop)
    (suits : List UInt8 → List UInt8 → Prop) (q : Packet) (f : Fsm σ) (code : UInt8)
    (data : List UInt8) (g : Fsm σ) : Prop where
  id : SameId f g
  sent : sent g.log = sent f.log ++ [⟨code, q.id, data.take (f.peerMru - headerlen)⟩]
  asked : asked g.log = asked f.log ++ [⟨f.reqid, q.id, q.data⟩]
  mru : g.peerMru = f.peerMru
  other : code ≠ confreq
  ack : code = confack → data = q.data
  live : live g.state = true → live f.state = true ∧ c.request g.ci = c.request f.ci
  gotAck : gotAck g.state = true → gotAck f.state = true
  stands : sentAck g.state = true →
    code = confack ∧ knows g.ci q.data ∧ suits (c.request f.ci) q.data

/-- An acknowledgement is accepted. -/
structure Hear (c : Callbacks σ) (knows : σ → List UInt8 → Prop) (q : Packet) (f g : Fsm σ) :
    Prop where
  id : SameId f g
  grew : Grew f g []
  current : q.id = f.reqid
  before : Ppp.live f.state = true
  live : Ppp.live g.state = true
  request : c.request g.ci = c.request f.ci
  gotAck : gotAck g.state = true
  stands : Stands knows f g

/-- What a packet does to an automaton. -/
inductive Reaction (c : Callbacks σ) (knows : σ → List UInt8 → Prop)
    (suits : List UInt8 → List UInt8 → Prop) (q : Packet) : Fsm σ → Fsm σ → Prop
  | does {f g : Fsm σ} (h : Does c knows f g) : Reaction c knows suits q f g
  | answers {f m g : Fsm σ} {code : UInt8} {data : List UInt8} (hcode : q.code = confreq)
      (h : Does c knows f m) (hreply : Reply c knows suits q m code data g) :
      Reaction c knows suits q f g
  | hears {f g : Fsm σ} (hcode : q.code = confack) (h : Hear c knows q f g) :
      Reaction c knows suits q f g

section Logs

@[simp] theorem asked_append (a b : List Action) : asked (a ++ b) = asked a ++ asked b :=
  List.filterMap_append

@[simp] theorem ids_append (a b : List Action) : ids (a ++ b) = ids a + ids b :=
  List.count_append

theorem told_quiet {es : List Action} (h : ∀ a ∈ es, a.told = true) :
    sent es = [] ∧ asked es = [] ∧ ids es = 0 := by
  refine ⟨?_, ?_, ?_⟩
  · apply List.filterMap_eq_nil_iff.mpr
    intro a ha
    have htold := h a ha
    cases a <;> first | rfl | cases htold
  · apply List.filterMap_eq_nil_iff.mpr
    intro a ha
    have htold := h a ha
    cases a <;> first | rfl | cases htold
  · apply List.count_eq_zero.mpr
    intro hmem
    cases h _ hmem

end Logs

variable {c : Callbacks σ} {knows : σ → List UInt8 → Prop}
  {suits : List UInt8 → List UInt8 → Prop} {f g k : Fsm σ}

theorem Effect.does {out : List Packet} (h : Effect c knows f out g) : Does c knows f g :=
  ⟨out ++ [], .cons h (.nil g)⟩

namespace Effects

theorem trans {out more : List Packet} (h : Effects c knows f out g)
    (h' : Effects c knows g more k) : Effects c knows f (out ++ more) k := by
  induction h with
  | nil f => exact h'
  | cons heffect _ ih =>
    rw [List.append_assoc]
    exact .cons heffect (ih h')

end Effects

namespace Does

theorem refl (f : Fsm σ) : Does c knows f f := ⟨[], .nil f⟩

theorem trans (h : Does c knows f g) (h' : Does c knows g k) : Does c knows f k := by
  obtain ⟨out, h⟩ := h
  obtain ⟨more, h'⟩ := h'
  exact ⟨out ++ more, h.trans h'⟩

end Does

namespace Keeps

/-- Where nothing is promised any more. -/
theorem dead (h : Ppp.live g.state = false) : Keeps c knows f g where
  live hlive := by simp [h] at hlive
  gotAck hgot := by simp [live_of_gotAck hgot] at h
  stands hsent := by simp [live_of_sentAck hsent] at h

/-- The same options in the same state or in a state that promises less. -/
theorem less (hci : g.ci = f.ci) (hlive : Ppp.live g.state = true → Ppp.live f.state = true)
    (hgot : Ppp.gotAck g.state = true → Ppp.gotAck f.state = true)
    (hsent : sentAck g.state = true → sentAck f.state = true) : Keeps c knows f g where
  live h := ⟨hlive h, by rw [hci]⟩
  gotAck := hgot
  stands h := ⟨hsent h, fun data hknows => hci ▸ hknows⟩

end Keeps

/-- A step that only tells the layers above and below. -/
theorem Does.note {es : List Action} (hlog : g.log = f.log ++ es)
    (hes : ∀ a ∈ es, a.told = true) (hid : g.id = f.id) (hreqid : g.reqid = f.reqid)
    (hmru : g.peerMru = f.peerMru) (hkeeps : Keeps c knows f g) : Does c knows f g := by
  obtain ⟨hsent, hasked, hids⟩ := told_quiet hes
  apply (Effect.note ⟨hid, hreqid, ?_⟩ ⟨?_, ?_, hmru⟩ hkeeps).does
  · rw [hlog, ids_append, hids, Nat.add_zero]
  · rw [hlog, sent_append, hsent]
  · rw [hlog, asked_append, hasked, List.append_nil]

/-- A step after which nothing is promised. -/
theorem Does.dead {es : List Action} (hlog : g.log = f.log ++ es)
    (hes : ∀ a ∈ es, a.told = true) (hid : g.id = f.id) (hreqid : g.reqid = f.reqid)
    (hmru : g.peerMru = f.peerMru) (hdead : live g.state = false) : Does c knows f g :=
  .note hlog hes hid hreqid hmru (.dead hdead)

theorem Does.send (f : Fsm σ) {code : UInt8} (id : UInt8) (data : List UInt8)
    (hcode : code ≠ confreq ∧ code ≠ confack) : Does c knows f (f.sdata code id data) :=
  (Effect.send f code id data hcode).does

theorem resetOptions_same (f : Fsm σ) :
    (resetOptions c f).log = f.log ∧ (resetOptions c f).id = f.id ∧
      (resetOptions c f).peerMru = f.peerMru ∧
      (negotiating f.state = true → (resetOptions c f).ci = f.ci) := by
  unfold resetOptions
  split
  · exact ⟨rfl, rfl, rfl, fun _ => rfl⟩
  · rename_i hnot
    exact ⟨List.append_nil _, rfl, rfl, fun h => absurd h hnot⟩

theorem sconfreq_new (f : Fsm σ) :
    (sconfreq c f false).id = f.id + 1 ∧ (sconfreq c f false).reqid = f.id + 1 ∧
      (sconfreq c f false).peerMru = f.peerMru ∧
      (sconfreq c f false).log =
        f.log ++ [.newId] ++ [.send (requestPacket c (sconfreq c f false))] ∧
      (negotiating f.state = true → (sconfreq c f false).ci = f.ci) := by
  obtain ⟨hlog, hid, hmru, hci⟩ := resetOptions_same (c := c) f
  refine ⟨congrArg (· + 1) hid, congrArg (· + 1) hid, hmru, ?_, hci⟩
  have hsend : (sconfreq c f false).log = (resetOptions c f).log ++ [.newId] ++
      [.send (requestPacket c (sconfreq c f false))] := rfl
  rw [hsend, hlog]

/-- A new request, whatever the layers above and below were told before and
however the options have changed. -/
theorem Does.askAfter {es : List Action} (hlog : k.log = f.log ++ es)
    (hes : ∀ a ∈ es, a.told = true) (hid : k.id = f.id) (hmru : k.peerMru = f.peerMru)
    (s : State) (hs : s = .reqsent ∨ s = .acksent ∧ k.state = .acksent ∧ f.state = .acksent ∧
      ∀ data, knows f.ci data → knows k.ci data) :
    Does c knows f ((sconfreq c k false).setState s) := by
  obtain ⟨hid', hreqid', hmru', hlog', hci'⟩ := sconfreq_new (c := c) k
  obtain ⟨hsent, hasked, hids⟩ := told_quiet hes
  have hall : ((sconfreq c k false).setState s).log = f.log ++ es ++ [.newId] ++
      [.send (requestPacket c ((sconfreq c k false).setState s))] := hlog ▸ hlog'
  apply (Effect.ask (f := f) (g := (sconfreq c k false).setState s) (hid ▸ hid')
    (hreqid'.trans hid'.symm) ?_ ⟨?_, ?_, hmru'.trans hmru⟩ ?_ ?_ ?_).does
  · rw [hall, ids_append, ids_append, ids_append, hids]
    rfl
  · rw [hall, sent_append, sent_append, sent_append, hsent]
    simp [sent]
  · rw [hall, asked_append, asked_append, asked_append, hasked]
    simp [asked]
  · rcases hs with rfl | ⟨rfl, -⟩ <;> rfl
  · rcases hs with rfl | ⟨rfl, -⟩ <;> rfl
  · intro hack
    rcases hs with rfl | ⟨rfl, hs', hs, hknows⟩
    · cases hack
    · refine ⟨by rw [hs]; rfl, fun data hdata => ?_⟩
      have hsame : ((sconfreq c k false).setState .acksent).ci = k.ci :=
        hci' (by simp [negotiating, hs'])
      rw [hsame]
      exact hknows data hdata

theorem Does.ask (f : Fsm σ) : Does c knows f ((sconfreq c f false).setState .reqsent) :=
  .askAfter (List.append_nil _).symm (by simp) rfl rfl _ (.inl rfl)

/-- An opened automaton goes down and asks anew. -/
theorem does_restart (f : Fsm σ) :
    Does c knows f ((sconfreq c (f.callback c.down [.down]) false).setState .reqsent) := by
  have hdown : (f.callback c.down [.down]).log = f.log ++ [.down] := rfl
  exact .askAfter hdown (by simp [Action.told]) rfl rfl _ (.inl rfl)

theorem does_lowerup (f : Fsm σ) : Does c knows f (lowerup c f) := by
  unfold lowerup
  split
  · exact .dead (List.append_nil _).symm (by simp) rfl rfl rfl rfl
  · split
    · exact .dead (List.append_nil _).symm (by simp) rfl rfl rfl rfl
    · exact .ask f
  · exact .refl f

theorem does_lowerdown (f : Fsm σ) : Does c knows f (lowerdown c f) := by
  unfold lowerdown
  split
  case h_2 => exact .dead rfl (by simp [Action.told]) rfl rfl rfl rfl
  case h_8 => exact .dead rfl (by simp [Action.told]) rfl rfl rfl rfl
  case h_9 => exact .refl f
  all_goals exact .dead (List.append_nil _).symm (by simp) rfl rfl rfl rfl

theorem does_reopen (f : Fsm σ) : Does c knows f (reopen c f) := by
  unfold reopen
  split
  · exact (does_lowerdown f).trans (does_lowerup _)
  · exact .refl f

theorem does_fsmOpen (f : Fsm σ) : Does c knows f (fsmOpen c f) := by
  unfold fsmOpen
  split
  case h_1 => exact .dead rfl (by simp [Action.told]) rfl rfl rfl rfl
  case h_2 =>
    split
    · exact .dead (List.append_nil _).symm (by simp) rfl rfl rfl rfl
    · exact .ask f
  case h_3 =>
    have hstopping : Does c knows f (f.setState .stopping) :=
      .dead (List.append_nil _).symm (by simp) rfl rfl rfl rfl
    exact hstopping.trans (does_reopen _)
  case h_4 => exact does_reopen f
  case h_5 => exact does_reopen f
  case h_6 => exact .refl f

theorem does_sendTermreq (f : Fsm σ) (hdead : live f.state = false) :
    Does c knows f (sendTermreq f) :=
  ((Effect.number f).does.trans (Effect.renumber f.nextId hdead).does).trans
    (.send _ _ _ (by decide))

theorem does_terminateLayer (f : Fsm σ) (nextstate : State)
    (hnext : nextstate = .closing ∨ nextstate = .stopping) :
    Does c knows f (terminateLayer c f nextstate) := by
  have hdead : live nextstate = false := by rcases hnext with rfl | rfl <;> rfl
  let f₁ := if f.state ≠ .opened then f.untimeout else f.callback c.down [.down]
  let f₂ := { f₁ with retransmits := f₁.maxtermtransmits, state := nextstate }
  have hdown : Does c knows f f₂ := by
    by_cases hopen : f.state = .opened
    · have hlog : f₂.log = f.log ++ [.down] := by simp [f₂, f₁, hopen, Fsm.callback]
      exact .dead hlog (by simp [Action.told]) (by simp [f₂, f₁, hopen, Fsm.callback])
        (by simp [f₂, f₁, hopen, Fsm.callback]) (by simp [f₂, f₁, hopen, Fsm.callback]) hdead
    · have hlog : f₂.log = f.log ++ [] := by simp [f₂, f₁, hopen, Fsm.untimeout]
      exact .dead hlog (by simp) (by simp [f₂, f₁, hopen, Fsm.untimeout])
        (by simp [f₂, f₁, hopen, Fsm.untimeout]) (by simp [f₂, f₁, hopen, Fsm.untimeout]) hdead
  apply (hdown.trans (does_sendTermreq f₂ hdead)).trans
  let f₃ := sendTermreq { f₁ with retransmits := f₁.maxtermtransmits }
  have hbody : terminateLayer c f nextstate =
      if f₃.retransmits = 0 then
        (f₃.setState (if nextstate = .closing then .closed else .stopped)).callback c.finished
          [.finished]
      else { f₃.timeout with retransmits := f₃.timeout.retransmits - 1 }.setState nextstate := rfl
  rw [hbody]
  split
  · refine .dead rfl (by simp [Action.told]) rfl rfl rfl ?_
    rcases hnext with rfl | rfl <;> rfl
  · exact .dead (List.append_nil _).symm (by simp) rfl rfl rfl hdead

theorem does_fsmClose (f : Fsm σ) (reason : List UInt8) :
    Does c knows f (fsmClose c f reason) := by
  have hreason : Does c knows f { f with termReason := reason } :=
    .note (List.append_nil _).symm (by simp) rfl rfl rfl (.less rfl id id id)
  apply hreason.trans
  simp only [fsmClose]
  split
  case h_1 => exact .dead (List.append_nil _).symm (by simp) rfl rfl rfl rfl
  case h_2 => exact .dead (List.append_nil _).symm (by simp) rfl rfl rfl rfl
  case h_3 => exact .dead (List.append_nil _).symm (by simp) rfl rfl rfl rfl
  case h_8 => exact .refl _
  all_goals exact does_terminateLayer _ _ (.inl rfl)

theorem does_untimeout (f : Fsm σ) : Does c knows f f.untimeout :=
  .note (List.append_nil _).symm (by simp) rfl rfl rfl (.less rfl id id id)

/-- The request is sent again in a state in which one was sent before. -/
theorem does_again (hh : Honest c knows suits) (f : Fsm σ) (hneg : negotiating f.state = true) :
    Does c knows f
      (if (sconfreq c (f.callback c.retransmit []) true).state = .ackrcvd then
        (sconfreq c (f.callback c.retransmit []) true).setState .reqsent
      else sconfreq c (f.callback c.retransmit []) true) := by
  have hci : ∀ g : Fsm σ, g.ci = (f.callback c.retransmit []).ci →
      c.request g.ci = c.request f.ci ∧ ∀ data, knows f.ci data → knows g.ci data := by
    intro g hg
    rw [hg]
    cases hret : c.retransmit with
    | none => exact ⟨rfl, fun _ => id⟩
    | some retransmit => exact hh.retransmit retransmit hret f.ci
  have hlive : live f.state = true := by simp [live, hneg]
  have hagain := sconfreq_again c (f := f.callback c.retransmit []) hneg
  have hlog : ∀ s, ((sconfreq c (f.callback c.retransmit []) true).setState s).log = f.log ++
      [.send (requestPacket c ((sconfreq c (f.callback c.retransmit []) true).setState s))] := by
    intro s
    rw [hagain]
    simp [Fsm.setState, Fsm.timeout, Fsm.sdata, Fsm.callback, requestPacket]
  have hset : ∀ s, live s = true → (gotAck s = true → gotAck f.state = true) →
      (sentAck s = true → sentAck f.state = true) →
      Does c knows f ((sconfreq c (f.callback c.retransmit []) true).setState s) := by
    intro s hs hgot hsent
    obtain ⟨hrequest, hknows⟩ :=
      hci ((sconfreq c (f.callback c.retransmit []) true).setState s) (by rw [hagain]; rfl)
    apply (Effect.again (g := (sconfreq c (f.callback c.retransmit []) true).setState s)
      ⟨?_, ?_, ?_⟩ ⟨?_, ?_, ?_⟩ hs ⟨fun _ => ⟨hlive, hrequest⟩, hgot,
        fun h => ⟨hsent h, hknows⟩⟩).does
    · rw [hagain]; rfl
    · rw [hagain]; rfl
    · simp [hlog s, ids]
    · simp [hlog s, sent]
    · simp [hlog s, asked]
    · rw [hagain]; rfl
  have hsame : ∀ g : Fsm σ, g.setState g.state = g := fun _ => rfl
  have hstate : (sconfreq c (f.callback c.retransmit []) true).state = f.state :=
    state_sconfreq c _ true
  split
  · exact hset .reqsent rfl (by simp [gotAck]) (by simp [sentAck])
  · rw [← hsame (sconfreq c (f.callback c.retransmit []) true), hstate]
    exact hset f.state hlive id id

theorem does_fsmTimeout (hh : Honest c knows suits) (f : Fsm σ) :
    Does c knows f (fsmTimeout c f.untimeout) := by
  have hterminate : ∀ s, f.state = s → live s = false → Does c knows f
      (if f.untimeout.retransmits ≤ 0 then
        (f.untimeout.setState
          (if f.untimeout.state = .closing then .closed else .stopped)).callback c.finished
            [.finished]
      else
        { (sendTermreq f.untimeout).timeout with
          retransmits := (sendTermreq f.untimeout).timeout.retransmits - 1 }) := by
    intro s hs hdead
    split
    · refine .dead rfl (by simp [Action.told]) rfl rfl rfl ?_
      simp only [state_callback, state_setState]
      split <;> rfl
    · have hdead' : live f.untimeout.state = false := by rw [state_untimeout, hs, hdead]
      apply ((does_untimeout f).trans (does_sendTermreq _ hdead')).trans
      exact .dead (List.append_nil _).symm (by simp) rfl rfl rfl hdead'
  have hask : negotiating f.state = true → Does c knows f
      (if f.untimeout.retransmits ≤ 0 then
        (if (f.untimeout.setState .stopped).passive then f.untimeout.setState .stopped
          else (f.untimeout.setState .stopped).callback c.finished [.finished])
      else
        (if (sconfreq c (f.untimeout.callback c.retransmit []) true).state = .ackrcvd then
          (sconfreq c (f.untimeout.callback c.retransmit []) true).setState .reqsent
        else sconfreq c (f.untimeout.callback c.retransmit []) true)) := by
    intro hneg
    split
    · split
      · exact .dead (List.append_nil _).symm (by simp) rfl rfl rfl rfl
      · exact .dead rfl (by simp [Action.told]) rfl rfl rfl rfl
    · exact (does_untimeout f).trans (does_again hh f.untimeout hneg)
  unfold fsmTimeout
  split
  case h_1 hs => exact hterminate _ hs rfl
  case h_2 hs => exact hterminate _ hs rfl
  case h_3 hs => exact hask (by simp [negotiating, show f.state = .reqsent from hs])
  case h_4 hs => exact hask (by simp [negotiating, show f.state = .ackrcvd from hs])
  case h_5 hs => exact hask (by simp [negotiating, show f.state = .acksent from hs])
  case h_6 => exact does_untimeout f

theorem negotiating_live {s : State} (h : negotiating s = true) : live s = true := by
  simp [live, h]

theorem reply_replied {q : Packet} (code : Verdict) (out : List UInt8) (ci : σ)
    (hneg : negotiating f.state = true) (hrequest : c.request ci = c.request f.ci)
    (hack : code = .ack → out = q.data ∧ knows ci q.data ∧ suits (c.request f.ci) q.data)
    (hup : ∀ up, c.up = some up →
      c.request (up ci) = c.request ci ∧ ∀ data, knows ci data → knows (up ci) data) :
    Reply c knows suits q f code.code out
      (replied c ({ f with ci, log := f.log ++ [Action.asked f.reqid q.id q.data] }.sdata
        code.code q.id out) code) := by
  have hlive := negotiating_live hneg
  have hother : code.code ≠ confreq := by cases code <;> decide
  have hdata : code.code = confack → out = q.data := by
    cases code with
    | ack => exact fun _ => (hack rfl).1
    | nak => exact fun h => by cases h
    | rej => exact fun h => by cases h
  cases code with
  | ack =>
    have hcode : Verdict.ack.code = confack := rfl
    obtain ⟨-, hknows, hsuits⟩ := hack rfl
    rcases negotiating_cases hneg with hs | hs | hs
    · constructor <;> simp_all [replied, Fsm.sdata, Fsm.setState, sent, asked, gotAck]
      constructor <;> simp [ids]
    · have hci : c.request (c.up.elim ci fun g => g ci) = c.request ci ∧
          knows (c.up.elim ci fun g => g ci) q.data := by
        cases hcall : c.up with
        | none => exact ⟨rfl, hknows⟩
        | some up => exact ⟨(hup up hcall).1, (hup up hcall).2 _ hknows⟩
      constructor <;>
        simp_all [replied, Fsm.sdata, Fsm.setState, Fsm.callback, Fsm.untimeout, sent, asked,
          gotAck]
      constructor <;> simp [ids]
    · constructor <;> simp_all [replied, Fsm.sdata, Fsm.setState, sent, asked, gotAck]
      constructor <;> simp [ids]
  | nak =>
    rcases negotiating_cases hneg with hs | hs | hs <;> constructor <;>
      simp_all [replied, Fsm.sdata, Fsm.setState, sent, asked, gotAck, sentAck]
    all_goals constructor <;> simp [ids]
  | rej =>
    rcases negotiating_cases hneg with hs | hs | hs <;> constructor <;>
      simp_all [replied, Fsm.sdata, Fsm.setState, sent, asked, gotAck, sentAck]
    all_goals constructor <;> simp [ids]

theorem reply_replyConfreq (hh : Honest c knows suits) (q : Packet)
    (hneg : negotiating f.state = true) :
    ∃ code data, Reply c knows suits q f code data (replyConfreq c f q.id q.data) := by
  obtain ⟨hrequest, hack⟩ := hh.check f q.data
  exact ⟨_, _, reply_replied (c.check f q.data).1 (c.check f q.data).2.1 (c.check f q.data).2.2
    hneg hrequest hack fun up hcall => hh.up up hcall _⟩

theorem reaction_rconfreq (hh : Honest c knows suits) (q : Packet) (hcode : q.code = confreq)
    (f : Fsm σ) (hup : f.state ≠ .initial ∧ f.state ≠ .starting) :
    Reaction c knows suits q f (rconfreq c f q.id q.data) := by
  have hreply : ∀ m : Fsm σ, negotiating m.state = true → Does c knows f m →
      Reaction c knows suits q f (replyConfreq c m q.id q.data) := by
    intro m hneg hdoes
    obtain ⟨code, data, hreply⟩ := reply_replyConfreq hh q hneg
    exact .answers hcode hdoes hreply
  unfold rconfreq
  split
  case h_1 => exact .does (.send f _ _ (by decide))
  case h_2 => exact .does (.refl f)
  case h_3 => exact .does (.refl f)
  case h_4 => exact hreply _ rfl (does_restart f)
  case h_5 => exact hreply _ rfl (.ask f)
  case h_6 =>
    have hneg : negotiating f.state = true := by cases hs : f.state <;> simp_all [negotiating]
    exact hreply f hneg (.refl f)

/-- The end of `fsm_rconfack`, or what a packet does that is no answer to the
request in use. -/
theorem reaction_acknowledged (hh : Honest c knows suits) (q : Packet) (hcode : q.code = confack)
    (f : Fsm σ) (hid : q.id = f.reqid) : Reaction c knows suits q f (acknowledged c f q.id) := by
  unfold acknowledged
  split
  case h_1 => exact .does (.send f _ _ (by decide))
  case h_2 => exact .does (.send f _ _ (by decide))
  case h_3 hs =>
    apply Reaction.hears hcode
    constructor <;> simp_all [live, negotiating, gotAck, Fsm.setState, Stands, sentAck]
    · exact ⟨rfl, rfl, rfl⟩
    · exact ⟨(List.append_nil _).symm, rfl, rfl⟩
  case h_4 => exact .does ((does_untimeout f).trans (.ask _))
  case h_5 hs =>
    have hci : c.request (c.up.elim f.ci fun g => g f.ci) = c.request f.ci ∧
        ∀ data, knows f.ci data → knows (c.up.elim f.ci fun g => g f.ci) data := by
      cases hcall : c.up with
      | none => exact ⟨rfl, fun _ => id⟩
      | some up => exact hh.up up hcall f.ci
    apply Reaction.hears hcode
    constructor <;>
      simp_all [live, negotiating, gotAck, Fsm.setState, Fsm.callback, Fsm.untimeout, Stands,
        sentAck]
    · constructor <;> simp [ids]
    · constructor <;> simp [sent, asked]
  case h_6 => exact .does (does_restart f)
  case h_7 => exact .does (.refl f)

/-- Counters and marks may change before. -/
structure SameFsm (f g : Fsm σ) : Prop where
  log : g.log = f.log
  id : g.id = f.id
  reqid : g.reqid = f.reqid
  mru : g.peerMru = f.peerMru
  state : g.state = f.state
  ci : g.ci = f.ci

theorem SameFsm.does (h : SameFsm f g) : Does c knows f g :=
  .note (h.log.trans (List.append_nil _).symm) (by simp) h.id h.reqid h.mru
    (.less h.ci (by rw [h.state]; exact fun h => h) (by rw [h.state]; exact fun h => h)
      (by rw [h.state]; exact fun h => h))

theorem Reaction.after {q : Packet} (h : SameFsm f g) (hr : Reaction c knows suits q g k) :
    Reaction c knows suits q f k := by
  cases hr with
  | does h' => exact .does (h.does.trans h')
  | answers hcode h' hreply => exact .answers hcode (h.does.trans h') hreply
  | hears hcode h' =>
    apply Reaction.hears hcode
    obtain ⟨hid, ⟨hsent, hasked, hmru⟩, hcurrent, hbefore, hlive, hrequest, hgot, hstands⟩ := h'
    refine ⟨⟨hid.id.trans h.id, hid.reqid.trans h.reqid, by rw [hid.ids, h.log]⟩,
      ⟨by rw [hsent, h.log], by rw [hasked, h.log], hmru.trans h.mru⟩, hcurrent.trans h.reqid,
      by rw [← h.state, hbefore], hlive, by rw [hrequest, h.ci], hgot, ?_⟩
    intro hack
    rw [← h.state, ← h.ci]
    exact hstands hack

theorem reaction_rconfack (hh : Honest c knows suits) (q : Packet) (hcode : q.code = confack)
    (f : Fsm σ) : Reaction c knows suits q f (rconfack c f q.id q.data) := by
  unfold rconfack
  split
  · exact .does (.refl f)
  · rename_i hmatch
    simp only [Bool.or_eq_true, decide_eq_true_eq, not_or, ne_eq, Decidable.not_not] at hmatch
    split
    · exact .does (.refl f)
    · have hsame : SameFsm f { f with seenAck := true, rnakloops := 0 } :=
        ⟨rfl, rfl, rfl, rfl, rfl, rfl⟩
      have hacked := reaction_acknowledged hh q hcode
        { f with seenAck := true, rnakloops := 0 } hmatch.1
      exact hacked.after hsame

/-- The options may have changed where a refusal is taken up. -/
theorem does_refused {f' : Fsm σ} (hlog : f'.log = f.log) (hid : f'.id = f.id)
    (hreqid : f'.reqid = f.reqid) (hmru : f'.peerMru = f.peerMru) (hstate : f'.state = f.state)
    (hknows : ∀ data, knows f.ci data → knows f'.ci data) (ret : Int) (id : UInt8) :
    Does c knows f (refused c f' ret id) := by
  have hnil : f'.log = f.log ++ [] := hlog.trans (List.append_nil _).symm
  have hdead : live f.state = false → Does c knows f f' := fun h =>
    .dead hnil (by simp) hid hreqid hmru (by rw [hstate, h])
  have hset : ∀ (g : Fsm σ) (s : State), g.state = s → g.setState s = g := by
    intro g s hg
    subst hg
    rfl
  have hagain : ∀ s, f.state = s → s = .reqsent ∨ s = .acksent → Does c knows f
      (if ret < 0 then f'.untimeout.setState .stopped else sconfreq c f'.untimeout false) := by
    intro s hs hor
    split
    · exact .dead hnil (by simp) hid hreqid hmru rfl
    · have hsame : (sconfreq c f'.untimeout false).setState s = sconfreq c f'.untimeout false :=
        hset _ _ (by rw [state_sconfreq, state_untimeout, hstate, hs])
      rw [← hsame]
      apply Does.askAfter (k := f'.untimeout) hnil (by simp) hid hmru
      rcases hor with rfl | rfl
      · exact .inl rfl
      · exact .inr ⟨rfl, hstate.trans hs, hs, hknows⟩
  unfold refused
  split
  case h_1 hs => exact (hdead (by rw [← hstate, hs]; rfl)).trans (.send _ _ _ (by decide))
  case h_2 hs => exact (hdead (by rw [← hstate, hs]; rfl)).trans (.send _ _ _ (by decide))
  case h_3 hs => exact hagain _ (hstate.symm.trans hs) (.inl rfl)
  case h_4 hs => exact hagain _ (hstate.symm.trans hs) (.inr rfl)
  case h_5 => exact .askAfter (k := f'.untimeout) hnil (by simp) hid hmru _ (.inl rfl)
  case h_6 =>
    have hdown : (f'.callback c.down [.down]).log = f.log ++ [.down] := by
      simp [Fsm.callback, hlog]
    exact .askAfter hdown (by simp [Action.told]) hid hmru _ (.inl rfl)
  case h_7 =>
    apply hdead
    rw [← hstate]
    cases hs : f'.state <;> simp_all [live, negotiating]

theorem does_rconfnakrej (hh : Honest c knows suits) (f : Fsm σ) (code id : UInt8)
    (data : List UInt8) : Does c knows f (rconfnakrej c f code id data) := by
  have hkeep : ∀ g : Fsm σ, g.log = f.log → g.id = f.id → g.reqid = f.reqid →
      g.peerMru = f.peerMru → g.state = f.state → c.request g.ci = c.request f.ci →
      (∀ his, knows f.ci his → knows g.ci his) → Does c knows f g := by
    intro g hlog hid hreqid hmru hstate hrequest hknows
    apply Does.note (hlog.trans (List.append_nil _).symm) (by simp) hid hreqid hmru
    refine ⟨fun h => ⟨hstate ▸ h, hrequest⟩, fun h => hstate ▸ h, fun h => ⟨hstate ▸ h, hknows⟩⟩
  have hrefused : ∀ (rnakloops : Int) (ci : σ), (∀ his, knows f.ci his → knows ci his) → ∀ ret,
      Does c knows f (refused c { f with rnakloops, ci, seenAck := true } ret id) := by
    intro rnakloops ci hknows ret
    apply does_refused <;> first | rfl | exact hknows
  unfold rconfnakrej
  split
  · exact .refl f
  · split
    · split
      · exact hkeep _ rfl rfl rfl rfl rfl rfl fun _ h => h
      · rename_i nakci hcall
        obtain ⟨hrequest, hknows⟩ :=
          hh.nakci nakci hcall f.state f.ci data (f.rnakloops + 1 ≥ f.maxnakloops)
        simp only
        split
        · rename_i hret
          exact hkeep _ rfl rfl rfl rfl rfl (hrequest hret) hknows
        · exact hrefused _ _ hknows _
    · split
      · exact hkeep _ rfl rfl rfl rfl rfl rfl fun _ h => h
      · rename_i rejci hcall
        obtain ⟨hrequest, hknows⟩ := hh.rejci rejci hcall f.state f.ci data
        simp only
        split
        · rename_i hret
          exact hkeep _ rfl rfl rfl rfl rfl (hrequest hret) hknows
        · exact hrefused _ _ hknows _

theorem does_rtermreq (f : Fsm σ) (id : UInt8) : Does c knows f (rtermreq c f id) := by
  simp only [rtermreq]
  refine Does.trans ?_ (.send _ _ _ (by decide))
  split
  case h_1 hs =>
    exact .note (List.append_nil _).symm (by simp) rfl rfl rfl
      (.less rfl (by simp [live, hs, negotiating]) (by simp [gotAck]) (by simp [sentAck]))
  case h_2 hs =>
    exact .note (List.append_nil _).symm (by simp) rfl rfl rfl
      (.less rfl (by simp [live, hs, negotiating]) (by simp [gotAck]) (by simp [sentAck]))
  case h_3 => exact .dead rfl (by simp [Action.told]) rfl rfl rfl rfl
  case h_4 => exact .refl f

theorem does_rtermack (f : Fsm σ) : Does c knows f (rtermack c f) := by
  unfold rtermack
  split
  case h_1 => exact .dead rfl (by simp [Action.told]) rfl rfl rfl rfl
  case h_2 => exact .dead rfl (by simp [Action.told]) rfl rfl rfl rfl
  case h_3 hs =>
    exact .note (List.append_nil _).symm (by simp) rfl rfl rfl
      (.less rfl (by simp [live, hs, negotiating]) (by simp [gotAck]) (by simp [sentAck]))
  case h_4 => exact does_restart f
  case h_5 => exact .refl f

theorem does_rcoderej (f : Fsm σ) (data : List UInt8) : Does c knows f (rcoderej f data) := by
  unfold rcoderej
  split
  · exact .refl f
  · split
    · rename_i hs
      exact .note (List.append_nil _).symm (by simp) rfl rfl rfl
        (.less rfl (by simp [live, hs, negotiating]) (by simp [gotAck]) (by simp [sentAck]))
    · exact .refl f

theorem does_protreject (f : Fsm σ) : Does c knows f (protreject c f) := by
  unfold protreject
  split
  case h_2 hs => exact .dead rfl (by simp [Action.told]) rfl rfl rfl (by simp [hs, live, negotiating])
  case h_7 hs => exact .dead rfl (by simp [Action.told]) rfl rfl rfl (by simp [hs, live, negotiating])
  case h_8 => exact does_terminateLayer f _ (.inr rfl)
  case h_9 => exact .refl f
  all_goals exact .dead rfl (by simp [Action.told]) rfl rfl rfl rfl

theorem does_replies (f : Fsm σ) (replies : List Packet)
    (hcodes : ∀ r ∈ replies, r.code ≠ confreq ∧ r.code ≠ confack) :
    Does c knows f (replies.foldl (fun f r => f.sdata r.code r.id r.data) f) := by
  induction replies generalizing f with
  | nil => exact .refl f
  | cons r rest ih =>
    have hfirst : Does c knows f (f.sdata r.code r.id r.data) :=
      .send f _ _ (hcodes r (by simp))
    exact hfirst.trans (ih _ fun r' hr' => hcodes r' (by simp [hr']))

theorem does_otherCode (hh : Honest c knows suits) (f : Fsm σ) (p : Packet) (packet : List UInt8) :
    Does c knows f (otherCode c f p packet) := by
  have hreject : ∀ g : Fsm σ, Does c knows g (g.nextId.sdata coderej g.nextId.id packet) :=
    fun g => (Effect.number g).does.trans (.send _ _ _ (by decide))
  unfold otherCode
  split
  · exact hreject f
  · rename_i extcode hcall
    obtain ⟨⟨hrequest, hknows⟩, hcodes⟩ := hh.extcode extcode hcall f.state f.ci p
    have hci : Does c knows f { f with ci := (extcode f.state f.ci p).2 } :=
      .note (List.append_nil _).symm (by simp) rfl rfl rfl
        ⟨fun h => ⟨h, hrequest⟩, fun h => h, fun h => ⟨h, hknows⟩⟩
    simp only
    split
    · exact hci.trans (hreject _)
    · rename_i replies hreplies
      exact hci.trans (does_replies _ replies (hcodes replies hreplies))

/-- What a packet does to an automaton. -/
theorem reaction_fsmInput (hh : Honest c knows suits) (f : Fsm σ) {bytes : List UInt8} {q : Packet}
    (hparse : parse bytes = some q) : Reaction c knows suits q f (fsmInput c f bytes) := by
  simp only [fsmInput, hparse]
  split
  · exact .does (.refl f)
  · rename_i hup
    simp only [Bool.or_eq_true, decide_eq_true_eq, not_or] at hup
    split
    · rename_i hcode
      exact reaction_rconfreq hh q hcode f hup
    · split
      · rename_i hcode
        exact reaction_rconfack hh q hcode f
      · apply Reaction.does
        split
        · exact does_rconfnakrej hh f _ _ _
        · split
          · exact does_rtermreq f _
          · split
            · exact does_rtermack f
            · split
              · exact does_rcoderej f _
              · exact does_otherCode hh f _ _

/-- Everything but a packet from the peer. -/
def Event.own : Event → Bool
  | .input _ => false
  | _ => true

theorem does_step (hh : Honest c knows suits) (f : Fsm σ) {e : Event} (hown : e.own = true) :
    Does c knows f (step c f e) := by
  cases e with
  | lowerup => exact does_lowerup f
  | lowerdown => exact does_lowerdown f
  | «open» => exact does_fsmOpen f
  | close reason => exact does_fsmClose f reason
  | timeout =>
    simp only [step]
    split
    · exact .refl f
    · exact does_fsmTimeout hh f
  | input bytes => cases hown
  | protreject => exact does_protreject f
  | flags passive silent =>
    have hsame : SameFsm f { f with passive, silent } := ⟨rfl, rfl, rfl, rfl, rfl, rfl⟩
    exact hsame.does

end GameAcc.Ppp
