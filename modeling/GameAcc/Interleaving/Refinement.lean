import GameAcc.Foundations.DoubleBuffer
import GameAcc.Interleaving.World

/-!
The detection data of one triple is a double buffer: the activeid names the
slot, `deal_report` drafts in the other one, and its last command publishes.
Each step of the world is one step of that abstract double buffer, for every
registered triple at once.
-/

namespace GameAcc.Interleaving

open GameAcc.Redis GameAcc.Mysql GameAcc.Command GameAcc.Writer GameAcc.Text

/-- The two slots of a triple, by the activeid that names them. -/
def slotText (slot : Bool) : String := if slot then "1" else "0"

def slotOf (text : String) : Option Bool :=
  if text = "0" then some false else if text = "1" then some true else none

theorem slotText_isBufferId (slot : Bool) : IsBufferId (slotText slot) := by
  cases slot
  · exact .inl rfl
  · exact .inr rfl

theorem slotOf_slotText (slot : Bool) : slotOf (slotText slot) = some slot := by
  cases slot <;> rfl

theorem slotOf_eq_some {text : String} {slot : Bool} (h : slotOf text = some slot) :
    text = slotText slot := by
  unfold slotOf at h
  split at h
  · obtain rfl := Option.some.inj h
    assumption
  · split at h
    · obtain rfl := Option.some.inj h
      assumption
    · cases h

theorem exists_slot {text : String} (h : IsBufferId text) :
    ∃ slot, text = slotText slot := by
  rcases h with rfl | rfl
  · exact ⟨false, rfl⟩
  · exact ⟨true, rfl⟩

/-- What a report's records put into a buffer. -/
def bufferOf (report : Report) : Option SortedSet := report.detects.map contents

section View

variable (vpnid gameid regionid : String)

abbrev Buffers : Type := DoubleBuffer.State Bool SortedSet

/-- The double buffer of a triple. -/
def view (w : World) : Buffers where
  active := (w.store.hash (activeidKey vpnid) (activeidField gameid regionid)).bind slotOf
  content := fun slot => w.store.zset (detectDataKey vpnid gameid regionid (slotText slot))
  drafting :=
    match w.writer with
    | some (report, _) =>
      triple report = some (vpnid, gameid, regionid) && w.progress.cleared &&
        decide (w.progress.written < 4)
    | none => false
  published := (w.published vpnid gameid regionid).bind bufferOf

def slotOfKey (key : String) : Option Bool :=
  if key = detectDataKey vpnid gameid regionid "0" then some false
  else if key = detectDataKey vpnid gameid regionid "1" then some true
  else none

/-- What an event does to the double buffer. -/
def action : Event → DoubleBuffer.Action Bool
  | .command _ (.del key) =>
    match slotOfKey vpnid gameid regionid key with
    | some slot => .clear slot
    | none => .idle
  | .command _ (.zadd key _ _) =>
    match slotOfKey vpnid gameid regionid key with
    | some slot => .put slot
    | none => .idle
  | .command _ (.hset key field value) =>
    if key = activeidKey vpnid ∧ field = activeidField gameid regionid then
      match slotOf value with
      | some slot => .publish slot
      | none => .idle
    else .idle
  | .leave => .leave
  | _ => .idle

variable {vpnid gameid regionid}

theorem slotOfKey_eq_some {key : String} {slot : Bool}
    (h : slotOfKey vpnid gameid regionid key = some slot) :
    key = detectDataKey vpnid gameid regionid (slotText slot) := by
  unfold slotOfKey at h
  split at h
  · obtain rfl := Option.some.inj h
    assumption
  · split at h
    · obtain rfl := Option.some.inj h
      assumption
    · cases h

/-- Reading commands leave a double buffer alone. -/
theorem action_reads {report : Report} {c : Cmd} (h : c.Reads) :
    action vpnid gameid regionid (.command report c) = .idle := by
  cases h <;> rfl

/-- A view depends on five things of a world. -/
theorem view_congr {w w' : World}
    (hactive : w'.store.hash (activeidKey vpnid) (activeidField gameid regionid) =
      w.store.hash (activeidKey vpnid) (activeidField gameid regionid))
    (hcontent : ∀ slot,
      w'.store.zset (detectDataKey vpnid gameid regionid (slotText slot)) =
        w.store.zset (detectDataKey vpnid gameid regionid (slotText slot)))
    (hdrafting : (view vpnid gameid regionid w').drafting =
      (view vpnid gameid regionid w).drafting)
    (hpublished : w'.published vpnid gameid regionid = w.published vpnid gameid regionid) :
    view vpnid gameid regionid w' = view vpnid gameid regionid w := by
  have hcontents : (view vpnid gameid regionid w').content =
      (view vpnid gameid regionid w).content := funext hcontent
  have hactives : (view vpnid gameid regionid w').active =
      (view vpnid gameid regionid w).active := congrArg (·.bind slotOf) hactive
  have hlast : (view vpnid gameid regionid w').published =
      (view vpnid gameid regionid w).published := congrArg (·.bind bufferOf) hpublished
  exact DoubleBuffer.State.ext hactives hcontents hdrafting hlast

end View

section Commands

variable {db : Database} {report : Report} {s : Store} (d : Draft report s)

theorem complete_bufferOf {d : Draft report s} {detects : List Detect}
    (h : d.Complete detects) : bufferOf report = some (contents detects) := by
  rw [bufferOf, h.detects_eq, Option.map_some]

variable {v g r : Int}

/-- The double buffer of a registered triple of ids. -/
abbrev viewOf (v g r : Int) (w : World) : Buffers :=
  view (Numeral.decimal v) (Numeral.decimal g) (Numeral.decimal r) w

abbrev actionOf (v g r : Int) : Event → DoubleBuffer.Action Bool :=
  action (Numeral.decimal v) (Numeral.decimal g) (Numeral.decimal r)

/-- The report is about this triple. -/
def IsAbout (report : Report) (v g r : Int) : Prop :=
  triple report = some (Numeral.decimal v, Numeral.decimal g, Numeral.decimal r)

instance (report : Report) (v g r : Int) : Decidable (IsAbout report v g r) := by
  unfold IsAbout; infer_instance

theorem draft_ids (h : IsAbout report v g r) :
    d.vpnid = Numeral.decimal v ∧ d.gameid = Numeral.decimal g ∧
      d.regionid = Numeral.decimal r := by
  have heq := (draft_triple d).symm.trans h
  simpa only [Option.some.injEq, Prod.mk.injEq] using heq

/-- The buffers of one triple are never the buffer of another one. -/
theorem draft_key_other (hs : Sound db s) (hreg : db.Registered v g r)
    (hother : ¬IsAbout report v g r) {activeid : String} (hid : IsBufferId activeid) :
    detectDataKey (Numeral.decimal v) (Numeral.decimal g) (Numeral.decimal r) activeid ≠
      d.key := by
  intro hkey
  obtain ⟨text, htext⟩ := hs.registered_activeid v g r hreg
  obtain ⟨hv, hg, hr, _⟩ := hs.triple_of_key d
    (Option.isSome_iff_exists.mpr ⟨text, htext⟩) hid hkey
  apply hother
  rw [IsAbout, draft_triple d, hv, hg, hr]

theorem draft_slotOfKey_other (hs : Sound db s) (hreg : db.Registered v g r)
    (hother : ¬IsAbout report v g r) :
    slotOfKey (Numeral.decimal v) (Numeral.decimal g) (Numeral.decimal r) d.key = none := by
  have h0 := (draft_key_other d hs hreg hother (.inl rfl)).symm
  have h1 := (draft_key_other d hs hreg hother (.inr rfl)).symm
  simp only [slotOfKey, if_neg h0, if_neg h1]

theorem slotOfKey_slotText (slot : Bool) :
    slotOfKey (Numeral.decimal v) (Numeral.decimal g) (Numeral.decimal r)
      (detectDataKey (Numeral.decimal v) (Numeral.decimal g) (Numeral.decimal r)
        (slotText slot)) = some slot := by
  cases slot with
  | false => simp [slotOfKey, slotText]
  | true =>
    have hne : detectDataKey (Numeral.decimal v) (Numeral.decimal g) (Numeral.decimal r) "1" ≠
        detectDataKey (Numeral.decimal v) (Numeral.decimal g) (Numeral.decimal r) "0" := by
      intro h
      have hids := (detectDataKey_eq (plain_decimal g) (plain_decimal r) (plain_decimal g)
        (plain_decimal r) (plain_decimal v) (plain_decimal v) (by decide) (by decide) h).2.2.2
      revert hids
      decide
    simp [slotOfKey, slotText, hne]

theorem slotText_injective {slot slot' : Bool}
    (h : detectDataKey (Numeral.decimal v) (Numeral.decimal g) (Numeral.decimal r)
        (slotText slot) =
      detectDataKey (Numeral.decimal v) (Numeral.decimal g) (Numeral.decimal r)
        (slotText slot')) : slot = slot' := by
  have hslots := congrArg
    (slotOfKey (Numeral.decimal v) (Numeral.decimal g) (Numeral.decimal r)) h
  rw [slotOfKey_slotText, slotOfKey_slotText] at hslots
  exact Option.some.inj hslots

theorem note_other {c : Cmd} {published : LastReports} (hother : ¬IsAbout report v g r) :
    note report c published (Numeral.decimal v) (Numeral.decimal g) (Numeral.decimal r) =
      published (Numeral.decimal v) (Numeral.decimal g) (Numeral.decimal r) := by
  have h : ¬(triple report = some (Numeral.decimal v, Numeral.decimal g, Numeral.decimal r) ∧
      Sets (activeidKey (Numeral.decimal v))
        (activeidField (Numeral.decimal g) (Numeral.decimal r)) c) := by
    rintro ⟨h, _⟩
    exact hother h
  simp only [note, if_neg h]

/-- A command that does not write the activeid of the triple publishes nothing. -/
theorem note_no_write {c : Cmd} {published : LastReports}
    (h : Sets (activeidKey (Numeral.decimal v))
      (activeidField (Numeral.decimal g) (Numeral.decimal r)) c = false) :
    note report c published (Numeral.decimal v) (Numeral.decimal g) (Numeral.decimal r) =
      published (Numeral.decimal v) (Numeral.decimal g) (Numeral.decimal r) := by
  simp only [note, h, Bool.false_eq_true, and_false, if_false]

theorem sets_reads {key field : String} {c : Cmd} (h : c.Reads) :
    Sets key field c = false := by
  cases h <;> rfl

theorem sets_average (vpnid field value key f : String) :
    Sets (activeidKey key) f (.hset (avaRegionKey vpnid) field value) = false := by
  have hne := avaRegionKey_ne_activeidKey vpnid key
  simp [Sets, hne]

/-- The slot a draft fills, and that it is not the active one. -/
theorem draft_exists_slot (hs : Sound db s) (habout : IsAbout report v g r) :
    ∃ slot, d.activeid = slotText slot ∧
      d.key = detectDataKey (Numeral.decimal v) (Numeral.decimal g) (Numeral.decimal r)
        (slotText slot) ∧
      (s.hash (activeidKey (Numeral.decimal v))
        (activeidField (Numeral.decimal g) (Numeral.decimal r))).bind slotOf ≠ some slot := by
  obtain ⟨hv, hg, hr⟩ := draft_ids d habout
  obtain ⟨slot, hslot⟩ := Interleaving.exists_slot d.isBufferId
  have hkey : d.key = detectDataKey (Numeral.decimal v) (Numeral.decimal g)
      (Numeral.decimal r) (slotText slot) := by
    rw [Draft.key, hv, hg, hr, hslot]
  refine ⟨slot, hslot, hkey, ?_⟩
  intro hactive
  obtain ⟨text, htext, hof⟩ := Option.bind_eq_some_iff.mp hactive
  obtain rfl := slotOf_eq_some hof
  exact hs.key_not_active d htext (slotText_isBufferId slot) hkey.symm

end Commands

section Simulation

variable {db : Database} {v g r : Int}

section Executed

variable {s s' : Store} {progress progress' : Progress}

theorem executed_reads {c : Cmd} {reply : c.Reply} (h : c.Reads)
    (hexec : watched c (s, progress) = .ok (reply, (s', progress'))) :
    s' = s ∧ progress' = progress := by
  cases h <;>
    · have heq := (Prod.mk.inj (Except.ok.inj hexec)).2
      exact ⟨(Prod.mk.inj heq).1.symm, (Prod.mk.inj heq).2.symm⟩

theorem executed_del {key : String} {reply : Unit}
    (hexec : watched (.del key) (s, progress) = .ok (reply, (s', progress'))) :
    s' = s.delete key ∧ progress' = { progress with cleared := true } := by
  have heq := (Prod.mk.inj (Except.ok.inj hexec)).2
  exact ⟨(Prod.mk.inj heq).1.symm, (Prod.mk.inj heq).2.symm⟩

theorem executed_hset {key field value : String} {reply : Unit}
    (hexec : watched (.hset key field value) (s, progress) = .ok (reply, (s', progress'))) :
    s' = s.setHash key field value ∧
      progress' = { progress with written := progress.written + 1 } := by
  have heq := (Prod.mk.inj (Except.ok.inj hexec)).2
  exact ⟨(Prod.mk.inj heq).1.symm, (Prod.mk.inj heq).2.symm⟩

theorem executed_zadd {key score member : String} {reply : Unit}
    (hexec : watched (.zadd key score member) (s, progress) = .ok (reply, (s', progress'))) :
    ∃ z, s' = s.setZset key z ∧ progress' = progress := by
  cases hscore : readScore score with
  | none =>
    have hserve := serve_zadd_none Exn.responseError s key member hscore
    simp only [ghosted, hserve] at hexec
    cases hexec
  | some x =>
    have hserve := serve_zadd_some Exn.responseError s key member hscore
    simp only [ghosted, hserve, advance] at hexec
    have heq := (Prod.mk.inj (Except.ok.inj hexec)).2
    exact ⟨_, (Prod.mk.inj heq).1.symm, (Prod.mk.inj heq).2.symm⟩

end Executed

/-- Changing one buffer of a triple. -/
theorem content_update {store store' : Store} {key : String} {slot : Bool} {z : SortedSet}
    (hkey : key = detectDataKey (Numeral.decimal v) (Numeral.decimal g) (Numeral.decimal r)
      (slotText slot))
    (hstore : ∀ k, store'.zset k = if k = key then z else store.zset k) :
    (fun slot' => store'.zset (detectDataKey (Numeral.decimal v) (Numeral.decimal g)
      (Numeral.decimal r) (slotText slot'))) =
    Function.update (fun slot' => store.zset (detectDataKey (Numeral.decimal v)
      (Numeral.decimal g) (Numeral.decimal r) (slotText slot'))) slot z := by
  funext slot'
  rw [hstore, hkey]
  by_cases hslot : slot' = slot
  · subst hslot
    simp
  · rw [Function.update_of_ne hslot, if_neg]
    intro heq
    exact hslot (slotText_injective heq)

/-- The world after a command. -/
abbrev after (w : World) (report : Report) (c : Cmd) (p : Dealing Exit) (s' : Store)
    (progress' : Progress) : World :=
  { w with
    store := s'
    progress := progress'
    writer := some (report, p)
    published := note report c w.published }

/-- A draft of another triple is no draft of this one. -/
theorem drafting_other {w : World} {report : Report} {p : Dealing Exit}
    (hother : ¬IsAbout report v g r) (hwriter : w.writer = some (report, p)) :
    (viewOf v g r w).drafting = false := by
  unfold IsAbout at hother
  simp [view, hwriter, hother]

theorem drafting_own {w : World} {report : Report} {p : Dealing Exit}
    (hown : IsAbout report v g r) (hwriter : w.writer = some (report, p)) :
    (viewOf v g r w).drafting = (w.progress.cleared && decide (w.progress.written < 4)) := by
  unfold IsAbout at hown
  simp [view, hwriter, hown]

theorem action_average {report : Report} (vpnid field value : String) :
    actionOf v g r (.command report (.hset (avaRegionKey vpnid) field value)) = .idle := by
  have hne : ¬(avaRegionKey vpnid = activeidKey (Numeral.decimal v) ∧
      field = activeidField (Numeral.decimal g) (Numeral.decimal r)) := by
    rintro ⟨h, _⟩
    exact avaRegionKey_ne_activeidKey _ _ h
  simp only [action, if_neg hne]

/-- A command of a call about another triple. -/
theorem command_other {w : World} {report : Report} {c : Cmd} {p p' : Dealing Exit}
    {s s' : Store} {progress' : Progress} {reply : c.Reply} (hs : Sound db s)
    (hreg : db.Registered v g r) (hother : ¬IsAbout report v g r)
    (hwriter : w.writer = some (report, p))
    (hpending : Pending report s c (w.store, w.progress))
    (hexec : watched c (w.store, w.progress) = .ok (reply, (s', progress'))) :
    actionOf v g r (.command report c) = .idle ∧
      viewOf v g r (after w report c p' s' progress') = viewOf v g r w := by
  have hdrafting : (viewOf v g r (after w report c p' s' progress')).drafting =
      (viewOf v g r w).drafting := by
    rw [drafting_other hother hwriter, drafting_other hother rfl]
  have hpublished : note report c w.published (Numeral.decimal v) (Numeral.decimal g)
      (Numeral.decimal r) =
        w.published (Numeral.decimal v) (Numeral.decimal g) (Numeral.decimal r) :=
    note_other hother
  have hbuffer : ∀ d : Draft report s,
      activeidKey (Numeral.decimal v) ≠ d.key ∧
        ∀ slot, detectDataKey (Numeral.decimal v) (Numeral.decimal g) (Numeral.decimal r)
          (slotText slot) ≠ d.key := by
    intro d
    refine ⟨activeidKey_ne_detectDataKey d.isBufferId _, ?_⟩
    intro slot
    exact draft_key_other d hs hreg hother (slotText_isBufferId slot)
  have hreads : c.Reads → actionOf v g r (.command report c) = .idle ∧
      viewOf v g r (after w report c p' s' progress') = viewOf v g r w := by
    intro h
    obtain ⟨rfl, _⟩ := executed_reads h hexec
    exact ⟨action_reads h, view_congr rfl (fun _ => rfl) hdrafting hpublished⟩
  have haverage : ∀ vpnid field value, c = .hset (avaRegionKey vpnid) field value →
      actionOf v g r (.command report c) = .idle ∧
        viewOf v g r (after w report c p' s' progress') = viewOf v g r w := by
    rintro vpnid field value rfl
    obtain ⟨rfl, _⟩ := executed_hset hexec
    refine ⟨action_average vpnid field value, view_congr ?_ (fun _ => rfl) hdrafting hpublished⟩
    exact Store.setHash_key_ne _ _ _ _ _ (avaRegionKey_ne_activeidKey _ _).symm
  generalize hat : (w.store, w.progress) = at_ at hpending
  cases hpending with
  | lookup h => exact hreads h
  | survey d h z => exact hreads h
  | clear d =>
    obtain ⟨hactive, hslot⟩ := hbuffer d
    obtain ⟨rfl, _⟩ := executed_del hexec
    refine ⟨?_, view_congr ?_ ?_ hdrafting hpublished⟩
    · simp only [action, draft_slotOfKey_other d hs hreg hother]
    · simp only [Store.delete, if_neg hactive]
    · intro slot
      simp only [Store.delete, if_neg (hslot slot)]
  | fill d score member z =>
    obtain ⟨hactive, hslot⟩ := hbuffer d
    obtain ⟨z', rfl, _⟩ := executed_zadd hexec
    refine ⟨?_, view_congr rfl ?_ hdrafting hpublished⟩
    · simp only [action, draft_slotOfKey_other d hs hreg hother]
    · intro slot
      simp only [Store.setZset, if_neg (hslot slot)]
  | rtt d _ => exact haverage _ _ _ rfl
  | rttCnt d _ => exact haverage _ _ _ rfl
  | rttRegion0 d _ => exact haverage _ _ _ rfl
  | activeid d _ =>
    obtain ⟨rfl, _⟩ := executed_hset hexec
    have hfield : ¬(activeidKey d.vpnid = activeidKey (Numeral.decimal v) ∧
        activeidField d.gameid d.regionid =
          activeidField (Numeral.decimal g) (Numeral.decimal r)) := by
      rintro ⟨hkey, hfield⟩
      obtain ⟨hg, hr⟩ := activeidField_eq (plain_decimal g) (plain_decimal r) hfield
      apply hother
      rw [IsAbout, draft_triple d, activeidKey_injective hkey, hg, hr]
    refine ⟨?_, view_congr ?_ (fun _ => rfl) hdrafting hpublished⟩
    · simp only [action, if_neg hfield]
    · have hfield' : ¬(activeidKey (Numeral.decimal v) = activeidKey d.vpnid ∧
          activeidField (Numeral.decimal g) (Numeral.decimal r) =
            activeidField d.gameid d.regionid) := by
        rintro ⟨hkey, hfields⟩
        exact hfield ⟨hkey.symm, hfields.symm⟩
      simp only [Store.setHash, if_neg hfield']

/-- A view in which one slot has changed and the draft goes on. -/
theorem view_drafted {w w' : World} {key : String} {slot : Bool} {z : SortedSet}
    (hkey : key = detectDataKey (Numeral.decimal v) (Numeral.decimal g) (Numeral.decimal r)
      (slotText slot))
    (hactive : w'.store.hash (activeidKey (Numeral.decimal v)) =
      w.store.hash (activeidKey (Numeral.decimal v)))
    (hstore : ∀ k, w'.store.zset k = if k = key then z else w.store.zset k)
    (hdrafting : (viewOf v g r w').drafting = true)
    (hpublished : w'.published (Numeral.decimal v) (Numeral.decimal g) (Numeral.decimal r) =
      w.published (Numeral.decimal v) (Numeral.decimal g) (Numeral.decimal r)) :
    viewOf v g r w' = (viewOf v g r w).clear slot z := by
  apply DoubleBuffer.State.ext
  · have hfield := congrFun hactive
      (activeidField (Numeral.decimal g) (Numeral.decimal r))
    exact congrArg (·.bind slotOf) hfield
  · exact content_update hkey hstore
  · exact hdrafting
  · exact congrArg (·.bind bufferOf) hpublished

section Own

variable {w : World} {report : Report} {p p' : Dealing Exit} {s s' : Store}
  {progress' : Progress}

theorem command_clear (hs : Sound db s) (hown : IsAbout report v g r) (d : Draft report s)
    (hstore : w.store = s) (hprogress : w.progress = .start)
    (hexec : watched (.del d.key) (w.store, w.progress) = .ok ((), (s', progress'))) :
    DoubleBuffer.Step (viewOf v g r w) (actionOf v g r (.command report (.del d.key)))
      (viewOf v g r (after w report (.del d.key) p' s' progress')) := by
  obtain ⟨slot, _, hkey, hinactive⟩ := draft_exists_slot d hs hown
  obtain ⟨hs', hp'⟩ := executed_del hexec
  have haction : actionOf v g r (.command report (.del d.key)) = .clear slot := by
    simp only [action, hkey, slotOfKey_slotText]
  have hne : activeidKey (Numeral.decimal v) ≠ d.key :=
    activeidKey_ne_detectDataKey d.isBufferId _
  have hactive : s'.hash (activeidKey (Numeral.decimal v)) =
      w.store.hash (activeidKey (Numeral.decimal v)) := by
    rw [hs']
    funext field
    exact if_neg hne
  have hzset : ∀ k, s'.zset k = if k = d.key then .empty else w.store.zset k := by
    intro k
    rw [hs', Store.delete_zset]
  have hdrafting : (viewOf v g r (after w report (.del d.key) p' s' progress')).drafting =
      true := by
    rw [drafting_own hown rfl, hp', hprogress]
    rfl
  have hview : viewOf v g r (after w report (.del d.key) p' s' progress') =
      (viewOf v g r w).clear slot .empty :=
    view_drafted hkey hactive hzset hdrafting (note_no_write rfl)
  rw [haction, hview]
  apply DoubleBuffer.Step.clear
  rw [← hstore] at hinactive
  exact hinactive

theorem command_fill (hs : Sound db s) (hown : IsAbout report v g r) (d : Draft report s)
    (hwriter : w.writer = some (report, p)) {score member : String} {z : SortedSet}
    (hstore : w.store = d.store z) (hprogress : w.progress = ⟨true, 0⟩)
    (hexec : watched (.zadd d.key score member) (w.store, w.progress) =
      .ok ((), (s', progress'))) :
    DoubleBuffer.Step (viewOf v g r w)
      (actionOf v g r (.command report (.zadd d.key score member)))
      (viewOf v g r (after w report (.zadd d.key score member) p' s' progress')) := by
  obtain ⟨slot, _, hkey, hinactive⟩ := draft_exists_slot d hs hown
  obtain ⟨z', hs', hp'⟩ := executed_zadd hexec
  have haction : actionOf v g r (.command report (.zadd d.key score member)) =
      .put slot := by
    simp only [action, hkey, slotOfKey_slotText]
  have hdrafting : (viewOf v g r w).drafting = true := by
    rw [drafting_own hown hwriter, hprogress]
    rfl
  have hdrafting' : (viewOf v g r
      (after w report (.zadd d.key score member) p' s' progress')).drafting = true := by
    rw [drafting_own hown rfl, hp', hprogress]
    rfl
  have hactive : s'.hash = w.store.hash := by
    rw [hs', Store.setZset_hash]
  have hzset : ∀ k, s'.zset k = if k = d.key then z' else w.store.zset k := by
    intro k
    rw [hs']
    rfl
  have hview : viewOf v g r (after w report (.zadd d.key score member) p' s' progress') =
      (viewOf v g r w).put slot z' := by
    have hclear : viewOf v g r (after w report (.zadd d.key score member) p' s' progress') =
        (viewOf v g r w).clear slot z' :=
      view_drafted hkey (congrFun hactive _) hzset hdrafting' (note_no_write rfl)
    rw [hclear]
    apply DoubleBuffer.State.ext
    · rfl
    · rfl
    · exact hdrafting.symm
    · rfl
  rw [haction, hview]
  apply DoubleBuffer.Step.put _ _ _ hdrafting
  have hkeep := d.store_hash z
    (activeidKey_ne_detectDataKey d.isBufferId (Numeral.decimal v))
  rw [← hstore] at hkeep
  rw [← hkeep] at hinactive
  exact hinactive

theorem command_publish (hs : Sound db s) (hown : IsAbout report v g r)
    (d : Draft report s) {detects : List Detect} (hcomplete : d.Complete detects)
    (hstore : w.store = d.averaged detects) (hprogress : w.progress = ⟨true, 3⟩)
    (hexec : watched (.hset (activeidKey d.vpnid) (activeidField d.gameid d.regionid)
      d.activeid) (w.store, w.progress) = .ok ((), (s', progress'))) :
    DoubleBuffer.Step (viewOf v g r w)
      (actionOf v g r (.command report (.hset (activeidKey d.vpnid)
        (activeidField d.gameid d.regionid) d.activeid)))
      (viewOf v g r (after w report (.hset (activeidKey d.vpnid)
        (activeidField d.gameid d.regionid) d.activeid) p' s' progress')) := by
  obtain ⟨slot, hslot, hkey, _⟩ := draft_exists_slot d hs hown
  obtain ⟨hs', hp'⟩ := executed_hset hexec
  obtain ⟨hv, hg, hr⟩ := draft_ids d hown
  have hof : slotOf d.activeid = some slot := by
    rw [hslot, slotOf_slotText]
  have haction : actionOf v g r (.command report (.hset (activeidKey d.vpnid)
      (activeidField d.gameid d.regionid) d.activeid)) = .publish slot := by
    simp only [action, hv, hg, hr, and_self, if_true, hof]
  have hnote : note report (.hset (activeidKey d.vpnid) (activeidField d.gameid d.regionid)
      d.activeid) w.published (Numeral.decimal v) (Numeral.decimal g) (Numeral.decimal r) =
        some report := by
    unfold IsAbout at hown
    simp [note, Sets, hown, hv, hg, hr]
  have hbuffer : w.store.zset (detectDataKey (Numeral.decimal v) (Numeral.decimal g)
      (Numeral.decimal r) (slotText slot)) = contents detects := by
    rw [hstore, ← hkey]
    exact d.store_zset (contents detects)
  rw [haction]
  have hview : viewOf v g r (after w report (.hset (activeidKey d.vpnid)
      (activeidField d.gameid d.regionid) d.activeid) p' s' progress') =
        (viewOf v g r w).publish slot := by
    apply DoubleBuffer.State.ext
    · have hself := w.store.setHash_self (activeidKey d.vpnid)
        (activeidField d.gameid d.regionid) d.activeid
      rw [← hs', hv, hg, hr] at hself
      have hactive : (viewOf v g r (after w report (.hset (activeidKey d.vpnid)
          (activeidField d.gameid d.regionid) d.activeid) p' s' progress')).active =
            (some d.activeid).bind slotOf := congrArg (·.bind slotOf) hself
      rw [hactive]
      exact hof
    · have hzset : s'.zset = w.store.zset := by
        rw [hs', Store.setHash_zset]
      exact congrArg (fun zset slot' => zset (detectDataKey (Numeral.decimal v)
        (Numeral.decimal g) (Numeral.decimal r) (slotText slot'))) hzset
    · rw [drafting_own hown rfl, hp', hprogress]
      rfl
    · have hpublished : (viewOf v g r (after w report (.hset (activeidKey d.vpnid)
          (activeidField d.gameid d.regionid) d.activeid) p' s' progress')).published =
            (some report).bind bufferOf := congrArg (·.bind bufferOf) hnote
      rw [hpublished]
      exact (complete_bufferOf hcomplete).trans (congrArg some hbuffer.symm)
  rw [hview]
  exact .publish _ _

theorem command_own {c : Cmd} {reply : c.Reply} (hs : Sound db s)
    (hown : IsAbout report v g r) (hwriter : w.writer = some (report, p))
    (hpending : Pending report s c (w.store, w.progress))
    (hexec : watched c (w.store, w.progress) = .ok (reply, (s', progress'))) :
    DoubleBuffer.Step (viewOf v g r w) (actionOf v g r (.command report c))
      (viewOf v g r (after w report c p' s' progress')) := by
  have hbefore := drafting_own hown hwriter
  have hafter : (viewOf v g r (after w report c p' s' progress')).drafting =
      (progress'.cleared && decide (progress'.written < 4)) :=
    drafting_own hown rfl
  have hidle : ∀ (_ : actionOf v g r (.command report c) = .idle)
      (_ : viewOf v g r (after w report c p' s' progress') = viewOf v g r w),
      DoubleBuffer.Step (viewOf v g r w) (actionOf v g r (.command report c))
        (viewOf v g r (after w report c p' s' progress')) := by
    intro haction hview
    rw [haction, hview]
    exact .idle _
  have hreads : c.Reads → DoubleBuffer.Step (viewOf v g r w)
      (actionOf v g r (.command report c))
      (viewOf v g r (after w report c p' s' progress')) := by
    intro h
    obtain ⟨rfl, rfl⟩ := executed_reads h hexec
    refine hidle (action_reads h) (view_congr rfl (fun _ => rfl) ?_ ?_)
    · rw [hbefore, hafter]
    · exact note_no_write (sets_reads h)
  have haverage : ∀ vpnid field value, c = .hset (avaRegionKey vpnid) field value →
      w.progress.written < 3 → DoubleBuffer.Step (viewOf v g r w)
        (actionOf v g r (.command report c))
        (viewOf v g r (after w report c p' s' progress')) := by
    rintro vpnid field value rfl hwritten
    obtain ⟨rfl, rfl⟩ := executed_hset hexec
    refine hidle (action_average vpnid field value) (view_congr ?_ (fun _ => rfl) ?_ ?_)
    · exact Store.setHash_key_ne _ _ _ _ _ (avaRegionKey_ne_activeidKey _ _).symm
    · rw [hbefore, hafter]
      have h1 : w.progress.written + 1 < 4 := by omega
      have h2 : w.progress.written < 4 := by omega
      simp only [h1, h2]
    · exact note_no_write (sets_average _ _ _ _ _)
  generalize hat : (w.store, w.progress) = at_ at hpending
  cases hpending with
  | lookup h => exact hreads h
  | survey d h z => exact hreads h
  | rtt d _ => exact haverage _ _ _ rfl (by simp [(Prod.mk.inj hat).2])
  | rttCnt d _ => exact haverage _ _ _ rfl (by simp [(Prod.mk.inj hat).2])
  | rttRegion0 d _ => exact haverage _ _ _ rfl (by simp [(Prod.mk.inj hat).2])
  | clear d =>
    obtain ⟨hstore, hprogress⟩ := Prod.mk.inj hat
    exact command_clear hs hown d hstore hprogress hexec
  | fill d score member z =>
    obtain ⟨hstore, hprogress⟩ := Prod.mk.inj hat
    exact command_fill hs hown d hwriter hstore hprogress hexec
  | activeid d hcomplete =>
    obtain ⟨hstore, hprogress⟩ := Prod.mk.inj hat
    exact command_publish hs hown d hcomplete hstore hprogress hexec

end Own

/-- Every step of the world is a step of the double buffer of every registered
triple. -/
theorem step_refines {w w' : World} {e : Event} (hvalid : World.Valid db w)
    (hreg : db.Registered v g r) (hstep : World.Step w e w') :
    DoubleBuffer.Step (viewOf v g r w) (actionOf v g r e) (viewOf v g r w') := by
  cases hstep with
  | start report hidle =>
    let started : World :=
      { w with writer := some (report, dealReport report), progress := .start }
    have hdrafting : (viewOf v g r started).drafting = (viewOf v g r w).drafting := by
      simp [view, started, hidle, Progress.start]
    have hview : viewOf v g r started = viewOf v g r w :=
      view_congr rfl (fun _ => rfl) hdrafting rfl
    show DoubleBuffer.Step _ _ (viewOf v g r started)
    rw [hview]
    exact .idle _
  | @command report c next reply s' progress' hwriter hexec =>
    obtain ⟨s, hs, hholds⟩ := hvalid.writer _ _ hwriter
    have hpending := (holds_issue.mp hholds).1
    by_cases hown : IsAbout report v g r
    · exact command_own hs hown hwriter hpending hexec
    · have hother : actionOf v g r (.command report c) = .idle ∧
          viewOf v g r (after w report c (next reply) s' progress') = viewOf v g r w :=
        command_other hs hreg hown hwriter hpending hexec
      rw [hother.1, hother.2]
      exact .idle _
  | @leave report p hwriter =>
    exact .leave _
  | @read c next reply s' hreader hexec =>
    have hreads := hvalid.reader
    rw [hreader] at hreads
    obtain rfl := World.read_store hreads.1 hexec
    exact .idle _

theorem run_refines {w w' : World} {events : List Event} (hvalid : World.Valid db w)
    (hreg : db.Registered v g r) (hrun : World.Run w events w') :
    DoubleBuffer.Run (viewOf v g r w) (events.map (actionOf v g r)) (viewOf v g r w') := by
  induction hrun with
  | nil w => exact .nil _
  | cons hstep _ ih =>
    exact .cons (step_refines hvalid hreg hstep) (ih (hvalid.step hstep))

/-- The double buffers of all triples are consistent in every world reached. -/
theorem run_consistent {w w' : World} {events : List Event} (hvalid : World.Valid db w)
    (hreg : db.Registered v g r) (hrun : World.Run w events w')
    (hconsistent : (viewOf v g r w).Consistent) : (viewOf v g r w').Consistent := by
  induction hrun with
  | nil w => exact hconsistent
  | cons hstep _ ih =>
    exact ih (hvalid.step hstep) ((step_refines hvalid hreg hstep).consistent hconsistent)

end Simulation

end GameAcc.Interleaving
