import GameAcc.Interleaving.Refinement

/-!
A sequence of calls is a run of the world in which nobody else moves. What holds
in every world the writer and the reader reach therefore holds after every
sequence of calls, and the two notions of the last published report agree.
-/

namespace GameAcc.Interleaving

open GameAcc.Redis GameAcc.Mysql GameAcc.Command GameAcc.Writer GameAcc.Lua
open GameAcc.Lua.GameListPortText

theorem World.Run.append {w w' w'' : World} {events events' : List Event}
    (h : World.Run w events w') (h' : World.Run w' events' w'') :
    World.Run w (events ++ events') w'' := by
  induction h with
  | nil w => exact h'
  | cons hstep _ ih => exact .cons hstep (ih h')

section OneCall

variable {report : Report} {s : Store}

/-- What is published in the middle of a call: its own report once all four hash
fields are written. -/
def publishedAt (report : Report) (progress : Progress) (last : LastReports) :
    LastReports :=
  if progress.written < 4 then last else last.record report

theorem publishedAt_lt {progress : Progress} (last : LastReports)
    (h : progress.written < 4) : publishedAt report progress last = last := by
  simp only [publishedAt, if_pos h]

theorem note_of_not_sets {c : Cmd} (last : LastReports)
    (h : ∀ vpnid gameid regionid,
      Sets (activeidKey vpnid) (activeidField gameid regionid) c = false) :
    note report c last = last := by
  funext vpnid gameid regionid
  simp [note, h]

theorem note_activeid (d : Draft report s) (last : LastReports) :
    note report (.hset (activeidKey d.vpnid) (activeidField d.gameid d.regionid)
      d.activeid) last = last.record report := by
  funext vpnid gameid regionid
  by_cases h : triple report = some (vpnid, gameid, regionid)
  · have hids := (draft_triple d).symm.trans h
    simp only [Option.some.injEq, Prod.mk.injEq] at hids
    obtain ⟨rfl, rfl, rfl⟩ := hids
    simp [note, LastReports.record, Sets, h]
  · simp [note, LastReports.record, h]

theorem advance_written_lt (c : Cmd) {progress : Progress} (h : progress.written < 3) :
    (advance c progress).written < 4 := by
  have hstep := advance_written c progress
  omega

/-- One command of a call. -/
theorem note_publishedAt {c : Cmd} {t : Store} {progress : Progress}
    (last : LastReports) (h : Pending report s c (t, progress)) :
    note report c (publishedAt report progress last) =
      publishedAt report (advance c progress) last := by
  have hquiet : ∀ (_ : progress.written < 3)
      (_ : ∀ vpnid gameid regionid,
        Sets (activeidKey vpnid) (activeidField gameid regionid) c = false),
      note report c (publishedAt report progress last) =
        publishedAt report (advance c progress) last := by
    intro hwritten hsets
    rw [publishedAt_lt last (Nat.lt_succ_of_lt hwritten),
      publishedAt_lt last (advance_written_lt c hwritten)]
    exact note_of_not_sets last hsets
  have hreads : c.Reads → progress.written < 3 →
      note report c (publishedAt report progress last) =
        publishedAt report (advance c progress) last := by
    intro hc hwritten
    exact hquiet hwritten (fun _ _ _ => sets_reads hc)
  cases h with
  | lookup hc => exact hreads hc (by decide)
  | survey d hc z => exact hreads hc (by decide)
  | clear d => exact hquiet (by decide) (fun _ _ _ => rfl)
  | fill d score member z => exact hquiet (by decide) (fun _ _ _ => rfl)
  | rtt d _ => exact hquiet (by decide) (fun _ _ _ => sets_average _ _ _ _ _)
  | rttCnt d _ => exact hquiet (by decide) (fun _ _ _ => sets_average _ _ _ _ _)
  | rttRegion0 d _ =>
    exact hquiet (by decide) (fun _ _ _ => sets_average _ _ _ _ _)
  | activeid d _ => exact note_activeid d last

theorem pending_written {c : Cmd} {t : Store} {progress : Progress}
    (h : Pending report s c (t, progress)) : progress.written < 4 := by
  cases h <;> decide

/-- The write of the activeid is the last of the four. -/
theorem advance_written_of_sets {c : Cmd} {t : Store} {progress : Progress}
    {vpnid gameid regionid : String} (h : Pending report s c (t, progress))
    (hsets : Sets (activeidKey vpnid) (activeidField gameid regionid) c = true) :
    (advance c progress).written = 4 := by
  cases h with
  | activeid d _ => rfl
  | lookup hc => cases (sets_reads hc).symm.trans hsets
  | survey d hc z => cases (sets_reads hc).symm.trans hsets
  | clear d => cases hsets
  | fill d score member z => cases hsets
  | rtt d _ => cases (sets_average _ _ _ _ _).symm.trans hsets
  | rttCnt d _ => cases (sets_average _ _ _ _ _).symm.trans hsets
  | rttRegion0 d _ => cases (sets_average _ _ _ _ _).symm.trans hsets

/-- The events of a call: none is the reader's, and no command comes behind the
write of an activeid. -/
structure OfCall (report : Report) (events : List Event) : Prop where
  commands : ∀ e ∈ events, ∃ c, e = .command report c
  last : ∀ before report' vpnid gameid regionid value rest,
    events = before ++ .command report'
      (.hset (activeidKey vpnid) (activeidField gameid regionid) value) :: rest → rest = []

theorem OfCall.cons {c : Cmd} {events : List Event} (h : OfCall report events)
    (hlast : ∀ vpnid gameid regionid,
      Sets (activeidKey vpnid) (activeidField gameid regionid) c = true → events = []) :
    OfCall report (.command report c :: events) := by
  constructor
  · intro e he
    rcases List.mem_cons.mp he with rfl | he
    · exact ⟨c, rfl⟩
    · exact h.commands e he
  · intro before report' vpnid gameid regionid value rest hevents
    cases before with
    | nil =>
      obtain ⟨hc, rfl⟩ := List.cons.inj hevents
      obtain ⟨_, rfl⟩ := Event.command.inj hc
      exact hlast vpnid gameid regionid (by simp [Sets])
    | cons e before =>
      exact h.last _ _ _ _ _ _ _ (List.cons.inj hevents).2

/-- The writer takes the steps of its call one by one. -/
theorem run_of_steps {p p' : Dealing Exit} {at_ at' : Watch}
    (hsteps : Steps watched p at_ p' at')
    (hholds : Holds watched (conditions report s) p at_) (reader : Handler Value)
    (last : LastReports) :
    ∃ events, World.Run
        ⟨at_.1, at_.2, some (report, p), reader, publishedAt report at_.2 last⟩ events
        ⟨at'.1, at'.2, some (report, p'), reader, publishedAt report at'.2 last⟩ ∧
      OfCall report events ∧ (at_.2.written = 4 → events = []) := by
  induction hsteps with
  | refl p at_ =>
    refine ⟨[], .nil _, ⟨by simp, ?_⟩, fun _ => rfl⟩
    intro before report' vpnid gameid regionid value rest hevents
    simp at hevents
  | @step c next at_ at₁ at₂ r p' hexec hrest ih =>
    obtain ⟨t, progress⟩ := at_
    obtain ⟨hpending, hnext⟩ := holds_issue.mp hholds
    simp only [hexec] at hnext
    obtain ⟨events, hrun, hof, hended⟩ := ih hnext
    obtain ⟨t', progress'⟩ := at₁
    have hadvance : progress' = advance c progress := by
      simp only [watched, ghosted] at hexec
      split at hexec
      · cases hexec
        rfl
      · cases hexec
    have hstep := World.Step.command
      ⟨t, progress, some (report, .issue c next), reader,
        publishedAt report progress last⟩ rfl hexec
    rw [note_publishedAt last hpending, ← hadvance] at hstep
    refine ⟨_, .cons hstep hrun, hof.cons ?_, ?_⟩
    · intro vpnid gameid regionid hsets
      apply hended
      rw [hadvance]
      exact advance_written_of_sets hpending hsets
    · intro hwritten
      exact absurd hwritten (pending_written hpending).ne

/-- A call, as the world sees it: it starts, takes its steps, and is left. -/
theorem run_of_call {e : CallEnd} {s' : Store} (hcall : Call report s e s')
    (progress : Progress) (reader : Handler Value) (last : LastReports) :
    ∃ events progress', OfCall report events ∧ World.Run ⟨s, progress, none, reader, last⟩
      (.start report :: (events ++ [.leave]))
      ⟨s', progress', none, reader,
        if e.publishes then last.record report else last⟩ := by
  have hholds := dealReport_holds report s
  have hworld : ∀ {p' : Dealing Exit} {progress' : Progress}
      (_ : Steps watched (dealReport report) (s, .start) p' (s', progress'))
      (_ : publishedAt report progress' last =
        if e.publishes then last.record report else last),
      ∃ events progress', OfCall report events ∧ World.Run ⟨s, progress, none, reader, last⟩
        (.start report :: (events ++ [.leave]))
        ⟨s', progress', none, reader,
          if e.publishes then last.record report else last⟩ := by
    intro p' progress' hsteps hlast
    obtain ⟨events, hrun, hof, _⟩ := run_of_steps hsteps hholds reader last
    rw [hlast] at hrun
    have hstart := World.Step.start ⟨s, progress, none, reader, last⟩ report rfl
    exact ⟨_, progress', hof,
      .cons hstart (hrun.append (.cons (.leave _ rfl) (.nil _)))⟩
  cases hcall with
  | @returned exit s' hrun =>
    obtain ⟨progress', hghost⟩ := run_ghosted advance (dealReport report) s .start
    rw [hrun] at hghost
    have hsteps := steps_of_run_ok _ _ hghost
    apply hworld hsteps
    have hended : Ended report s exit (s', progress') := hholds.steps hsteps
    cases hended with
    | skipped _ => rfl
    | published d _ => rfl
  | @raised e s' hrun =>
    obtain ⟨progress', hghost⟩ := run_ghosted advance (dealReport report) s .start
    rw [hrun] at hghost
    obtain ⟨p', hsteps⟩ := steps_of_run_error _ _ hghost
    apply hworld hsteps
    have hpost := hholds.run
    rw [hghost] at hpost
    obtain ⟨hstopped, _⟩ := hpost
    cases hstopped with
    | untouched => rfl
    | unfinished d z => rfl
  | @rejected c next s' progress' hsteps =>
    apply hworld hsteps
    have hpending := (holds_issue.mp (hholds.steps hsteps)).1
    exact publishedAt_lt last (pending_written hpending)

end OneCall

section Runs

variable {db : Database} {self : Self} {svpninfo : SvpnInfo} {w : World}
  {events : List Event}

theorem valid_of_run (hrun : World.Run (World.initial db self svpninfo) events w) :
    World.Valid db w :=
  (World.valid_initial self svpninfo).run hrun

/-- Nothing is active in the state the loader leaves. -/
theorem initial_consistent (v g r : Int) :
    (viewOf v g r (World.initial db self svpninfo)).Consistent := by
  intro slot hslot
  obtain ⟨text, htext, hof⟩ := Option.bind_eq_some_iff.mp hslot
  obtain ⟨rfl, _⟩ := (load_activeid db).mp htext
  simp [slotOf] at hof

theorem active_buffer (hrun : World.Run (World.initial db self svpninfo) events w)
    {v g r : Int} (hreg : db.Registered v g r) {slot : Bool}
    (hactive : (viewOf v g r w).active = some slot) :
    ∃ report, w.published (Numeral.decimal v) (Numeral.decimal g) (Numeral.decimal r) =
        some report ∧ bufferOf report = some ((viewOf v g r w).content slot) := by
  have hconsistent := run_consistent (World.valid_initial self svpninfo) hreg hrun
    (initial_consistent v g r)
  exact Option.bind_eq_some_iff.mp (hconsistent slot hactive)

theorem viewOf_active {v g r : Int} {slot : Bool}
    (hactive : w.store.hash (activeidKey (Numeral.decimal v))
      (activeidField (Numeral.decimal g) (Numeral.decimal r)) = some (slotText slot)) :
    (viewOf v g r w).active = some slot := by
  have hview : (viewOf v g r w).active = (some (slotText slot)).bind slotOf :=
    congrArg (·.bind slotOf) hactive
  rw [hview]
  exact slotOf_slotText slot

/-- The registered triple behind an activeid that names a buffer. -/
theorem exists_triple (hvalid : World.Valid db w) {vpnid field activeid : String}
    (hactive : w.store.hash (activeidKey vpnid) field = some activeid)
    (hid : IsBufferId activeid) :
    ∃ v g r slot, db.Registered v g r ∧ vpnid = Numeral.decimal v ∧
      field = activeidField (Numeral.decimal g) (Numeral.decimal r) ∧
      activeid = slotText slot ∧ (viewOf v g r w).active = some slot := by
  obtain ⟨_, v, g, r, hreg, rfl, rfl⟩ := hvalid.sound.activeid_registered _ _ _ hactive
  obtain ⟨slot, rfl⟩ := exists_slot hid
  exact ⟨v, g, r, slot, hreg, rfl, rfl, rfl, viewOf_active hactive⟩

end Runs

/-- Every sequence of calls is a run of the world, with any request waiting. -/
theorem run_of_history {db : Database} {calls : List (Report × CallEnd)} {s : Store}
    (h : History db calls s) (self : Self) (svpninfo : SvpnInfo) :
    ∃ events progress, World.Run (World.initial db self svpninfo) events
      ⟨s, progress, none, getGameIpListBySvpnInfo self svpninfo, lastPublished calls⟩ := by
  induction h with
  | load => exact ⟨[], .start, .nil _⟩
  | @call calls s s' report e _ hcall ih =>
    obtain ⟨events, progress, hrun⟩ := ih
    obtain ⟨events', progress', _, hrun'⟩ := run_of_call hcall progress
      (getGameIpListBySvpnInfo self svpninfo) (lastPublished calls)
    rw [← lastReports_snoc] at hrun'
    exact ⟨_, progress', hrun.append hrun'⟩

/-- After any sequence of calls: a buffer that an activeid names holds the
records of the last report that was published for it. -/
theorem history_buffer {db : Database} {calls : List (Report × CallEnd)} {s : Store}
    (h : History db calls s) {vpnid gameid regionid activeid : String}
    (hactive : s.hash (activeidKey vpnid) (activeidField gameid regionid) = some activeid)
    (hid : IsBufferId activeid) :
    ∃ report detects, lastPublished calls vpnid gameid regionid = some report ∧
      report.detects = some detects ∧
      s.zset (detectDataKey vpnid gameid regionid activeid) = contents detects := by
  -- Which request waits does not matter to the store.
  obtain ⟨events, progress, hrun⟩ := run_of_history h ⟨0, 0, none⟩
    ⟨.null, .null, Value.noConfusion, Value.noConfusion⟩
  obtain ⟨v, g, r, slot, hreg, rfl, hfield, rfl, hslot⟩ :=
    exists_triple (valid_of_run hrun) hactive hid
  obtain ⟨rfl, rfl⟩ := activeidField_eq (plain_decimal g) (plain_decimal r) hfield
  obtain ⟨report, hpublished, hbuffer⟩ := active_buffer hrun hreg hslot
  obtain ⟨detects, hdetects, hcontents⟩ := Option.map_eq_some_iff.mp hbuffer
  exact ⟨report, detects, hpublished, hdetects, hcontents.symm⟩

end GameAcc.Interleaving
