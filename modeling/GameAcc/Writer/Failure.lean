import GameAcc.Writer.Publishing

/-!
What a reader of the store can tell about a call that failed. Readers look at
the activeids, at the averages, and at the buffers that an activeid names. The
buffer a call refills is named by no activeid, so a call that fails before its
first write of an average changes nothing they see; one that fails later has
changed averages, and nothing else.
-/

namespace GameAcc.Writer

open GameAcc.Redis GameAcc.Mysql GameAcc.Text GameAcc.Command

/-- The call left through its `except` branch. -/
def CallEnd.Raises : CallEnd → Prop
  | .returned _ => False
  | .raised _ => True
  | .rejected _ _ => True

instance (e : CallEnd) : Decidable e.Raises := by
  cases e <;> unfold CallEnd.Raises <;> infer_instance

/-- No command was rejected after the first average had been written. -/
def CallEnd.Early : CallEnd → Prop
  | .rejected _ written => written = 0
  | _ => True

/-- `s'` has the activeids of `s`, and what `s` holds in the buffers they name. -/
structure SameActive (s s' : Store) : Prop where
  activeid : ∀ vpnid field,
    s'.hash (activeidKey vpnid) field = s.hash (activeidKey vpnid) field
  buffer : ∀ vpnid gameid regionid activeid,
    s.hash (activeidKey vpnid) (activeidField gameid regionid) = some activeid →
      IsBufferId activeid →
      s'.zset (detectDataKey vpnid gameid regionid activeid) =
        s.zset (detectDataKey vpnid gameid regionid activeid)

structure SameVisible (s s' : Store) : Prop extends SameActive s s' where
  average : ∀ vpnid field,
    s'.hash (avaRegionKey vpnid) field = s.hash (avaRegionKey vpnid) field

theorem SameVisible.refl (s : Store) : SameVisible s s where
  activeid := fun _ _ => rfl
  buffer := fun _ _ _ _ _ _ => rfl
  average := fun _ _ => rfl

theorem SameVisible.symm {s s' : Store} (h : SameVisible s s') : SameVisible s' s where
  activeid := fun vpnid field => (h.activeid vpnid field).symm
  buffer := by
    intro vpnid gameid regionid activeid hactive hid
    have hactive' := (h.activeid vpnid (activeidField gameid regionid)).symm.trans hactive
    exact (h.buffer vpnid gameid regionid activeid hactive' hid).symm
  average := fun vpnid field => (h.average vpnid field).symm

theorem SameVisible.trans {s₁ s₂ s₃ : Store} (h : SameVisible s₁ s₂)
    (h' : SameVisible s₂ s₃) : SameVisible s₁ s₃ where
  activeid := fun vpnid field => (h'.activeid vpnid field).trans (h.activeid vpnid field)
  buffer := by
    intro vpnid gameid regionid activeid hactive hid
    have hactive' := (h.activeid vpnid (activeidField gameid regionid)).trans hactive
    exact (h'.buffer vpnid gameid regionid activeid hactive' hid).trans
      (h.buffer vpnid gameid regionid activeid hactive hid)
  average := fun vpnid field => (h'.average vpnid field).trans (h.average vpnid field)

section Draft

variable {db : Database} {report : Report} {s : Store}

/-- Buffers of different registered triples have different keys. -/
theorem Sound.triple_of_key (h : Sound db s) (d : Draft report s)
    {vpnid gameid regionid activeid : String}
    (hfield : (s.hash (activeidKey vpnid) (activeidField gameid regionid)).isSome)
    (hid : IsBufferId activeid)
    (hkey : detectDataKey vpnid gameid regionid activeid = d.key) :
    vpnid = d.vpnid ∧ gameid = d.gameid ∧ regionid = d.regionid ∧ activeid = d.activeid := by
  obtain ⟨v, g, r, habout⟩ := h.about d
  obtain ⟨text, htext⟩ := Option.isSome_iff_exists.mp hfield
  obtain ⟨_, v', g', r', _, hv', hfields⟩ := h.activeid_registered _ _ _ htext
  obtain ⟨hg', hr'⟩ := activeidField_eq (plain_decimal g') (plain_decimal r') hfields
  unfold Draft.key at hkey
  rw [habout.vpnid, habout.gameid, habout.regionid] at hkey ⊢
  rw [hv', hg', hr'] at hkey ⊢
  exact detectDataKey_eq (plain_decimal g') (plain_decimal r') (plain_decimal g)
    (plain_decimal r) (plain_decimal v') (plain_decimal v) hid.plain d.isBufferId.plain hkey

/-- A call never refills a buffer in use. -/
theorem Sound.key_not_active (h : Sound db s) (d : Draft report s)
    {vpnid gameid regionid activeid : String}
    (hactive : s.hash (activeidKey vpnid) (activeidField gameid regionid) = some activeid)
    (hid : IsBufferId activeid) :
    detectDataKey vpnid gameid regionid activeid ≠ d.key := by
  intro hkey
  obtain ⟨rfl, rfl, rfl, hsame⟩ := h.triple_of_key d (by simp [hactive]) hid hkey
  obtain ⟨text, htext, hold, hactiveid⟩ := d.activeid_text
  obtain rfl := Option.some.inj (hactive.symm.trans htext)
  have hnext := (h.activeid_registered _ _ _ hactive).1.next hold
  have hsame' : activeid = Numeral.decimal (nextActiveid d.old) := hsame
  rw [← hsame'] at hnext
  rcases hnext with ⟨h1, h2⟩ | ⟨h1, h2⟩ | ⟨h1, h2⟩ <;>
    · rw [h1] at h2
      revert h2
      decide

theorem Draft.store_hash (d : Draft report s) (z : SortedSet) {key : String}
    (hkey : key ≠ d.key) : (d.store z).hash key = s.hash key := by
  simp [Draft.store, Store.delete, hkey]

theorem Draft.store_other (d : Draft report s) (z : SortedSet) {key : String}
    (hkey : key ≠ d.key) : (d.store z).zset key = s.zset key := by
  simp [Draft.store, Store.delete, Store.setZset, hkey]

/-- An unfinished buffer is invisible. -/
theorem Sound.store_sameVisible (h : Sound db s) (d : Draft report s) (z : SortedSet) :
    SameVisible s (d.store z) where
  activeid := by
    intro vpnid field
    rw [d.store_hash z (activeidKey_ne_detectDataKey d.isBufferId vpnid)]
  buffer := by
    intro vpnid gameid regionid activeid hactive hid
    exact d.store_other z (h.key_not_active d hactive hid)
  average := by
    intro vpnid field
    rw [d.store_hash z (avaRegionKey_ne_detectDataKey d.isBufferId vpnid)]

theorem SameActive.setAverage {s₀ s' : Store} (h : SameActive s₀ s')
    (vpnid field value : String) :
    SameActive s₀ (s'.setHash (avaRegionKey vpnid) field value) where
  activeid := by
    intro v f
    rw [Store.setHash_key_ne _ _ _ _ _ (avaRegionKey_ne_activeidKey vpnid v).symm]
    exact h.activeid v f
  buffer := h.buffer

/-- Written averages are all that can be seen of a call before its last command. -/
theorem Sound.averaged_sameActive (h : Sound db s) (d : Draft report s)
    (detects : List Detect) :
    SameActive s (d.withRtt detects) ∧ SameActive s (d.withRttCnt detects) ∧
      SameActive s (d.averaged detects) := by
  have hstore := (h.store_sameVisible d (contents detects)).toSameActive
  have hrtt := hstore.setAverage d.vpnid (regionRttField d.gameid d.regionid)
    (Numeral.decimal (tally detects).average)
  have hcnt := hrtt.setAverage d.vpnid (regionRttCntField d.gameid d.regionid)
    (Numeral.decimal (tally detects).counter)
  have haveraged := hcnt.setAverage d.vpnid (regionRttField d.gameid "0")
    (Numeral.decimal (tally detects).average)
  exact ⟨hrtt, hcnt, haveraged⟩

theorem Sound.pending_sameActive (h : Sound db s) {c : Cmd} {at_ : Watch}
    (hpending : Pending report s c at_) : SameActive s at_.1 := by
  cases hpending with
  | lookup _ => exact (SameVisible.refl s).toSameActive
  | clear _ => exact (SameVisible.refl s).toSameActive
  | fill d score member z => exact (h.store_sameVisible d z).toSameActive
  | survey d _ z => exact (h.store_sameVisible d z).toSameActive
  | rtt d _ => exact (h.store_sameVisible d _).toSameActive
  | rttCnt d _ => exact (h.averaged_sameActive d _).1
  | rttRegion0 d _ => exact (h.averaged_sameActive d _).2.1
  | activeid d _ => exact (h.averaged_sameActive d _).2.2

theorem Sound.pending_sameVisible (h : Sound db s) {c : Cmd} {s' : Store}
    {cleared : Bool} (hpending : Pending report s c (s', ⟨cleared, 0⟩)) :
    SameVisible s s' := by
  cases hpending with
  | lookup _ => exact .refl s
  | clear _ => exact .refl s
  | fill d score member z => exact h.store_sameVisible d z
  | survey d _ z => exact h.store_sameVisible d z
  | rtt d _ => exact h.store_sameVisible d _

theorem Sound.raises_sameActive (h : Sound db s) {e : CallEnd} {s' : Store}
    (hcall : Call report s e s') (hraises : e.Raises) : SameActive s s' := by
  cases e with
  | returned exit => cases hraises
  | raised e =>
    rcases hcall.raised_store with rfl | ⟨d, z, rfl⟩
    · exact (SameVisible.refl s').toSameActive
    · exact (h.store_sameVisible d z).toSameActive
  | rejected c written =>
    obtain ⟨cleared, hpending⟩ := hcall.rejected_pending
    exact h.pending_sameActive hpending

theorem Sound.raises_sameVisible (h : Sound db s) {e : CallEnd} {s' : Store}
    (hcall : Call report s e s') (hraises : e.Raises) (hearly : e.Early) :
    SameVisible s s' := by
  cases e with
  | returned exit => cases hraises
  | raised e =>
    rcases hcall.raised_store with rfl | ⟨d, z, rfl⟩
    · exact .refl s'
    · exact h.store_sameVisible d z
  | rejected c written =>
    obtain ⟨cleared, hpending⟩ := hcall.rejected_pending
    obtain rfl : written = 0 := hearly
    exact h.pending_sameVisible hpending

end Draft

section Simulation

variable {db : Database} {report : Report} {s t : Store}

/-- A draft in one store is a draft in any store with the same activeids. -/
def Draft.transfer (d : Draft report s)
    (h : ∀ vpnid field, t.hash (activeidKey vpnid) field = s.hash (activeidKey vpnid) field) :
    Draft report t :=
  { d with
    activeid_text := by
      obtain ⟨text, htext, hold⟩ := d.activeid_text
      exact ⟨text, (h _ _).trans htext, hold⟩ }

theorem Skips.transfer (hskips : Skips report s)
    (h : ∀ vpnid field, t.hash (activeidKey vpnid) field = s.hash (activeidKey vpnid) field) :
    Skips report t := by
  obtain ⟨v, g, r, hv, hg, hr, hlogged, habsent⟩ := hskips
  exact ⟨v, g, r, hv, hg, hr, hlogged, (h _ _).trans habsent⟩

theorem setHash_congr {s t : Store} {key field : String}
    (h : t.hash key field = s.hash key field) (k f value : String) :
    (t.setHash k f value).hash key field = (s.setHash k f value).hash key field := by
  simp only [Store.setHash, h]

theorem Draft.published_hash_congr (d : Draft report s)
    (h : ∀ vpnid field, t.hash (activeidKey vpnid) field = s.hash (activeidKey vpnid) field)
    (detects : List Detect) {key field : String} (hkey : key ≠ d.key)
    (hsame : t.hash key field = s.hash key field) :
    ((d.transfer h).published detects).hash key field =
      (d.published detects).hash key field := by
  have hstore : ((d.transfer h).store (contents detects)).hash key field =
      (d.store (contents detects)).hash key field := by
    rw [(d.transfer h).store_hash _ hkey, d.store_hash _ hkey, hsame]
  unfold Draft.published Draft.averaged Draft.withRttCnt Draft.withRtt
  exact setHash_congr (setHash_congr (setHash_congr (setHash_congr hstore _ _ _) _ _ _)
    _ _ _) _ _ _

/-- Besides its own, a publication leaves all activeids as they are. -/
theorem Draft.published_hash_activeid (d : Draft report s) (detects : List Detect)
    {vpnid field : String}
    (hother : ¬(vpnid = d.vpnid ∧ field = activeidField d.gameid d.regionid)) :
    (d.published detects).hash (activeidKey vpnid) field =
      s.hash (activeidKey vpnid) field := by
  have hown : ¬(activeidKey vpnid = activeidKey d.vpnid ∧
      field = activeidField d.gameid d.regionid) := by
    rintro ⟨hkey, hfield⟩
    exact hother ⟨activeidKey_injective hkey, hfield⟩
  have hwrite : (d.published detects).hash (activeidKey vpnid) field =
      (d.averaged detects).hash (activeidKey vpnid) field := by
    simp only [Draft.published, Store.setHash, if_neg hown]
  have hne := (avaRegionKey_ne_activeidKey d.vpnid vpnid).symm
  rw [hwrite, Draft.averaged, Store.setHash_key_ne _ _ _ _ _ hne, Draft.withRttCnt,
    Store.setHash_key_ne _ _ _ _ _ hne, Draft.withRtt,
    Store.setHash_key_ne _ _ _ _ _ hne,
    d.store_hash _ (activeidKey_ne_detectDataKey d.isBufferId vpnid)]

theorem Draft.published_zset_other (d : Draft report s) (detects : List Detect)
    {key : String} (hkey : key ≠ d.key) :
    (d.published detects).zset key = s.zset key :=
  d.store_other (contents detects) hkey

/-- What an activeid names after a publication: the new buffer for the published
triple, what it named before for every other. -/
theorem Sound.published_active (h : Sound db s) (d : Draft report s)
    (detects : List Detect) {vpnid gameid regionid activeid : String}
    (hactive : (d.published detects).hash (activeidKey vpnid)
      (activeidField gameid regionid) = some activeid) (hid : IsBufferId activeid) :
    (vpnid = d.vpnid ∧ gameid = d.gameid ∧ regionid = d.regionid ∧
      detectDataKey vpnid gameid regionid activeid = d.key) ∨
    (¬(vpnid = d.vpnid ∧ gameid = d.gameid ∧ regionid = d.regionid) ∧
      s.hash (activeidKey vpnid) (activeidField gameid regionid) = some activeid ∧
      detectDataKey vpnid gameid regionid activeid ≠ d.key) := by
  by_cases hown : vpnid = d.vpnid ∧ activeidField gameid regionid =
      activeidField d.gameid d.regionid
  · left
    obtain ⟨v, g, r, habout⟩ := h.about d
    obtain ⟨rfl, hfield⟩ := hown
    rw [habout.gameid, habout.regionid] at hfield
    obtain ⟨hg, hr⟩ := activeidField_eq (plain_decimal g) (plain_decimal r) hfield
    have hg' : gameid = d.gameid := hg.trans habout.gameid.symm
    have hr' : regionid = d.regionid := hr.trans habout.regionid.symm
    subst hg' hr'
    obtain rfl := Option.some.inj ((d.published_activeid detects).symm.trans hactive)
    exact ⟨rfl, rfl, rfl, rfl⟩
  · right
    rw [d.published_hash_activeid detects hown] at hactive
    have hother : ¬(vpnid = d.vpnid ∧ gameid = d.gameid ∧ regionid = d.regionid) := by
      rintro ⟨rfl, rfl, rfl⟩
      exact hown ⟨rfl, rfl⟩
    refine ⟨hother, hactive, ?_⟩
    intro hkey
    obtain ⟨hv, hg, hr, _⟩ := h.triple_of_key d (by simp [hactive]) hid hkey
    exact hother ⟨hv, hg, hr⟩

/-- The same report published in two stores that look the same. -/
theorem published_sameVisible (hs : Sound db s) (h : SameVisible s t)
    (d : Draft report s) (detects : List Detect) :
    SameVisible (d.published detects) ((d.transfer h.activeid).published detects) where
  activeid := by
    intro vpnid field
    exact d.published_hash_congr h.activeid detects
      (activeidKey_ne_detectDataKey d.isBufferId vpnid) (h.activeid vpnid field)
  buffer := by
    intro vpnid gameid regionid activeid hactive hid
    rcases hs.published_active d detects hactive hid with ⟨_, _, _, hkey⟩ | ⟨_, hfield, hkey⟩
    · rw [hkey, d.published_zset]
      exact (d.transfer h.activeid).published_zset detects
    · have hkey' : detectDataKey vpnid gameid regionid activeid ≠
          (d.transfer h.activeid).key := hkey
      rw [d.published_zset_other detects hkey,
        (d.transfer h.activeid).published_zset_other detects hkey']
      exact h.buffer vpnid gameid regionid activeid hfield hid
  average := by
    intro vpnid field
    exact d.published_hash_congr h.activeid detects
      (avaRegionKey_ne_detectDataKey d.isBufferId vpnid) (h.average vpnid field)

/-- A call that returns does the same in two stores that look the same. -/
theorem Call.simulate (hs : Sound db s) (ht : Sound db t) (h : SameVisible s t)
    {exit : Exit} {s' : Store} (hcall : Call report s (.returned exit) s') :
    ∃ t', Call report t (.returned exit) t' ∧ SameVisible s' t' := by
  cases exit with
  | skipped =>
    obtain ⟨rfl, hskips⟩ := hcall.returned_skipped
    exact ⟨t, .returned (hskips.transfer h.activeid).run, h⟩
  | published =>
    obtain ⟨d, detects, hcomplete, rfl⟩ := hcall.returned_published
    have hcomplete' : (d.transfer h.activeid).Complete detects := by
      constructor
      · exact hcomplete.detects_read
      · intro region hregion
        apply hcomplete.regions region
        rw [hs.gameRegions, ← ht.gameRegions]
        exact hregion
    exact ⟨_, .returned hcomplete'.run, published_sameVisible hs h d detects⟩

end Simulation

/-- A failing call is invisible unless Redis rejects one of its last three
commands, and even then it changes neither an activeid nor a buffer in use. So a
sequence without such a rejection shows what its returning calls alone show. -/
theorem failing_calls_invisible (db : Database) :
    (∀ calls s, History db calls s →
      ∀ object report, checkReport object = 1 → Report.ofObject object = some report →
        ∀ e s', Call report s e s' → e.Raises →
          SameActive s s' ∧ (e.Early → SameVisible s s')) ∧
    (∀ calls s, History db calls s → (∀ call ∈ calls, call.2.Early) →
      ∃ s', History db (calls.filter (fun call => ¬call.2.Raises)) s' ∧
        SameVisible s' s) := by
  constructor
  · intro calls s hhistory object report _ _ e s' hcall hraises
    have hsound := hhistory.sound
    exact ⟨hsound.raises_sameActive hcall hraises,
      hsound.raises_sameVisible hcall hraises⟩
  · intro calls s hhistory
    induction hhistory with
    | load =>
      intro _
      exact ⟨load db, .load, .refl _⟩
    | @call calls s s₁ report e hhistory hcall ih =>
      intro hearly
      obtain ⟨t, ht, hsame⟩ := ih (fun call h => hearly call (List.mem_append_left _ h))
      have he : e.Early := hearly (report, e) (by simp)
      rw [List.filter_append]
      by_cases hraises : e.Raises
      · refine ⟨t, ?_, hsame.trans (hhistory.sound.raises_sameVisible hcall hraises he)⟩
        simpa [hraises] using ht
      · cases e with
        | raised e => exact absurd trivial hraises
        | rejected c written => exact absurd trivial hraises
        | returned exit =>
          obtain ⟨t₁, hcall', hsame'⟩ :=
            hcall.simulate hhistory.sound ht.sound hsame.symm
          refine ⟨t₁, ?_, hsame'.symm⟩
          have hkeep : [(report, CallEnd.returned exit)].filter
              (fun call => ¬call.2.Raises) = [(report, .returned exit)] := by
            simp [CallEnd.Raises]
          rw [hkeep]
          exact ht.call hcall'

/-- The report as it comes over HTTP. -/
def oneObject : Object :=
  [("vpnid", .int 1), ("gameid", .int 5), ("regionid", .str "1"),
   ("detectdata", .str (detectdata [oneRecord 40]))]

theorem failing_calls_invisible_two_regions :
    ∃ e s', Call (oneReport 40) (load (oneGame [1, 2])) e s' ∧ e.Raises ∧
      SameVisible (load (oneGame [1, 2])) s' ∧
      ∃ s'', History (oneGame [1, 2]) [] s'' ∧ SameVisible s'' s' := by
  obtain ⟨d, _⟩ := oneReport_draft [1, 2] 40 (Sound.load _) List.mem_cons_self
  obtain ⟨e, s', hcall⟩ := exists_raised d.not_skips
    (oneReport_incomplete (show (2 : Int) ∈ [1, 2] by simp) (by decide))
  have hload : History (oneGame [1, 2]) [] (load (oneGame [1, 2])) := .load
  obtain ⟨hone, hsequence⟩ := failing_calls_invisible (oneGame [1, 2])
  refine ⟨.raised e, s', hcall, trivial, ?_, ?_⟩
  · exact (hone [] _ hload oneObject (oneReport 40) rfl rfl _ _ hcall trivial).2 trivial
  · exact hsequence _ _ (hload.call hcall) (by simp [CallEnd.Early])

section Rejection

variable {report : Report} {s : Store}

theorem advance_written (c : Cmd) (progress : Progress) :
    (advance c progress).written ≤ progress.written + 1 := by
  cases c <;> simp [advance]

/-- Redis can reject the second write of a complete report: the average of the
region is then written and its count is not. -/
theorem Draft.Complete.rejected {d : Draft report s} {detects : List Detect}
    (h : d.Complete detects) :
    ∃ c, Call report s (.rejected c 1) (d.withRtt detects) := by
  obtain ⟨progress, hrun⟩ := run_ghosted advance (dealReport report) s .start
  have hpost := (dealReport_holds report s).run
  rw [hrun, h.run] at hpost
  rw [h.run] at hrun
  have hlast : 1 < progress.written := by
    generalize hat : (d.published detects, progress) = at_ at hpost
    cases hpost
    obtain ⟨_, rfl⟩ := Prod.mk.inj hat
    decide
  obtain ⟨c, next, s₁, ⟨cleared, written⟩, hsteps, hwritten, _⟩ :=
    exists_steps_counter advance_written _ hrun (by decide) hlast
  obtain rfl : written = 1 := hwritten
  have hpending := (holds_issue.mp ((dealReport_holds report s).steps hsteps)).1
  have hstore : s₁ = d.withRtt detects := by
    cases hpending with
    | rttCnt d' h' =>
      obtain rfl := Subsingleton.elim d d'
      obtain rfl := Option.some.inj (h.detects_read.symm.trans h'.detects_read)
      rfl
  rw [← hstore]
  exact ⟨c, .rejected hsteps⟩

end Rejection

/-- A report whose second average Redis rejects has changed the first one. -/
theorem rejected_write_visible :
    checkReport oneObject = 1 ∧ Report.ofObject oneObject = some (oneReport 40) ∧
      ∃ c s', Call (oneReport 40) (load (oneGame [1])) (.rejected c 1) s' ∧
        ¬SameVisible (load (oneGame [1])) s' := by
  refine ⟨rfl, rfl, ?_⟩
  obtain ⟨d, hcomplete, hv, hg, hr⟩ := oneReport_complete 40 (by decide) (Sound.load _)
  obtain ⟨c, hcall⟩ := hcomplete.rejected
  refine ⟨c, _, hcall, ?_⟩
  intro hvisible
  have hnew : (d.withRtt [(oneRecord 40).detect]).hash (avaRegionKey d.vpnid)
      (regionRttField d.gameid d.regionid) = some "40" :=
    Store.setHash_self _ _ _ _
  rw [hv, hg, hr] at hnew
  have hold : (load (oneGame [1])).hash (avaRegionKey "1") (regionRttField "5" "1") =
      some "0" := oneGame_average (List.mem_singleton_self 1)
  rw [hvisible.average, hold] at hnew
  revert hnew
  decide

end GameAcc.Writer
