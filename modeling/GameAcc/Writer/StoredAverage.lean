import GameAcc.Writer.Failure
import GameAcc.Writer.LastReport
import GameAcc.Writer.Publishing

/-!
What the average of a region is after any sequence of calls: the loaded zero, or
the average of the last report of its triple that a call has written. A game
that requests can name has no two regions with such a report, so that nothing
else writes the field in between.
-/

namespace GameAcc.Writer

open GameAcc.Redis GameAcc.Mysql GameAcc.Text GameAcc.Command

section OneCall

variable {report : Report} {s s' : Store}

/-- The stores of a call that has written the average of its region. -/
inductive Draft.Averaged (d : Draft report s) (detects : List Detect) : Store → Prop
  | withRtt : d.Averaged detects (d.withRtt detects)
  | withRttCnt : d.Averaged detects (d.withRttCnt detects)
  | averaged : d.Averaged detects (d.averaged detects)
  | published : d.Averaged detects (d.published detects)

theorem Draft.averaged_own (d : Draft report s) {detects : List Detect}
    (h : d.Averaged detects s') :
    s'.hash (avaRegionKey d.vpnid) (regionRttField d.gameid d.regionid) =
      some (Numeral.decimal (tally detects).average) := by
  have hcnt := regionRttField_ne_regionRttCntField d.gameid d.regionid d.gameid d.regionid
  have hrtt : (d.withRtt detects).hash (avaRegionKey d.vpnid)
      (regionRttField d.gameid d.regionid) =
        some (Numeral.decimal (tally detects).average) := Store.setHash_self _ _ _ _
  cases h with
  | withRtt => exact hrtt
  | withRttCnt => rw [Draft.withRttCnt, Store.setHash_field_ne _ _ _ _ _ hcnt, hrtt]
  | averaged =>
    rw [← d.published_average]
    exact d.published_rtt detects
  | published => exact d.published_rtt detects

theorem Draft.averaged_other (d : Draft report s) {detects : List Detect}
    (h : d.Averaged detects s') {vpnid field : String}
    (hother : vpnid = d.vpnid → field ≠ regionRttField d.gameid d.regionid ∧
      field ≠ regionRttCntField d.gameid d.regionid ∧ field ≠ regionRttField d.gameid "0") :
    s'.hash (avaRegionKey vpnid) field = s.hash (avaRegionKey vpnid) field := by
  have hwrite : ∀ (t : Store) (f value : String), (vpnid = d.vpnid → field ≠ f) →
      (t.setHash (avaRegionKey d.vpnid) f value).hash (avaRegionKey vpnid) field =
        t.hash (avaRegionKey vpnid) field := by
    intro t f value hne
    by_cases hvpnid : vpnid = d.vpnid
    · exact Store.setHash_field_ne _ _ _ _ _ (hne hvpnid)
    · exact Store.setHash_key_ne _ _ _ _ _ (fun hkey => hvpnid (avaRegionKey_injective hkey))
  have hstore : (d.store (contents detects)).hash (avaRegionKey vpnid) field =
      s.hash (avaRegionKey vpnid) field :=
    congrFun (d.store_hash _ (avaRegionKey_ne_detectDataKey d.isBufferId vpnid)) field
  have hrtt := (hwrite _ _ (Numeral.decimal (tally detects).average)
    (fun hv => (hother hv).1)).trans hstore
  have hcnt := (hwrite (d.withRtt detects) _ (Numeral.decimal (tally detects).counter)
    (fun hv => (hother hv).2.1)).trans hrtt
  have hregion0 := (hwrite (d.withRttCnt detects) _
    (Numeral.decimal (tally detects).average) (fun hv => (hother hv).2.2)).trans hcnt
  cases h with
  | withRtt => exact hrtt
  | withRttCnt => exact hcnt
  | averaged => exact hregion0
  | published => exact (d.published_average detects vpnid field).trans hregion0

/-- A call writes the average of its region, or no average at all. -/
theorem Call.averages {e : CallEnd} (hcall : Call report s e s') :
    (e.averages = true ∧ ∃ (d : Draft report s) (detects : List Detect),
      d.Complete detects ∧ d.Averaged detects s') ∨
    (e.averages = false ∧ ∀ vpnid field,
      s'.hash (avaRegionKey vpnid) field = s.hash (avaRegionKey vpnid) field) := by
  have hstore : ∀ (d : Draft report s) (z : SortedSet) vpnid field,
      (d.store z).hash (avaRegionKey vpnid) field = s.hash (avaRegionKey vpnid) field :=
    fun d z vpnid field =>
      congrFun (d.store_hash z (avaRegionKey_ne_detectDataKey d.isBufferId vpnid)) field
  cases e with
  | returned exit =>
    cases exit with
    | skipped =>
      rw [hcall.returned_skipped.1]
      exact .inr ⟨rfl, fun _ _ => rfl⟩
    | published =>
      obtain ⟨d, detects, hcomplete, rfl⟩ := hcall.returned_published
      exact .inl ⟨rfl, d, detects, hcomplete, .published⟩
  | raised e =>
    rcases hcall.raised_store with rfl | ⟨d, z, rfl⟩
    · exact .inr ⟨rfl, fun _ _ => rfl⟩
    · exact .inr ⟨rfl, hstore d z⟩
  | rejected c written =>
    obtain ⟨cleared, hpending⟩ := hcall.rejected_pending
    generalize hat : (s', (⟨cleared, written⟩ : Progress)) = at_ at hpending
    have hparts : s' = at_.1 ∧ written = at_.2.written := by
      rw [← hat]
      exact ⟨rfl, rfl⟩
    obtain ⟨rfl, rfl⟩ := hparts
    cases hpending with
    | lookup _ => exact .inr ⟨rfl, fun _ _ => rfl⟩
    | clear _ => exact .inr ⟨rfl, fun _ _ => rfl⟩
    | fill d _ _ z => exact .inr ⟨rfl, hstore d z⟩
    | survey d _ z => exact .inr ⟨rfl, hstore d z⟩
    | rtt d _ => exact .inr ⟨rfl, hstore d _⟩
    | rttCnt d h => exact .inl ⟨rfl, d, _, h, .withRtt⟩
    | rttRegion0 d h => exact .inl ⟨rfl, d, _, h, .withRttCnt⟩
    | activeid d h => exact .inl ⟨rfl, d, _, h, .averaged⟩

end OneCall

/-- The only region of a known game a call can publish for. -/
theorem Draft.Complete.region_unique {db : Database} {report : Report} {s : Store}
    {d : Draft report s} {detects : List Detect} (h : d.Complete detects)
    (hs : Sound db s) {v g r r' : Int} (habout : d.About db v g r) (hknown : db.Known g)
    (hregion : r' ∈ db.regionids g) : r = r' := by
  have hreported : ∀ region ∈ db.regionids g, report.regionid = .str (Numeral.decimal region) := by
    intro region hmem
    apply h.regions
    rw [habout.gameid, hs.gameRegions]
    exact (mem_gameRegions_known db hknown).mpr ⟨region, hmem, rfl⟩
  have hr := hreported r habout.registered.region
  have hr' := hreported r' hregion
  exact decimal_injective (PyVal.str.inj (hr.symm.trans hr'))

section Histories

variable {db : Database} {s : Store} {calls : List (Report × CallEnd)}

/-- A report that ran to its end was about a registered triple. -/
theorem registered_of_lastReports {ends : CallEnd → Bool}
    (hends : ∀ {report : Report} {s s' : Store} {e : CallEnd}, Call report s e s' →
      ends e = true → Nonempty (Draft report s))
    (h : History db calls s) {vpnid gameid regionid : String} {report : Report}
    (hlast : lastReports ends calls vpnid gameid regionid = some report) :
    ∃ v g r, db.Registered v g r ∧ vpnid = Numeral.decimal v ∧ gameid = Numeral.decimal g ∧
      regionid = Numeral.decimal r := by
  induction h with
  | load => cases hlast
  | @call calls s s' report' e hhistory hcall ih =>
    rw [lastReports_snoc] at hlast
    by_cases he : ends e = true
    · rw [if_pos he] at hlast
      rcases LastReports.record_eq_some hlast with ⟨htriple, _⟩ | ⟨_, hbefore⟩
      · obtain ⟨d⟩ := hends hcall he
        obtain ⟨v, g, r, habout⟩ := hhistory.sound.about d
        have hids := (draft_triple d).symm.trans htriple
        simp only [Option.some.injEq, Prod.mk.injEq] at hids
        obtain ⟨hv, hg, hr⟩ := hids
        exact ⟨v, g, r, habout.registered, hv ▸ habout.vpnid, hg ▸ habout.gameid,
          hr ▸ habout.regionid⟩
      · exact ih hbefore
    · rw [if_neg he] at hlast
      exact ih hlast

theorem complete_of_publishes {report : Report} {s s' : Store} {e : CallEnd}
    (hcall : Call report s e s') (he : e.publishes = true) :
    ∃ (d : Draft report s) (detects : List Detect), d.Complete detects := by
  cases e with
  | returned exit =>
    cases exit with
    | skipped => cases he
    | published =>
      obtain ⟨d, detects, hcomplete, _⟩ := hcall.returned_published
      exact ⟨d, detects, hcomplete⟩
  | _ => cases he

theorem draft_of_publishes {report : Report} {s s' : Store} {e : CallEnd}
    (hcall : Call report s e s') (he : e.publishes = true) : Nonempty (Draft report s) := by
  obtain ⟨d, _⟩ := complete_of_publishes hcall he
  exact ⟨d⟩

/-- What a region's average is: `"0"`, or the average of the last report. -/
def AverageIs (last : Option Report) (value : Option String) : Prop :=
  match last with
  | none => value = some "0"
  | some report => ∃ detects, report.detects = some detects ∧
      value = some (Numeral.decimal (tally detects).average)

theorem averageIs {v g r : Int} (h : History db calls s) (hreg : db.Registered v g r)
    (hknown : db.Known g) :
    AverageIs
      (lastAveraged calls (Numeral.decimal v) (Numeral.decimal g) (Numeral.decimal r))
      (s.hash (avaRegionKey (Numeral.decimal v))
        (regionRttField (Numeral.decimal g) (Numeral.decimal r))) := by
  induction h with
  | load => exact (load_average db).mpr ⟨rfl, v, g, r, hreg, rfl, .rtt⟩
  | @call calls s s' report e hhistory hcall ih =>
    rw [lastAveraged, lastReports_snoc]
    rcases hcall.averages with ⟨he, d, detects, hcomplete, haveraged⟩ | ⟨he, hkept⟩
    · rw [he, if_pos rfl]
      obtain ⟨v', g', r', habout⟩ := hhistory.sound.about d
      by_cases hown : triple report =
          some (Numeral.decimal v, Numeral.decimal g, Numeral.decimal r)
      · have hids := (draft_triple d).symm.trans hown
        simp only [Option.some.injEq, Prod.mk.injEq] at hids
        obtain ⟨hv, hg, hr⟩ := hids
        have hvalue := d.averaged_own haveraged
        rw [hv, hg, hr] at hvalue
        rw [LastReports.record, if_pos hown]
        exact ⟨detects, hcomplete.detects_eq, hvalue⟩
      · rw [LastReports.record, if_neg hown, d.averaged_other haveraged]
        · exact ih
        · intro hv
          rw [habout.gameid, habout.regionid]
          have hsame : g' = g → r' = r → False := by
            rintro rfl rfl
            exact hown (by rw [draft_triple d, ← hv, habout.gameid, habout.regionid])
          refine ⟨?_, regionRttField_ne_regionRttCntField _ _ _ _, ?_⟩
          · intro hfield
            obtain ⟨hg, hr⟩ := regionRttField_eq (plain_decimal g) (plain_decimal r)
              (plain_decimal g') (plain_decimal r') hfield
            exact hsame (decimal_injective hg).symm (decimal_injective hr).symm
          · intro hfield
            obtain ⟨hg, _⟩ := regionRttField_eq (plain_decimal g) (plain_decimal r)
              (plain_decimal g') (by decide) hfield
            obtain rfl := decimal_injective hg
            exact hsame rfl (hcomplete.region_unique hhistory.sound habout hknown hreg.region)
    · rw [he, hkept]
      exact ih

end Histories

end GameAcc.Writer
