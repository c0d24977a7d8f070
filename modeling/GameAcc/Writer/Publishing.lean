import GameAcc.Writer.History
import GameAcc.Writer.Records

/-!
When a well-formed report is published, and what the publication leaves. The
loop over the regions of the game reads a name that nothing binds as soon as it
meets a region other than the reported one, and a score is the nearest double of
a round trip time; a report of a game with one region whose times are doubles is
published completely, any other report of a registered triple is not.
-/

namespace GameAcc.Writer

open GameAcc.Redis GameAcc.Mysql GameAcc.Text GameAcc.Command

section Published

variable {report : Report} {s : Store} (d : Draft report s) (detects : List Detect)

@[simp] theorem Draft.store_zset (z : SortedSet) : (d.store z).zset d.key = z :=
  Store.setZset_self _ _ _

theorem Draft.published_zset : (d.published detects).zset d.key = contents detects := by
  have h : (d.published detects).zset = (d.store (contents detects)).zset := rfl
  rw [h, d.store_zset]

theorem Draft.published_buffer (hnodup : (detects.map Detect.member).Nodup) :
    ((d.published detects).zset
      (detectDataKey d.vpnid d.gameid d.regionid d.activeid)).entries =
        detects.map (fun d => (d.member, d.score)) := by
  have hbuffer : (d.published detects).zset
      (detectDataKey d.vpnid d.gameid d.regionid d.activeid) = contents detects :=
    d.published_zset detects
  rw [hbuffer, contents_entries hnodup]

theorem Draft.published_activeid :
    (d.published detects).hash (activeidKey d.vpnid) (activeidField d.gameid d.regionid) =
      some d.activeid :=
  Store.setHash_self _ _ _ _

/-- The last write leaves the averages alone. -/
theorem Draft.published_average (vpnid field : String) :
    (d.published detects).hash (avaRegionKey vpnid) field =
      (d.averaged detects).hash (avaRegionKey vpnid) field :=
  Store.setHash_key_ne _ _ _ _ field (avaRegionKey_ne_activeidKey vpnid d.vpnid)

theorem Draft.published_rttRegion0 :
    (d.published detects).hash (avaRegionKey d.vpnid) (regionRttField d.gameid "0") =
      some (Numeral.decimal (tally detects).average) := by
  rw [d.published_average]
  exact Store.setHash_self _ _ _ _

theorem Draft.published_rttCnt :
    (d.published detects).hash (avaRegionKey d.vpnid)
        (regionRttCntField d.gameid d.regionid) =
      some (Numeral.decimal (tally detects).counter) := by
  have hfield := (regionRttField_ne_regionRttCntField d.gameid "0" d.gameid d.regionid).symm
  rw [d.published_average, Draft.averaged, Store.setHash_field_ne _ _ _ _ _ hfield]
  exact Store.setHash_self _ _ _ _

/-- The average of the region is the average of the report, also when the region
is region 0 and the same field is written twice. -/
theorem Draft.published_rtt :
    (d.published detects).hash (avaRegionKey d.vpnid) (regionRttField d.gameid d.regionid) =
      some (Numeral.decimal (tally detects).average) := by
  have hfield := regionRttField_ne_regionRttCntField d.gameid d.regionid d.gameid d.regionid
  rw [d.published_average]
  by_cases hzero : regionRttField d.gameid d.regionid = regionRttField d.gameid "0"
  · rw [hzero]
    exact Store.setHash_self _ _ _ _
  · rw [Draft.averaged, Store.setHash_field_ne _ _ _ _ _ hzero, Draft.withRttCnt,
      Store.setHash_field_ne _ _ _ _ _ hfield]
    exact Store.setHash_self _ _ _ _

end Published

theorem int_neg_one : int "-1" = .ok (-1) := by
  have htext : "-1" = Numeral.decimal (-1) := by decide
  rw [htext, int_decimal]

/-- What `int` reads in an activeid, and the activeid that follows it. -/
theorem IsActiveid.next {text : String} {old : Int} (h : IsActiveid text)
    (hold : int text = .ok old) :
    (text = "-1" ∧ Numeral.decimal (nextActiveid old) = "0") ∨
      (text = "0" ∧ Numeral.decimal (nextActiveid old) = "1") ∨
      (text = "1" ∧ Numeral.decimal (nextActiveid old) = "0") := by
  rcases h with rfl | rfl | rfl
  · obtain rfl : -1 = old := Except.ok.inj (int_neg_one.symm.trans hold)
    exact .inl ⟨rfl, rfl⟩
  · obtain rfl : 0 = old := Except.ok.inj ((int_decimal 0).symm.trans hold)
    exact .inr (.inl ⟨rfl, rfl⟩)
  · obtain rfl : 1 = old := Except.ok.inj ((int_decimal 1).symm.trans hold)
    exact .inr (.inr ⟨rfl, rfl⟩)

theorem IsActiveid.readable {text : String} (h : IsActiveid text) :
    (∃ old, int text = .ok old) ∧ format ("get activeid=" ++ text) = .ok () := by
  rcases h with rfl | rfl | rfl
  · exact ⟨⟨-1, int_neg_one⟩, format_of_free (by decide)⟩
  · exact ⟨⟨0, int_decimal 0⟩, format_of_free (by decide)⟩
  · exact ⟨⟨1, int_decimal 1⟩, format_of_free (by decide)⟩

theorem text_decimal (n : Int) :
    (PyVal.str (Numeral.decimal n)).text = .ok (Numeral.decimal n) := by
  have hall : (Numeral.decimal n).toList.all (·.toNat < 128) = true := by
    apply List.all_eq_true.mpr
    intro c hc
    rcases Numeral.decimal_chars n c hc with rfl | hdigit
    · decide
    · have hbounds := Char.isDigit_iff_toNat.mp hdigit
      simp only [show '9'.toNat = 57 from rfl] at hbounds
      simp only [decide_eq_true_eq]
      omega
  simp [PyVal.text, hall]

theorem free_percent_decimal (n : Int) : Free '%' (Numeral.decimal n) :=
  free_decimal n (by decide) (by decide)

/-- A report for a triple whose activeid field exists gets as far as its buffer. -/
theorem Sound.exists_draft {db : Database} {s : Store} (h : Sound db s)
    {report : Report} {vpnid gameid regionid detectstr : String}
    (hvpnid : report.vpnid.text = .ok vpnid) (hgameid : report.gameid.text = .ok gameid)
    (hregionid : report.regionid.text = .ok regionid)
    (hfield : (s.hash (activeidKey vpnid) (activeidField gameid regionid)).isSome)
    (hdetect : report.detectdata = .str detectstr) :
    ∃ d : Draft report s, d.vpnid = vpnid ∧ d.gameid = gameid ∧ d.regionid = regionid ∧
      d.detectstr = detectstr := by
  obtain ⟨text, htext⟩ := Option.isSome_iff_exists.mp hfield
  obtain ⟨hid, v, g, r, _, hv, hids⟩ := h.activeid_registered _ _ _ htext
  obtain ⟨hg, hr⟩ := activeidField_eq (plain_decimal g) (plain_decimal r) hids
  obtain ⟨⟨old, hold⟩, hshown⟩ := hid.readable
  have hlogged : format ("deal request for vpn " ++ vpnid ++ ",game " ++ gameid ++
      ",region " ++ regionid) = .ok () := by
    rw [hv, hg, hr]
    apply format_of_free
    exact free_append (free_append (free_append (free_append (free_append (by decide)
      (free_percent_decimal v)) (by decide)) (free_percent_decimal g)) (by decide))
      (free_percent_decimal r)
  have hkey : format ("detect_data_key=" ++ detectDataKey vpnid gameid regionid
      (Numeral.decimal (nextActiveid old))) = .ok () := by
    rw [hv, hg, hr]
    apply format_of_free
    unfold detectDataKey
    exact free_append (by decide) (free_append (free_append (free_append (free_append
      (free_append (free_append (free_append (by decide) (free_percent_decimal v))
        (by decide)) (free_percent_decimal g)) (by decide)) (free_percent_decimal r))
        (by decide)) (free_percent_decimal _))
  exact ⟨⟨vpnid, gameid, regionid, old, detectstr, hvpnid, hgameid, hregionid,
    ⟨text, htext, hold, hshown⟩, hdetect, hlogged, hkey⟩, rfl, rfl, rfl, rfl⟩

/-- The report `detectagent` sends for the records of one region. -/
def regionReport (vpnid gameid : PyVal) (regionid : String) (records : List Record) :
    Report :=
  { vpnid, gameid, regionid := .str regionid, detectdata := .str (detectdata records) }

/-- The number a field of the averages holds. -/
def stored (s : Store) (key field : String) : Int :=
  match s.hash key field with
  | some text => (Numeral.readInt text.toList).getD 0
  | none => 0

section Specification

variable (s s' : Store) (vpnid gameid regionid : String) (records : List Record)

def measuredRtts : List Int := (records.map Record.rtt).filter (· ≠ AVA_INF)

def otherRegions : List String :=
  (s.set (gameRegionKey gameid)).filter (· ≠ regionid)

/-- The measured round trip times of the other regions, as their averages and
counts stand for them. -/
def otherTotal : Int :=
  ((otherRegions s gameid regionid).map (fun region =>
    stored s (avaRegionKey vpnid) (regionRttField gameid region) *
      stored s (avaRegionKey vpnid) (regionRttCntField gameid region))).sum

def otherCount : Int :=
  ((otherRegions s gameid regionid).map (fun region =>
    stored s (avaRegionKey vpnid) (regionRttCntField gameid region))).sum

/-- A report that is published completely turns `s` into `s'`. -/
structure PublishedCompletely : Prop where
  activeid : ∃ old new,
    s.hash (activeidKey vpnid) (activeidField gameid regionid) = some old ∧
      s'.hash (activeidKey vpnid) (activeidField gameid regionid) = some new ∧
      ((old = "-1" ∧ new = "0") ∨ (old = "0" ∧ new = "1") ∨ (old = "1" ∧ new = "0"))
  buffer : ∀ new,
    s'.hash (activeidKey vpnid) (activeidField gameid regionid) = some new →
      (s'.zset (detectDataKey vpnid gameid regionid new)).entries.Perm
        (records.map (fun record => (record.member, Extended.fin record.rtt)))
  rtt : s'.hash (avaRegionKey vpnid) (regionRttField gameid regionid) =
    some (Numeral.decimal
      (floorMean (measuredRtts records).sum (measuredRtts records).length))
  rttCnt : s'.hash (avaRegionKey vpnid) (regionRttCntField gameid regionid) =
    some (Numeral.decimal (measuredRtts records).length)
  rttRegion0 : s'.hash (avaRegionKey vpnid) (regionRttField gameid "0") =
    some (Numeral.decimal (floorMean
      ((measuredRtts records).sum + otherTotal s vpnid gameid regionid)
      ((measuredRtts records).length + otherCount s vpnid gameid regionid)))

end Specification

theorem measured_detect (records : List Record) :
    measured (records.map Record.detect) = measuredRtts records := by
  simp [measured, measuredRtts, Record.detect, Function.comp_def]

theorem Record.members_nodup {records : List Record}
    (hdistinct : (records.map Record.endpoint).Nodup) :
    ((records.map Record.detect).map Detect.member).Nodup := by
  rw [List.map_map]
  have hpairs : records.Pairwise (fun a b => a.endpoint ≠ b.endpoint) :=
    List.pairwise_map.mp hdistinct
  apply List.pairwise_map.mpr
  apply hpairs.imp
  intro a b hab hmember
  exact hab (Record.endpoint_of_member hmember)

/-- The publication of well-formed records, from the store it leaves. -/
theorem Draft.publishedCompletely {report : Report} {s : Store} (d : Draft report s)
    {db : Database} (h : Sound db s) {records : List Record}
    (hdistinct : (records.map Record.endpoint).Nodup)
    (hdoubles : ∀ record ∈ records, Rounding.isDouble record.rtt = true)
    (hregions : ∀ region ∈ s.set (gameRegionKey d.gameid), region = d.regionid) :
    PublishedCompletely s (d.published (records.map Record.detect)) d.vpnid d.gameid
      d.regionid records := by
  obtain ⟨v, g, r, habout⟩ := h.about d
  have htally := tally_eq (records.map Record.detect)
  rw [measured_detect] at htally
  have haverage : (tally (records.map Record.detect)).average =
      floorMean (measuredRtts records).sum (measuredRtts records).length := by
    rw [average_eq_floorMean (by rw [htally]; exact Int.natCast_nonneg _), htally]
  have hothers : otherRegions s d.gameid d.regionid = [] := by
    apply List.filter_eq_nil_iff.mpr
    intro region hregion
    simpa using hregions region hregion
  constructor
  · obtain ⟨old, hfield, hold, hid⟩ := habout.activeid
    exact ⟨old, d.activeid, hfield, d.published_activeid _, hid.next hold⟩
  · intro new hnew
    obtain rfl := Option.some.inj (hnew.symm.trans (d.published_activeid _))
    have hscores : (records.map Record.detect).map (fun d => (d.member, d.score)) =
        records.map (fun record => (record.member, Extended.fin record.rtt)) := by
      rw [List.map_map]
      apply List.map_congr_left
      intro record hrecord
      exact congrArg (Prod.mk record.member) (of_decide_eq_true (hdoubles record hrecord))
    rw [← hscores, d.published_buffer _ (Record.members_nodup hdistinct)]
  · rw [d.published_rtt, haverage]
  · rw [d.published_rttCnt, htally]
  · rw [d.published_rttRegion0, haverage]
    simp [otherTotal, otherCount, hothers]

/-- The buffer holds the scores that were sent only where these are doubles. -/
theorem Draft.doubles_of_publishedCompletely {report : Report} {s : Store} (d : Draft report s)
    {records : List Record} (hdistinct : (records.map Record.endpoint).Nodup)
    (h : PublishedCompletely s (d.published (records.map Record.detect)) d.vpnid d.gameid
      d.regionid records) : ∀ record ∈ records, Rounding.isDouble record.rtt = true := by
  have hbuffer := h.buffer d.activeid (d.published_activeid _)
  rw [d.published_buffer _ (Record.members_nodup hdistinct), List.map_map] at hbuffer
  intro record hrecord
  have hmem := hbuffer.mem_iff.mp (List.mem_map_of_mem hrecord)
  obtain ⟨record', hrecord', heq⟩ := List.mem_map.mp hmem
  obtain ⟨hmember, hrtt⟩ := Prod.mk.inj heq
  have hsame : record' = record :=
    List.inj_on_of_nodup_map hdistinct hrecord' hrecord (Record.endpoint_of_member hmember)
  rw [hsame] at hrtt
  exact decide_eq_true hrtt.symm

/-- Every store a sequence of calls reaches, and every well-formed report for a
triple with an activeid: the report is published completely if and only if the
game has no other region and every round trip time is a double. -/
theorem publishedCompletely_iff {db : Database} {calls : List (Report × CallEnd)}
    {s : Store} (hhistory : History db calls s) {vpnid gameid : PyVal}
    {v g regionid : String} (hvpnid : vpnid.text = .ok v) (hgameid : gameid.text = .ok g)
    (hfield : (s.hash (activeidKey v) (activeidField g regionid)).isSome)
    {records : List Record} (hne : records ≠ [])
    (hdistinct : (records.map Record.endpoint).Nodup) :
    (∃ s', run redis (dealReport (regionReport vpnid gameid regionid records)) s =
        (.ok .published, s') ∧ PublishedCompletely s s' v g regionid records) ↔
      (∀ region ∈ s.set (gameRegionKey g), region = regionid) ∧
        ∀ record ∈ records, Rounding.isDouble record.rtt = true := by
  have hsound := hhistory.sound
  have hregionid : (PyVal.str regionid).text = .ok regionid := by
    obtain ⟨text, htext⟩ := Option.isSome_iff_exists.mp hfield
    obtain ⟨_, v', g', r', _, _, hids⟩ := hsound.activeid_registered _ _ _ htext
    obtain ⟨_, hr⟩ := activeidField_eq (plain_decimal g') (plain_decimal r') hids
    rw [hr]
    exact text_decimal r'
  obtain ⟨d, hdv, hdg, hdr, hds⟩ :
      ∃ d : Draft (regionReport vpnid gameid regionid records) s, d.vpnid = v ∧
        d.gameid = g ∧ d.regionid = regionid ∧ d.detectstr = detectdata records :=
    hsound.exists_draft hvpnid hgameid hregionid hfield rfl
  constructor
  · rintro ⟨s', hrun, hpublished⟩
    obtain ⟨d', detects, hcomplete, hstore⟩ := (Call.returned hrun).returned_published
    obtain rfl := Subsingleton.elim d d'
    constructor
    · intro region hregion
      rw [← hdg] at hregion
      exact (PyVal.str.inj (hcomplete.regions region hregion)).symm
    · have hread := hcomplete.detects_read
      rw [hds] at hread
      have hdetects : detects = records.map Record.detect := by
        have hmap := readDetects_detectdata hne (outOfRange_of_readDetects hread)
        exact Option.some.inj (hread.symm.trans hmap)
      apply d.doubles_of_publishedCompletely hdistinct
      rw [hdv, hdg, hdr, ← hdetects, ← hstore]
      exact hpublished
  · rintro ⟨hregions, hdoubles⟩
    have hcomplete : d.Complete (records.map Record.detect) := by
      constructor
      · rw [hds]
        exact readDetects_detectdata hne
          (fun record hrecord => outOfRange_of_isDouble (hdoubles record hrecord))
      · intro region hregion
        rw [hdg] at hregion
        rw [hregions region hregion]
        rfl
    have hpublished := d.publishedCompletely hsound hdistinct hdoubles
      (by simpa only [hdg, hdr] using hregions)
    rw [hdv, hdg, hdr] at hpublished
    exact ⟨_, hcomplete.run, hpublished⟩

theorem publishedCompletely_iff_one_region :
    ∃ s', run redis (dealReport (regionReport (.int 1) (.int 5) "1" [oneRecord 40]))
        (load (oneGame [1])) = (.ok .published, s') ∧
      PublishedCompletely (load (oneGame [1])) s' "1" "5" "1" [oneRecord 40] := by
  apply (publishedCompletely_iff (History.load : History (oneGame [1]) _ _) rfl rfl
    ?_ ?_ ?_).mpr
  · constructor
    · intro region hregion
      obtain ⟨r, hr, rfl⟩ := oneGame_regions.mp hregion
      rw [List.mem_singleton.mp hr]
      rfl
    · intro record hrecord
      rw [List.mem_singleton.mp hrecord]
      exact Rounding.isDouble_small (by decide)
  · exact Option.isSome_iff_exists.mpr ⟨"-1", oneGame_activeid (List.mem_singleton_self 1)⟩
  · exact List.cons_ne_nil _ _
  · exact List.nodup_singleton _

section OneGame

variable (regionids : List Int) (rtt : Int)

/-- A report for region 1 of the small database's game. -/
def oneReport : Report := regionReport (.int 1) (.int 5) "1" [oneRecord rtt]

theorem oneReport_draft {s : Store} (hs : Sound (oneGame regionids) s)
    (h : 1 ∈ regionids) :
    ∃ d : Draft (oneReport rtt) s, d.vpnid = "1" ∧
      d.gameid = "5" ∧ d.regionid = "1" ∧ d.detectstr = detectdata [oneRecord rtt] := by
  apply hs.exists_draft
  · rfl
  · rfl
  · exact text_decimal 1
  · exact Option.isSome_iff_exists.mpr (hs.registered_activeid 1 5 1 (oneGame_registered h))
  · rfl

variable {regionids rtt}

/-- A region besides region 1 keeps the report from being published. -/
theorem oneReport_incomplete {r : Int} (hmem : r ∈ regionids) (hr : r ≠ 1)
    (d : Draft (oneReport rtt) (load (oneGame regionids))) (detects : List Detect) :
    ¬d.Complete detects := by
  intro hcomplete
  have hgameid : d.gameid = "5" := (Except.ok.inj d.gameid_text).symm
  have hregion := hcomplete.regions (Numeral.decimal r)
    (hgameid ▸ oneGame_regions.mpr ⟨r, hmem, rfl⟩)
  have htext : Numeral.decimal 1 = Numeral.decimal r := PyVal.str.inj hregion
  exact hr (decimal_injective htext).symm

variable (rtt) (hsmall : rtt.natAbs < 2 ^ 53)
include hsmall

theorem oneReport_detects :
    (oneReport rtt).detects = some [(oneRecord rtt).detect] := by
  apply readDetects_detectdata (List.cons_ne_nil _ _)
  intro record hrecord
  rw [List.mem_singleton.mp hrecord]
  exact outOfRange_of_isDouble (Rounding.isDouble_small hsmall)

theorem oneReport_complete {s : Store} (hs : Sound (oneGame [1]) s) :
    ∃ d : Draft (oneReport rtt) s, d.Complete [(oneRecord rtt).detect] ∧
      d.vpnid = "1" ∧ d.gameid = "5" ∧ d.regionid = "1" := by
  obtain ⟨d, hv, hg, hr, hds⟩ := oneReport_draft [1] rtt hs (List.mem_singleton_self 1)
  refine ⟨d, ?_, hv, hg, hr⟩
  constructor
  · rw [hds]
    exact oneReport_detects rtt hsmall
  · intro region hregion
    rw [hg, hs.gameRegions] at hregion
    obtain ⟨r, hmem, rfl⟩ := oneGame_regions.mp hregion
    rw [List.mem_singleton.mp hmem]
    rfl

/-- The report is published from every state of the small database. -/
theorem oneReport_call {s : Store} (hs : Sound (oneGame [1]) s) :
    ∃ s' activeid, Call (oneReport rtt) s (.returned .published) s' ∧
      s'.hash (activeidKey "1") (activeidField "5" "1") = some activeid ∧
      IsBufferId activeid := by
  obtain ⟨d, hcomplete, hv, hg, hr⟩ := oneReport_complete rtt hsmall hs
  have hactive := d.published_activeid [(oneRecord rtt).detect]
  rw [hv, hg, hr] at hactive
  exact ⟨_, d.activeid, .returned hcomplete.run, hactive, d.isBufferId⟩

/-- The small database after the report. -/
theorem oneReport_history :
    ∃ s activeid, History (oneGame [1]) [(oneReport rtt, .returned .published)] s ∧
      s.hash (activeidKey "1") (activeidField "5" "1") = some activeid ∧
      IsBufferId activeid := by
  obtain ⟨s, activeid, hcall, hactive, hid⟩ := oneReport_call rtt hsmall (Sound.load (oneGame [1]))
  have hload : History (oneGame [1]) [] (load (oneGame [1])) := .load
  exact ⟨s, activeid, hload.call hcall, hactive, hid⟩

omit hsmall in
theorem oneReport_last (ends : CallEnd → Bool) (h : ends (.returned .published) = true)
    (rtt : Int) :
    lastReports ends [(oneReport rtt, .returned .published)] "1" "5" "1" =
      some (oneReport rtt) := by
  have htriple : triple (oneReport rtt) = some ("1", "5", "1") := rfl
  simp [lastReports, LastReports.record, h, htriple]

end OneGame

/-- A game with the regions 1 and 2: a well-formed report for region 1 raises
before anything is published. -/
theorem two_regions_not_published :
    ((load (oneGame [1, 2])).hash (activeidKey "1") (activeidField "5" "1")).isSome ∧
      ¬∃ s', run redis (dealReport (oneReport 40)) (load (oneGame [1, 2])) =
          (.ok .published, s') ∧
        PublishedCompletely (load (oneGame [1, 2])) s' "1" "5" "1" [oneRecord 40] := by
  constructor
  · exact Option.isSome_iff_exists.mpr ⟨"-1", oneGame_activeid List.mem_cons_self⟩
  · rintro ⟨s', hrun, _⟩
    obtain ⟨d, detects, hcomplete, _⟩ := (Call.returned hrun).returned_published
    exact oneReport_incomplete (show (2 : Int) ∈ [1, 2] by simp) (by decide) d detects
      hcomplete

end GameAcc.Writer
