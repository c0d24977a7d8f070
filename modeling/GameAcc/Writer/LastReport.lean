import GameAcc.Writer.History

/-!
The last report of each triple. A triple is known by the texts of its three ids;
a report is published by a call that runs to its end.
-/

namespace GameAcc.Writer

open GameAcc.Redis GameAcc.Command

/-- The texts of a report's three ids. -/
def triple (report : Report) : Option (String × String × String) :=
  match report.vpnid.text, report.gameid.text, report.regionid.text with
  | .ok vpnid, .ok gameid, .ok regionid => some (vpnid, gameid, regionid)
  | _, _, _ => none

theorem triple_eq_some {report : Report} {vpnid gameid regionid : String}
    (h : triple report = some (vpnid, gameid, regionid)) :
    report.vpnid.text = .ok vpnid ∧ report.gameid.text = .ok gameid ∧
      report.regionid.text = .ok regionid := by
  unfold triple at h
  split at h
  · next hvpnid hgameid hregionid =>
    simp only [Option.some.injEq, Prod.mk.injEq] at h
    obtain ⟨rfl, rfl, rfl⟩ := h
    exact ⟨hvpnid, hgameid, hregionid⟩
  · cases h

abbrev LastReports : Type := String → String → String → Option Report

/-- The report becomes the last one of its triple. -/
def LastReports.record (last : LastReports) (report : Report) : LastReports :=
  fun vpnid gameid regionid =>
    if triple report = some (vpnid, gameid, regionid) then some report
    else last vpnid gameid regionid

/-- The last reports whose calls ended in one of these ways. -/
def lastReports (ends : CallEnd → Bool) (calls : List (Report × CallEnd)) : LastReports :=
  calls.foldl (fun last call => if ends call.2 then last.record call.1 else last)
    (fun _ _ _ => none)

theorem lastReports_snoc (ends : CallEnd → Bool) (calls : List (Report × CallEnd))
    (report : Report) (e : CallEnd) :
    lastReports ends (calls ++ [(report, e)]) =
      if ends e then (lastReports ends calls).record report
      else lastReports ends calls := by
  simp [lastReports, List.foldl_append]

def CallEnd.publishes : CallEnd → Bool
  | .returned .published => true
  | _ => false

/-- The call has written the average of its region. -/
def CallEnd.averages : CallEnd → Bool
  | .returned .published => true
  | .rejected _ written => decide (0 < written)
  | _ => false

abbrev lastPublished : List (Report × CallEnd) → LastReports :=
  lastReports CallEnd.publishes

abbrev lastAveraged : List (Report × CallEnd) → LastReports :=
  lastReports CallEnd.averages

/-- The records of a report, when all of them are well-formed. -/
def Report.detects (report : Report) : Option (List Detect) :=
  match report.detectdata with
  | .str detectstr => readDetects detectstr
  | _ => none

section Draft

variable {report : Report} {s : Store}

theorem draft_triple (d : Draft report s) :
    triple report = some (d.vpnid, d.gameid, d.regionid) := by
  simp only [triple, d.vpnid_text, d.gameid_text, d.regionid_text]

theorem Draft.Complete.detects_eq {d : Draft report s} {detects : List Detect}
    (h : d.Complete detects) : report.detects = some detects := by
  have hread : readDetects d.detectstr = some detects := h.detects_read
  simp only [Report.detects, d.detectdata, hread]

/-- A report that was recorded for a triple of texts, and its records. -/
theorem LastReports.record_eq_some {last : LastReports} {vpnid gameid regionid : String}
    {result : Report} (h : last.record report vpnid gameid regionid = some result) :
    (triple report = some (vpnid, gameid, regionid) ∧ result = report) ∨
      (triple report ≠ some (vpnid, gameid, regionid) ∧
        last vpnid gameid regionid = some result) := by
  unfold LastReports.record at h
  split at h
  · next htriple => exact .inl ⟨htriple, (Option.some.inj h).symm⟩
  · next htriple => exact .inr ⟨htriple, h⟩

end Draft

end GameAcc.Writer
