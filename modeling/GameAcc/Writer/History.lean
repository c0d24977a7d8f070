import GameAcc.Writer.Loaded
import GameAcc.Writer.Publication

/-!
Sequences of calls. A call returns, raises, or is cut short because Redis
rejects the command it is about to execute; the main loop then takes the next
report in all three cases. `Sound` is what every store such a sequence reaches
has in common with the loaded one.
-/

namespace GameAcc.Writer

open GameAcc.Redis GameAcc.Mysql GameAcc.Text GameAcc.Command

/-- How a call ends. A rejected command is told apart from an exception of the
report's data, with the number of hash fields written before it. -/
inductive CallEnd where
  | returned (exit : Exit)
  | raised (e : Exn)
  | rejected (c : Cmd) (written : Nat)

/-- One call of `deal_report`, with the store it leaves. -/
inductive Call (report : Report) (s : Store) : CallEnd → Store → Prop
  | returned {exit : Exit} {s' : Store}
      (h : run redis (dealReport report) s = (.ok exit, s')) :
      Call report s (.returned exit) s'
  | raised {e : Exn} {s' : Store}
      (h : run redis (dealReport report) s = (.error e, s')) :
      Call report s (.raised e) s'
  | rejected {c : Cmd} {next : c.Reply → Dealing Exit} {s' : Store} {progress : Progress}
      (h : Steps watched (dealReport report) (s, .start) (.issue c next) (s', progress)) :
      Call report s (.rejected c progress.written) s'

/-- The stores that a sequence of calls reaches from the loaded store. -/
inductive History (db : Database) : List (Report × CallEnd) → Store → Prop
  | load : History db [] (load db)
  | call {calls : List (Report × CallEnd)} {s s' : Store} {report : Report}
      {e : CallEnd} (h : History db calls s) (hcall : Call report s e s') :
      History db (calls ++ [(report, e)]) s'

section Calls

variable {report : Report} {s s' : Store}

/-- The conditions of `dealReport_holds` at the end of a run. -/
theorem run_conditions (report : Report) (s : Store) :
    ∃ progress, match run redis (dealReport report) s with
      | (.ok exit, s') => Ended report s exit (s', progress)
      | (.error e, s') => (conditions report s).stopped e (s', progress) := by
  obtain ⟨progress, hrun⟩ := run_ghosted advance (dealReport report) s .start
  refine ⟨progress, ?_⟩
  have hpost := (dealReport_holds report s).run
  rw [hrun] at hpost
  generalize run redis (dealReport report) s = result at hpost
  obtain ⟨e | exit, s'⟩ := result
  · exact hpost
  · exact hpost

theorem Call.returned_skipped (h : Call report s (.returned .skipped) s') :
    s' = s ∧ Skips report s := by
  cases h with
  | returned h =>
    obtain ⟨progress, hpost⟩ := run_conditions report s
    rw [h] at hpost
    cases hpost with
    | skipped hskips => exact ⟨rfl, hskips⟩

theorem Call.returned_published (h : Call report s (.returned .published) s') :
    ∃ (d : Draft report s) (detects : List Detect),
      d.Complete detects ∧ s' = d.published detects := by
  cases h with
  | returned h =>
    obtain ⟨progress, hpost⟩ := run_conditions report s
    rw [h] at hpost
    cases hpost with
    | published d hcomplete =>
      exact ⟨d, _, hcomplete, rfl⟩

theorem Call.raised_store {e : Exn} (h : Call report s (.raised e) s') :
    s' = s ∨ ∃ (d : Draft report s) (z : SortedSet), s' = d.store z := by
  cases h with
  | raised h =>
    obtain ⟨progress, hpost⟩ := run_conditions report s
    rw [h] at hpost
    obtain ⟨hstopped, _⟩ := hpost
    cases hstopped with
    | untouched => exact .inl rfl
    | unfinished d z => exact .inr ⟨d, z, rfl⟩

theorem Call.rejected_pending {c : Cmd} {written : Nat}
    (h : Call report s (.rejected c written) s') :
    ∃ cleared, Pending report s c (s', ⟨cleared, written⟩) := by
  generalize he : CallEnd.rejected c written = e at h
  cases h with
  | returned _ => cases he
  | raised _ => cases he
  | @rejected c' next s' progress h =>
    obtain ⟨rfl, rfl⟩ := CallEnd.rejected.inj he
    have hholds := (dealReport_holds report s).steps h
    exact ⟨progress.cleared, (holds_issue.mp hholds).1⟩

/-- A complete draft is published when no command is rejected. -/
theorem Draft.Complete.run {d : Draft report s} {detects : List Detect}
    (h : d.Complete detects) :
    Command.run redis (dealReport report) s = (.ok .published, d.published detects) := by
  obtain ⟨progress, hpost⟩ := run_conditions report s
  generalize hresult : Command.run redis (dealReport report) s = result at hpost
  obtain ⟨e | exit, s'⟩ := result
  · exact absurd h (hpost.2.2 d detects)
  · cases hpost with
    | skipped hskips => exact absurd hskips d.not_skips
    | published d' h' =>
      obtain rfl := Subsingleton.elim d d'
      obtain rfl := Option.some.inj (h.detects_read.symm.trans h'.detects_read)
      rfl

theorem Skips.run (h : Skips report s) :
    Command.run redis (dealReport report) s = (.ok .skipped, s) := by
  obtain ⟨progress, hpost⟩ := run_conditions report s
  generalize hresult : Command.run redis (dealReport report) s = result at hpost
  obtain ⟨e | exit, s'⟩ := result
  · exact absurd h hpost.2.1
  · cases hpost with
    | skipped _ =>
      rfl
    | published d _ => exact absurd h d.not_skips

/-- A report that is neither skipped nor published raises. -/
theorem exists_raised (hskips : ¬Skips report s)
    (hcomplete : ∀ (d : Draft report s) (detects : List Detect), ¬d.Complete detects) :
    ∃ e s', Call report s (.raised e) s' := by
  obtain ⟨progress, hpost⟩ := run_conditions report s
  generalize hresult : Command.run redis (dealReport report) s = result at hpost
  obtain ⟨e | exit, s'⟩ := result
  · exact ⟨e, s', .raised hresult⟩
  · cases hpost with
    | skipped h => exact absurd h hskips
    | published d h => exact absurd h (hcomplete d _)

end Calls

/-- The texts an activeid field can hold. -/
def IsActiveid (text : String) : Prop := text = "-1" ∨ IsBufferId text

/-- What all stores reached from the loaded one have in common. -/
structure Sound (db : Database) (s : Store) : Prop where
  activeGameids : s.set ACTIVE_GAMEID_SET = (load db).set ACTIVE_GAMEID_SET
  gameRegions : ∀ g, s.set (gameRegionKey g) = (load db).set (gameRegionKey g)
  vpnIps : s.hash VPN_ACTIVE_IP_TO_ID_DIC = (load db).hash VPN_ACTIVE_IP_TO_ID_DIC
  iplst : ∀ g, s.hash (gameIplstKey g) = (load db).hash (gameIplstKey g)
  iplstActiveid : ∀ g,
    s.hash (gameIplstActiveidKey g) = (load db).hash (gameIplstActiveidKey g)
  activeid_registered : ∀ vpnid field text,
    s.hash (activeidKey vpnid) field = some text →
      IsActiveid text ∧ ∃ v g r, db.Registered v g r ∧ vpnid = Numeral.decimal v ∧
        field = activeidField (Numeral.decimal g) (Numeral.decimal r)
  registered_activeid : ∀ v g r, db.Registered v g r →
    ∃ text, s.hash (activeidKey (Numeral.decimal v))
      (activeidField (Numeral.decimal g) (Numeral.decimal r)) = some text
  average : ∀ v g r field, db.Registered v g r → AverageField g r field →
    ∃ n : Int, s.hash (avaRegionKey (Numeral.decimal v)) field = some (Numeral.decimal n)
  average_registered : ∀ vpnid field text, s.hash (avaRegionKey vpnid) field = some text →
    ∃ v g r, db.Registered v g r ∧ vpnid = Numeral.decimal v ∧ AverageField g r field

namespace Sound

variable {db : Database} {s : Store}

theorem load (db : Database) : Sound db (Writer.load db) where
  activeGameids := rfl
  gameRegions := fun _ => rfl
  vpnIps := rfl
  iplst := fun _ => rfl
  iplstActiveid := fun _ => rfl
  activeid_registered := by
    intro vpnid field text h
    obtain ⟨rfl, hreg⟩ := (load_activeid db).mp h
    exact ⟨.inl rfl, hreg⟩
  registered_activeid := by
    intro v g r hreg
    exact ⟨"-1", (load_activeid db).mpr ⟨rfl, v, g, r, hreg, rfl, rfl⟩⟩
  average := by
    intro v g r field hreg hfield
    exact ⟨0, (load_average db).mpr ⟨rfl, v, g, r, hreg, rfl, hfield⟩⟩
  average_registered := by
    intro vpnid field text h
    exact ((load_average db).mp h).2

/-- Deleting and filling a buffer. -/
theorem buffer (h : Sound db s) {vpnid gameid regionid activeid : String}
    (hid : IsBufferId activeid) (z : SortedSet) :
    Sound db ((s.delete (detectDataKey vpnid gameid regionid activeid)).setZset
      (detectDataKey vpnid gameid regionid activeid) z) := by
  generalize hkey : detectDataKey vpnid gameid regionid activeid = key
  have hhash : ∀ k, k ≠ key → ((s.delete key).setZset key z).hash k = s.hash k := by
    intro k hk
    simp [Store.delete, hk]
  have hset : ∀ k, k ≠ key → ((s.delete key).setZset key z).set k = s.set k := by
    intro k hk
    simp [Store.delete, hk]
  subst hkey
  constructor
  · rw [hset _ (activeGameidSet_ne_detectDataKey hid), h.activeGameids]
  · intro g
    rw [hset _ (gameRegionKey_ne_detectDataKey hid g), h.gameRegions]
  · rw [hhash _ (vpnActiveIp_ne_detectDataKey hid), h.vpnIps]
  · intro g
    rw [hhash _ (gameIplstKey_ne_detectDataKey hid g), h.iplst]
  · intro g
    rw [hhash _ (gameIplstActiveidKey_ne_detectDataKey hid g), h.iplstActiveid]
  · intro v field text htext
    rw [hhash _ (activeidKey_ne_detectDataKey hid v)] at htext
    exact h.activeid_registered v field text htext
  · intro v g r hreg
    rw [hhash _ (activeidKey_ne_detectDataKey hid _)]
    exact h.registered_activeid v g r hreg
  · intro v g r field hreg hfield
    rw [hhash _ (avaRegionKey_ne_detectDataKey hid _)]
    exact h.average v g r field hreg hfield
  · intro v field text htext
    rw [hhash _ (avaRegionKey_ne_detectDataKey hid v)] at htext
    exact h.average_registered v field text htext

/-- Writing an average or a count of a registered triple. -/
theorem setAverage (h : Sound db s) {v g r : Int} (hreg : db.Registered v g r) {f : String}
    (hf : AverageField g r f) (n : Int) :
    Sound db (s.setHash (avaRegionKey (Numeral.decimal v)) f (Numeral.decimal n)) := by
  have hhash : ∀ k, k ≠ avaRegionKey (Numeral.decimal v) →
      (s.setHash (avaRegionKey (Numeral.decimal v)) f (Numeral.decimal n)).hash k =
        s.hash k := by
    intro k hk
    funext field
    exact s.setHash_key_ne _ _ _ field hk
  constructor
  · exact h.activeGameids
  · exact h.gameRegions
  · rw [hhash _ (vpnActiveIp_ne_avaRegionKey _), h.vpnIps]
  · intro g
    rw [hhash _ (gameIplstKey_ne_avaRegionKey g _), h.iplst]
  · intro g
    rw [hhash _ (gameIplstActiveidKey_ne_avaRegionKey g _), h.iplstActiveid]
  · intro vpnid field text htext
    rw [hhash _ (avaRegionKey_ne_activeidKey _ vpnid).symm] at htext
    exact h.activeid_registered vpnid field text htext
  · intro v' g' r' hreg'
    rw [hhash _ (avaRegionKey_ne_activeidKey _ _).symm]
    exact h.registered_activeid v' g' r' hreg'
  · intro v' g' r' field hreg' hfield'
    by_cases hwritten : avaRegionKey (Numeral.decimal v') = avaRegionKey (Numeral.decimal v) ∧
        field = f
    · obtain ⟨hkey, rfl⟩ := hwritten
      rw [hkey]
      exact ⟨n, s.setHash_self _ _ _⟩
    · obtain ⟨m, hm⟩ := h.average v' g' r' field hreg' hfield'
      refine ⟨m, ?_⟩
      simpa [Store.setHash, hwritten] using hm
  · intro vpnid field text htext
    by_cases hwritten : avaRegionKey vpnid = avaRegionKey (Numeral.decimal v) ∧ field = f
    · obtain ⟨hkey, rfl⟩ := hwritten
      exact ⟨v, g, r, hreg, avaRegionKey_injective hkey, hf⟩
    · apply h.average_registered vpnid field text
      simpa [Store.setHash, hwritten] using htext

/-- Writing the activeid of a registered triple. -/
theorem setActiveid (h : Sound db s) {v g r : Int} (hreg : db.Registered v g r)
    {text : String} (hid : IsBufferId text) :
    Sound db (s.setHash (activeidKey (Numeral.decimal v))
      (activeidField (Numeral.decimal g) (Numeral.decimal r)) text) := by
  generalize hfield : activeidField (Numeral.decimal g) (Numeral.decimal r) = f
  have hhash : ∀ k, k ≠ activeidKey (Numeral.decimal v) →
      (s.setHash (activeidKey (Numeral.decimal v)) f text).hash k = s.hash k := by
    intro k hk
    funext field
    exact s.setHash_key_ne _ _ _ field hk
  constructor
  · exact h.activeGameids
  · exact h.gameRegions
  · rw [hhash _ (vpnActiveIp_ne_activeidKey _), h.vpnIps]
  · intro g
    rw [hhash _ (gameIplstKey_ne_activeidKey g _), h.iplst]
  · intro g
    rw [hhash _ (gameIplstActiveidKey_ne_activeidKey g _), h.iplstActiveid]
  · intro vpnid field t ht
    by_cases hwritten : activeidKey vpnid = activeidKey (Numeral.decimal v) ∧ field = f
    · obtain ⟨hkey, rfl⟩ := hwritten
      rw [hkey, s.setHash_self] at ht
      obtain rfl := Option.some.inj ht
      exact ⟨.inr hid, v, g, r, hreg, activeidKey_injective hkey, hfield.symm⟩
    · apply h.activeid_registered vpnid field t
      simpa [Store.setHash, hwritten] using ht
  · intro v' g' r' hreg'
    by_cases hwritten : activeidKey (Numeral.decimal v') = activeidKey (Numeral.decimal v) ∧
        activeidField (Numeral.decimal g') (Numeral.decimal r') = f
    · obtain ⟨hkey, hfield'⟩ := hwritten
      rw [hkey, hfield']
      exact ⟨text, s.setHash_self _ _ _⟩
    · obtain ⟨t, ht⟩ := h.registered_activeid v' g' r' hreg'
      refine ⟨t, ?_⟩
      simpa [Store.setHash, hwritten] using ht
  · intro v' g' r' field hreg' hfield'
    rw [hhash _ (avaRegionKey_ne_activeidKey _ _)]
    exact h.average v' g' r' field hreg' hfield'
  · intro vpnid field text htext
    rw [hhash _ (avaRegionKey_ne_activeidKey vpnid _)] at htext
    exact h.average_registered vpnid field text htext

end Sound

/-- In a sound store a draft is about a registered triple. -/
structure Draft.About {report : Report} {s : Store} (d : Draft report s)
    (db : Database) (v g r : Int) : Prop where
  registered : db.Registered v g r
  vpnid : d.vpnid = Numeral.decimal v
  gameid : d.gameid = Numeral.decimal g
  regionid : d.regionid = Numeral.decimal r
  activeid : ∃ text, s.hash (activeidKey d.vpnid) (activeidField d.gameid d.regionid) =
    some text ∧ int text = .ok d.old ∧ IsActiveid text

section Draft

variable {db : Database} {report : Report} {s : Store}

theorem Sound.about (h : Sound db s) (d : Draft report s) :
    ∃ v g r, d.About db v g r := by
  obtain ⟨text, htext, hold, _⟩ := d.activeid_text
  obtain ⟨hid, v, g, r, hreg, hv, hfield⟩ := h.activeid_registered _ _ _ htext
  obtain ⟨hg, hr⟩ := activeidField_eq (plain_decimal g) (plain_decimal r) hfield
  exact ⟨v, g, r, hreg, hv, hg, hr, text, htext, hold, hid⟩

theorem Sound.store (h : Sound db s) (d : Draft report s) (z : SortedSet) :
    Sound db (d.store z) :=
  h.buffer d.isBufferId z

theorem Sound.averaged (h : Sound db s) (d : Draft report s) (detects : List Detect) :
    Sound db (d.withRtt detects) ∧ Sound db (d.withRttCnt detects) ∧
      Sound db (d.averaged detects) := by
  obtain ⟨v, g, r, habout⟩ := h.about d
  have hrtt : Sound db (d.withRtt detects) := by
    unfold Draft.withRtt
    rw [habout.vpnid, habout.gameid, habout.regionid]
    exact (h.store d _).setAverage habout.registered .rtt _
  have hcnt : Sound db (d.withRttCnt detects) := by
    unfold Draft.withRttCnt
    rw [habout.vpnid, habout.gameid, habout.regionid]
    exact hrtt.setAverage habout.registered .rttCnt _
  refine ⟨hrtt, hcnt, ?_⟩
  unfold Draft.averaged
  rw [habout.vpnid, habout.gameid]
  exact hcnt.setAverage habout.registered .rttRegion0 _

theorem Sound.published (h : Sound db s) (d : Draft report s) (detects : List Detect) :
    Sound db (d.published detects) := by
  obtain ⟨v, g, r, habout⟩ := h.about d
  have haveraged := (h.averaged d detects).2.2
  unfold Draft.published
  rw [habout.vpnid, habout.gameid, habout.regionid]
  exact haveraged.setActiveid habout.registered d.isBufferId

/-- Soundness at every command a call is about to issue. -/
theorem Sound.pending (h : Sound db s) {c : Cmd} {at_ : Watch}
    (hpending : Pending report s c at_) : Sound db at_.1 := by
  cases hpending with
  | lookup _ => exact h
  | clear _ => exact h
  | fill d score member z => exact h.store d z
  | survey d _ z => exact h.store d z
  | rtt d _ => exact h.store d _
  | rttCnt d _ => exact (h.averaged d _).1
  | rttRegion0 d _ => exact (h.averaged d _).2.1
  | activeid d _ => exact (h.averaged d _).2.2

theorem Sound.call (h : Sound db s) {e : CallEnd} {s' : Store}
    (hcall : Call report s e s') : Sound db s' := by
  cases e with
  | returned exit =>
    cases exit with
    | skipped =>
      rw [hcall.returned_skipped.1]
      exact h
    | published =>
      obtain ⟨d, detects, _, rfl⟩ := hcall.returned_published
      exact h.published d detects
  | raised e =>
    rcases hcall.raised_store with rfl | ⟨d, z, rfl⟩
    · exact h
    · exact h.store d z
  | rejected c written =>
    obtain ⟨cleared, hpending⟩ := hcall.rejected_pending
    exact h.pending hpending

theorem History.sound {calls : List (Report × CallEnd)} (h : History db calls s) :
    Sound db s := by
  induction h with
  | load => exact Sound.load db
  | call _ hcall ih => exact ih.call hcall

end Draft

end GameAcc.Writer
