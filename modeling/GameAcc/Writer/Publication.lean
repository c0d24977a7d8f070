import GameAcc.Writer.DealReport

/-!
What `deal_report` does to the store, at every command it is about to issue and
however it ends. The whole behaviour is one statement, `dealReport_holds`: until
the records have all been read and all regions surveyed, nothing but the buffer
that is not in use differs from the store the call found; then three averages
are written, and last the activeid.
-/

namespace GameAcc.Writer

open GameAcc.Redis GameAcc.Text GameAcc.Command

/-- One record, read. -/
structure Detect where
  member : String
  score : Score
  rtt : Int

/-- A record that passes both conversions: the score of `ZADD` and `int`. -/
def readDetect (detectdata : String) : Option Detect :=
  match split '/' detectdata with
  | ip :: port :: mask :: rtt :: _ =>
    match readScore rtt, int rtt with
    | some score, .ok n => some ⟨ip ++ ":" ++ port ++ "/" ++ mask, score, n⟩
    | _, _ => none
  | _ => none

def readDetects (detectstr : String) : Option (List Detect) :=
  (split ',' detectstr).mapM readDetect

/-- The buffer the records fill. -/
def contents (detects : List Detect) : SortedSet :=
  detects.foldl (fun z d => z.add d.member d.score) .empty

def Tally.add (t : Tally) (rtt : Int) : Tally :=
  if rtt ≠ AVA_INF then ⟨t.counter + 1, t.total + rtt⟩ else t

def tally (detects : List Detect) : Tally :=
  detects.foldl (fun t d => t.add d.rtt) Tally.zero

theorem isBufferId_nextActiveid (old : Int) :
    IsBufferId (Numeral.decimal (nextActiveid old)) := by
  unfold nextActiveid IsBufferId
  split
  · exact .inl rfl
  · split
    · exact .inr rfl
    · exact .inl rfl

theorem format_of_free {fmt : String} (h : Free '%' fmt) : format fmt = .ok () := by
  have hscan : ∀ cs : List Char, '%' ∉ cs →
      cs.foldlM Conversion.next .outside = some .outside := by
    intro cs hcs
    induction cs with
    | nil => rfl
    | cons c rest ih =>
      have hc : c ≠ '%' := fun h => hcs (h ▸ List.mem_cons_self)
      have hrest := ih (fun h => hcs (List.mem_cons_of_mem c h))
      simp [List.foldlM_cons, Conversion.next, hc, hrest]
  rw [format, hscan fmt.toList h]

/-- A ghost of a call: whether it has deleted its buffer, and how many hash
fields it has written. -/
structure Progress where
  cleared : Bool
  written : Nat

def Progress.start : Progress := ⟨false, 0⟩

def advance : Cmd → Progress → Progress
  | .del _, progress => { progress with cleared := true }
  | .hset _ _ _, progress => { progress with written := progress.written + 1 }
  | _, progress => progress

abbrev redis : Server Cmd Cmd.Reply Exn Store := serve Exn.responseError

abbrev Watch : Type := Store × Progress

abbrev watched : Server Cmd Cmd.Reply Exn Watch := ghosted redis advance

/-- What a call has found out when it is about to delete its buffer. -/
structure Draft (report : Report) (s : Store) where
  vpnid : String
  gameid : String
  regionid : String
  old : Int
  detectstr : String
  vpnid_text : report.vpnid.text = .ok vpnid
  gameid_text : report.gameid.text = .ok gameid
  regionid_text : report.regionid.text = .ok regionid
  activeid_text : ∃ text,
    s.hash (activeidKey vpnid) (activeidField gameid regionid) = some text ∧
      int text = .ok old ∧ format ("get activeid=" ++ text) = .ok ()
  detectdata : report.detectdata = .str detectstr
  logged : format ("deal request for vpn " ++ vpnid ++ ",game " ++ gameid ++
    ",region " ++ regionid) = .ok ()
  key_logged : format ("detect_data_key=" ++ detectDataKey vpnid gameid regionid
    (Numeral.decimal (nextActiveid old))) = .ok ()

namespace Draft

variable {report : Report} {s : Store} (d : Draft report s)

def activeid : String := Numeral.decimal (nextActiveid d.old)

def key : String := detectDataKey d.vpnid d.gameid d.regionid d.activeid

/-- Everything is as the call found it, except that the buffer holds `z`. -/
def store (z : SortedSet) : Store := (s.delete d.key).setZset d.key z

/-- All records are well-formed, and the game has no region besides the
reported one: the call runs to its end. -/
structure Complete (detects : List Detect) : Prop where
  detects_read : readDetects d.detectstr = some detects
  regions : ∀ region ∈ s.set (gameRegionKey d.gameid), report.regionid = .str region

variable (detects : List Detect)

def withRtt : Store :=
  (d.store (contents detects)).setHash (avaRegionKey d.vpnid)
    (regionRttField d.gameid d.regionid) (Numeral.decimal (tally detects).average)

def withRttCnt : Store :=
  (d.withRtt detects).setHash (avaRegionKey d.vpnid)
    (regionRttCntField d.gameid d.regionid) (Numeral.decimal (tally detects).counter)

def averaged : Store :=
  (d.withRttCnt detects).setHash (avaRegionKey d.vpnid)
    (regionRttField d.gameid "0") (Numeral.decimal (tally detects).average)

def published : Store :=
  (d.averaged detects).setHash (activeidKey d.vpnid)
    (activeidField d.gameid d.regionid) d.activeid

theorem isBufferId : IsBufferId d.activeid := isBufferId_nextActiveid d.old

instance : Subsingleton (Draft report s) where
  allEq a b := by
    obtain ⟨v, g, r, old, ds, hv, hg, hr, ⟨t, ht, hold, _⟩, hds, _, _⟩ := a
    obtain ⟨v', g', r', old', ds', hv', hg', hr', ⟨t', ht', hold', _⟩, hds', _, _⟩ := b
    obtain rfl := Except.ok.inj (hv.symm.trans hv')
    obtain rfl := Except.ok.inj (hg.symm.trans hg')
    obtain rfl := Except.ok.inj (hr.symm.trans hr')
    obtain rfl := Option.some.inj (ht.symm.trans ht')
    obtain rfl := Except.ok.inj (hold.symm.trans hold')
    obtain rfl := PyVal.str.inj (hds.symm.trans hds')
    rfl

end Draft

/-- The report is about no triple that has an activeid: the call returns at once. -/
structure Skips (report : Report) (s : Store) : Prop where
  absent : ∃ vpnid gameid regionid, report.vpnid.text = .ok vpnid ∧
    report.gameid.text = .ok gameid ∧ report.regionid.text = .ok regionid ∧
    format ("deal request for vpn " ++ vpnid ++ ",game " ++ gameid ++
      ",region " ++ regionid) = .ok () ∧
    s.hash (activeidKey vpnid) (activeidField gameid regionid) = none

theorem Draft.not_skips {report : Report} {s : Store} (d : Draft report s) :
    ¬Skips report s := by
  rintro ⟨vpnid, gameid, regionid, hvpnid, hgameid, hregionid, _, habsent⟩
  obtain ⟨text, htext, _⟩ := d.activeid_text
  rw [Except.ok.inj (d.vpnid_text.symm.trans hvpnid),
    Except.ok.inj (d.gameid_text.symm.trans hgameid),
    Except.ok.inj (d.regionid_text.symm.trans hregionid), habsent] at htext
  cases htext

/-- The command a call is about to issue, and the store at that moment. -/
inductive Pending (report : Report) (s : Store) : Cmd → Watch → Prop
  | lookup {c : Cmd} (h : c.Reads) : Pending report s c (s, .start)
  | clear (d : Draft report s) : Pending report s (.del d.key) (s, .start)
  | fill (d : Draft report s) (score member : String) (z : SortedSet) :
      Pending report s (.zadd d.key score member) (d.store z, ⟨true, 0⟩)
  | survey (d : Draft report s) {c : Cmd} (h : c.Reads) (z : SortedSet) :
      Pending report s c (d.store z, ⟨true, 0⟩)
  | rtt (d : Draft report s) {detects : List Detect} (h : d.Complete detects) :
      Pending report s
        (.hset (avaRegionKey d.vpnid) (regionRttField d.gameid d.regionid)
          (Numeral.decimal (tally detects).average))
        (d.store (contents detects), ⟨true, 0⟩)
  | rttCnt (d : Draft report s) {detects : List Detect} (h : d.Complete detects) :
      Pending report s
        (.hset (avaRegionKey d.vpnid) (regionRttCntField d.gameid d.regionid)
          (Numeral.decimal (tally detects).counter))
        (d.withRtt detects, ⟨true, 1⟩)
  | rttRegion0 (d : Draft report s) {detects : List Detect} (h : d.Complete detects) :
      Pending report s
        (.hset (avaRegionKey d.vpnid) (regionRttField d.gameid "0")
          (Numeral.decimal (tally detects).average))
        (d.withRttCnt detects, ⟨true, 2⟩)
  | activeid (d : Draft report s) {detects : List Detect} (h : d.Complete detects) :
      Pending report s
        (.hset (activeidKey d.vpnid) (activeidField d.gameid d.regionid) d.activeid)
        (d.averaged detects, ⟨true, 3⟩)

/-- A call that raises leaves the store as it was, or an unfinished buffer. -/
inductive Stopped (report : Report) (s : Store) : Watch → Prop
  | untouched : Stopped report s (s, .start)
  | unfinished (d : Draft report s) (z : SortedSet) : Stopped report s (d.store z, ⟨true, 0⟩)

inductive Ended (report : Report) (s : Store) : Exit → Watch → Prop
  | skipped (h : Skips report s) : Ended report s .skipped (s, .start)
  | published (d : Draft report s) {detects : List Detect} (h : d.Complete detects) :
      Ended report s .published (d.published detects, ⟨true, 4⟩)

def conditions (report : Report) (s : Store) :
    Conditions Cmd Exn Exit Watch where
  pending := Pending report s
  stopped := fun _ at_ => Stopped report s at_ ∧ ¬Skips report s ∧
    ∀ (d : Draft report s) (detects : List Detect), ¬d.Complete detects
  ended := Ended report s

section Loops

variable {report : Report} {s : Store} (d : Draft report s)

theorem Draft.zadd_store {score member : String} {x : Score} (z : SortedSet)
    (hscore : readScore score = some x) :
    watched (.zadd d.key score member) (d.store z, ⟨true, 0⟩) =
      .ok ((), (d.store (z.add member x), ⟨true, 0⟩)) := by
  have hserve := serve_zadd_some Exn.responseError (d.store z) d.key member hscore
  have hstore : (d.store z).setZset d.key (((d.store z).zset d.key).add member x) =
      d.store (z.add member x) := by
    simp only [Draft.store, Store.setZset_self, Store.setZset_setZset]
  rw [hstore] at hserve
  simp only [ghosted, hserve, advance]

theorem Draft.zadd_refused {score member : String} (z : SortedSet)
    (hscore : readScore score = none) :
    watched (.zadd d.key score member) (d.store z, ⟨true, 0⟩) =
      .error (Exn.responseError "ERR value is not a valid float") := by
  have hserve := serve_zadd_none Exn.responseError (d.store z) d.key member hscore
  simp only [ghosted, hserve]

/-- One pass over a record: it is refused, or it adds its member. -/
theorem addDetectdata_holds (z : SortedSet) (t : Tally) (detectdata : String)
    {Φ : Conditions Cmd Exn Tally Watch}
    (hpending : ∀ score member,
      Φ.pending (.zadd d.key score member) (d.store z, ⟨true, 0⟩))
    (hstopped : readDetect detectdata = none →
      ∀ e z, Φ.stopped e (d.store z, ⟨true, 0⟩))
    (hended : ∀ x, readDetect detectdata = some x →
      Φ.ended (t.add x.rtt) (d.store (z.add x.member x.score), ⟨true, 0⟩)) :
    Holds watched Φ (addDetectdata d.key t detectdata) (d.store z, ⟨true, 0⟩) := by
  unfold addDetectdata
  unfold readDetect at hstopped hended
  generalize split '/' detectdata = datalst at *
  rcases datalst with _ | ⟨ip, _ | ⟨port, _ | ⟨mask, _ | ⟨rtt, rest⟩⟩⟩⟩
  · exact hstopped rfl _ z
  · exact hstopped rfl _ z
  · exact hstopped rfl _ z
  · exact hstopped rfl _ z
  · refine holds_issue.mpr ⟨hpending _ _, ?_⟩
    cases hscore : readScore rtt with
    | none =>
      rw [d.zadd_refused z hscore]
      exact hstopped (by simp only [hscore]) _ z
    | some x =>
      rw [d.zadd_store z hscore]
      cases hint : int rtt with
      | error e => exact hstopped (by simp only [hscore, hint]) _ _
      | ok n =>
        have hnext := hended ⟨ip ++ ":" ++ port ++ "/" ++ mask, x, n⟩
          (by simp only [hscore, hint])
        by_cases hn : n = AVA_INF
        · simpa [Program.bind, attempt, Tally.add, hn] using hnext
        · simpa [Program.bind, attempt, Tally.add, hn] using hnext

/-- The loop over the records, from the buffer just deleted. -/
theorem fill_holds (detectlst : List String)
    {Φ : Conditions Cmd Exn Tally Watch}
    (hpending : ∀ z score member,
      Φ.pending (.zadd d.key score member) (d.store z, ⟨true, 0⟩))
    (hstopped : detectlst.mapM readDetect = none → ∀ e z, Φ.stopped e (d.store z, ⟨true, 0⟩))
    (hended : ∀ detects, detectlst.mapM readDetect = some detects →
      Φ.ended (tally detects) (d.store (contents detects), ⟨true, 0⟩)) :
    Holds watched Φ (detectlst.foldlM (addDetectdata d.key) Tally.zero)
      (d.store .empty, ⟨true, 0⟩) := by
  -- The records read so far are in the accumulator and in the buffer.
  let Inv (rest : List String) (t : Tally) (at_ : Watch) : Prop :=
    ∃ detects, t = tally detects ∧ at_ = (d.store (contents detects), ⟨true, 0⟩) ∧
      detectlst.mapM readDetect = (rest.mapM readDetect).map (detects ++ ·)
  apply Holds.foldlM Inv
  · exact ⟨[], rfl, rfl, by simp⟩
  · rintro detectdata rest _ _ ⟨detects, rfl, rfl, hread⟩
    rw [List.mapM_cons] at hread
    apply addDetectdata_holds
    · exact hpending _
    · intro hnone
      apply hstopped
      simp [hread, hnone]
    · intro x hx
      refine ⟨detects ++ [x], ?_, ?_, ?_⟩
      · simp [tally]
      · simp [contents]
      · rw [hread, hx]
        cases rest.mapM readDetect <;> simp
  · rintro _ _ ⟨detects, rfl, rfl, hread⟩
    apply hended
    simpa using hread

/-- The loop over the regions: the first region that is not the reported one
ends the call, so a loop that ends has counted nothing. -/
theorem survey_holds (z : SortedSet) (regionlst : List String)
    {Φ : Conditions Cmd Exn Tally Watch}
    (hpending : ∀ c : Cmd, c.Reads → Φ.pending c (d.store z, ⟨true, 0⟩))
    (hstopped : (¬∀ region ∈ regionlst, report.regionid = .str region) →
      ∀ e, Φ.stopped e (d.store z, ⟨true, 0⟩))
    (hended : (∀ region ∈ regionlst, report.regionid = .str region) →
      Φ.ended Tally.zero (d.store z, ⟨true, 0⟩)) :
    Holds watched Φ
      (regionlst.foldlM (addRegion d.vpnid d.gameid report.regionid) Tally.zero)
      (d.store z, ⟨true, 0⟩) := by
  let Inv (rest : List String) (t : Tally) (at_ : Watch) : Prop :=
    t = Tally.zero ∧ at_ = (d.store z, ⟨true, 0⟩) ∧ (∀ region ∈ rest, region ∈ regionlst) ∧
      ((∀ region ∈ rest, report.regionid = .str region) →
        ∀ region ∈ regionlst, report.regionid = .str region)
  apply Holds.foldlM Inv
  · exact ⟨rfl, rfl, fun _ h => h, fun h => h⟩
  · rintro region rest _ _ ⟨rfl, rfl, hsub, hall⟩
    unfold addRegion
    by_cases hregion : report.regionid = .str region
    · rw [if_pos hregion]
      refine ⟨rfl, rfl, fun r hr => hsub r (List.mem_cons_of_mem region hr), ?_⟩
      intro hrest
      apply hall
      intro r hr
      rcases List.mem_cons.mp hr with rfl | hr
      · exact hregion
      · exact hrest r hr
    · rw [if_neg hregion]
      refine Holds.command (hpending _ (.hexists _ _)) rfl ?_
      apply hstopped
      intro h
      exact hregion (h region (hsub region List.mem_cons_self))
  · rintro _ _ ⟨rfl, rfl, _, hall⟩
    exact hended (hall (fun _ h => nomatch h))

theorem Draft.smembers_store (z : SortedSet) (gameid : String) :
    watched (.smembers (gameRegionKey gameid)) (d.store z, ⟨true, 0⟩) =
      .ok (s.set (gameRegionKey gameid), (d.store z, ⟨true, 0⟩)) := by
  have hne : gameRegionKey gameid ≠ d.key :=
    gameRegionKey_ne_detectDataKey d.isBufferId gameid
  have hset : (d.store z).set (gameRegionKey gameid) = s.set (gameRegionKey gameid) := by
    simp [Draft.store, Store.delete, hne]
  simp only [ghosted, serve_smembers, hset, advance]

/-- The part of the call that works on a deleted buffer. -/
theorem refill_holds :
    Holds watched (conditions report s)
      (refill d.vpnid d.gameid d.regionid report.regionid d.key
        (split ',' d.detectstr) (nextActiveid d.old)) (d.store .empty, ⟨true, 0⟩) := by
  have hunique : ∀ d' : Draft report s, d' = d := fun d' => Subsingleton.elim d' d
  unfold refill
  apply Holds.bind
  apply fill_holds d
  · intro z score member
    exact .fill d score member z
  · intro hnone e z
    refine ⟨.unfinished d z, d.not_skips, ?_⟩
    rintro d' detects ⟨hread, _⟩
    rw [hunique d', readDetects, hnone] at hread
    cases hread
  intro detects hread
  have hlog : format ("average report ava=" ++ Numeral.decimal (tally detects).average) =
      .ok () :=
    format_of_free (free_append (by decide) (free_decimal _ (by decide) (by decide)))
  simp only [loginfo, hlog, attempt, Program.done_bind]
  refine Holds.command (.survey d (.smembers _) _) (d.smembers_store _ _) ?_
  apply Holds.bind
  apply survey_holds d
  · intro c hc
    exact .survey d hc _
  · intro hregions e
    refine ⟨.unfinished d _, d.not_skips, ?_⟩
    rintro d' detects' ⟨_, h⟩
    rw [hunique d'] at h
    exact hregions h
  intro hregions
  have hcomplete : d.Complete detects := ⟨hread, hregions⟩
  have htally : (⟨Tally.zero.counter + (tally detects).counter,
      Tally.zero.total + (tally detects).total⟩ : Tally) = tally detects := by
    simp [Tally.zero]
  dsimp only
  rw [htally]
  apply Holds.bind
  refine Holds.command (.rtt d hcomplete) rfl ?_
  refine Holds.command (.rttCnt d hcomplete) rfl ?_
  refine Holds.issue (.rttRegion0 d hcomplete) rfl ?_
  refine Holds.command (.activeid d hcomplete) rfl ?_
  exact .published d hcomplete

end Loops

section Call

variable (report : Report) (s : Store)

theorem watched_hget (key field : String) (progress : Progress) :
    watched (.hget key field) (s, progress) =
      .ok (s.hash key field, (s, progress)) := rfl

theorem watched_del (key : String) :
    watched (.del key) (s, .start) = .ok ((), (s.delete key, ⟨true, 0⟩)) := rfl

theorem Draft.store_empty {report : Report} {s : Store} (d : Draft report s) :
    d.store .empty = s.delete d.key := by
  have h : (fun k => if k = d.key then SortedSet.empty
      else if k = d.key then SortedSet.empty else s.zset k) =
      fun k => if k = d.key then SortedSet.empty else s.zset k := by
    funext k
    by_cases hk : k = d.key <;> simp [hk]
  simp only [Draft.store, Store.setZset, Store.delete, h]

theorem holds_attempt {α β : Type} {Φ : Conditions Cmd Exn β Watch}
    {x : Except Exn α} {f : α → Dealing β} {at_ : Watch}
    (herror : ∀ e, x = .error e → Φ.stopped e at_)
    (hok : ∀ a, x = .ok a → Holds watched Φ (f a) at_) :
    Holds watched Φ (attempt x >>= f) at_ := by
  cases x with
  | error e => exact herror e rfl
  | ok a => exact hok a rfl

/-- A call that raises before it deletes its buffer, because some fact a draft
needs does not hold. -/
theorem stopped_untouched (e : Exn) (hskips : ¬Skips report s)
    (hdraft : Draft report s → False) :
    (conditions report s).stopped e (s, .start) :=
  ⟨.untouched, hskips, fun d _ _ => hdraft d⟩

theorem readActiveid_holds {vpnid gameid regionid text : String}
    {Φ : Conditions Cmd Exn Int Watch}
    (hfield : s.hash (activeidKey vpnid) (activeidField gameid regionid) = some text)
    (hpending : ∀ c : Cmd, c.Reads → Φ.pending c (s, .start))
    (hlog : ∀ e, format ("get activeid=" ++ text) = .error e → Φ.stopped e (s, .start))
    (hint : ∀ e, int text = .error e → Φ.stopped e (s, .start))
    (hended : ∀ n, format ("get activeid=" ++ text) = .ok () → int text = .ok n →
      Φ.ended n (s, .start)) :
    Holds watched Φ (readActiveid vpnid gameid regionid) (s, .start) := by
  unfold readActiveid
  refine Holds.command (hpending _ (.hget _ _)) (watched_hget s _ _ _) ?_
  rw [hfield]
  apply holds_attempt
  · exact hlog
  intro _ hshown
  cases hread : int text with
  | error e => simpa [hread, attempt] using hint e hread
  | ok n => simpa [hread, attempt] using hended n hshown hread

theorem dealTriple_holds {vpnid gameid regionid : String}
    (hvpnid : report.vpnid.text = .ok vpnid)
    (hgameid : report.gameid.text = .ok gameid)
    (hregionid : report.regionid.text = .ok regionid) :
    Holds watched (conditions report s) (dealTriple vpnid gameid regionid report)
      (s, .start) := by
  -- Any draft of this call has these three texts.
  have hids : ∀ d : Draft report s,
      d.vpnid = vpnid ∧ d.gameid = gameid ∧ d.regionid = regionid := by
    intro d
    refine ⟨?_, ?_, ?_⟩
    · exact Except.ok.inj (d.vpnid_text.symm.trans hvpnid)
    · exact Except.ok.inj (d.gameid_text.symm.trans hgameid)
    · exact Except.ok.inj (d.regionid_text.symm.trans hregionid)
  have hskips : Skips report s →
      format ("deal request for vpn " ++ vpnid ++ ",game " ++ gameid ++
        ",region " ++ regionid) = .ok () ∧
      s.hash (activeidKey vpnid) (activeidField gameid regionid) = none := by
    rintro ⟨v, g, r, hv, hg, hr, hlogged, habsent⟩
    obtain rfl := Except.ok.inj (hv.symm.trans hvpnid)
    obtain rfl := Except.ok.inj (hg.symm.trans hgameid)
    obtain rfl := Except.ok.inj (hr.symm.trans hregionid)
    exact ⟨hlogged, habsent⟩
  unfold dealTriple
  apply holds_attempt
  · intro e he
    refine stopped_untouched report s e
      (fun h => nomatch he.symm.trans (hskips h).1) ?_
    intro d
    obtain ⟨hv, hg, hr⟩ := hids d
    have h := d.logged
    rw [hv, hg, hr, he] at h
    cases h
  intro _ hlogged
  refine Holds.command (.lookup (.hexists _ _)) rfl ?_
  cases hfield : s.hash (activeidKey vpnid) (activeidField gameid regionid) with
  | none =>
    simp only [Option.isSome_none]
    exact .skipped ⟨vpnid, gameid, regionid, hvpnid, hgameid, hregionid, hlogged, hfield⟩
  | some text =>
  simp only [Option.isSome_some, Bool.true_eq_false, if_false]
  have hpresent : ¬Skips report s := fun h => nomatch hfield.symm.trans (hskips h).2
  have htext : ∀ d : Draft report s, int text = .ok d.old ∧
      format ("get activeid=" ++ text) = .ok () := by
    intro d
    obtain ⟨hv, hg, hr⟩ := hids d
    obtain ⟨t, ht, hint, hlog⟩ := d.activeid_text
    rw [hv, hg, hr, hfield] at ht
    obtain rfl := Option.some.inj ht
    exact ⟨hint, hlog⟩
  apply Holds.bind
  apply readActiveid_holds s hfield
  · intro c hc
    exact .lookup hc
  · intro e he
    refine stopped_untouched report s e hpresent ?_
    intro d
    cases he.symm.trans (htext d).2
  · intro e he
    refine stopped_untouched report s e hpresent ?_
    intro d
    cases he.symm.trans (htext d).1
  intro old hshown hold
  apply holds_attempt
  · intro e he
    have hfree : Free '%' ("activeid=" ++ Numeral.decimal (nextActiveid old)) :=
      free_append (by decide) (free_decimal _ (by decide) (by decide))
    cases he.symm.trans (format_of_free hfree)
  intro _ _
  cases hdetect : report.detectdata with
  | str detectstr =>
    have hlength : (split ',' detectstr).length ≠ 0 := by
      simpa using split_ne_nil ',' detectstr
    simp only [splitDetectdata, Program.done_bind, if_neg hlength]
    apply holds_attempt
    · intro e he
      refine stopped_untouched report s e hpresent ?_
      intro d
      obtain ⟨hv, hg, hr⟩ := hids d
      obtain rfl := Except.ok.inj (hold.symm.trans (htext d).1)
      have h := d.key_logged
      rw [hv, hg, hr, he] at h
      cases h
    intro _ hkey
    let d : Draft report s :=
      { vpnid, gameid, regionid, old, detectstr
        vpnid_text := hvpnid
        gameid_text := hgameid
        regionid_text := hregionid
        activeid_text := ⟨text, hfield, hold, hshown⟩
        detectdata := hdetect
        logged := hlogged
        key_logged := hkey }
    refine Holds.command (.clear d) (watched_del s d.key) ?_
    rw [← d.store_empty]
    exact refill_holds d
  | _ =>
    refine stopped_untouched report s _ hpresent ?_
    intro d
    cases hdetect.symm.trans d.detectdata

/-- The whole behaviour of a call. -/
theorem dealReport_holds :
    Holds watched (conditions report s) (dealReport report) (s, .start) := by
  unfold dealReport
  apply holds_attempt
  · intro e he
    refine stopped_untouched report s e ?_ ?_
    · rintro ⟨_, _, _, h, _⟩
      cases he.symm.trans h
    · intro d
      cases he.symm.trans d.vpnid_text
  intro vpnid hvpnid
  apply holds_attempt
  · intro e he
    refine stopped_untouched report s e ?_ ?_
    · rintro ⟨_, _, _, _, h, _⟩
      cases he.symm.trans h
    · intro d
      cases he.symm.trans d.gameid_text
  intro gameid hgameid
  apply holds_attempt
  · intro e he
    refine stopped_untouched report s e ?_ ?_
    · rintro ⟨_, _, _, _, _, h, _⟩
      cases he.symm.trans h
    · intro d
      cases he.symm.trans d.regionid_text
  intro regionid hregionid
  exact dealTriple_holds report s hvpnid hgameid hregionid

end Call

end GameAcc.Writer
