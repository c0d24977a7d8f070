import GameAcc.Redis.Locality
import GameAcc.Writer.Publishing

/-!
Reports about different nodes, games or regions do not disturb each other. A
call writes under the keys of its own node only, so calls for two nodes can be
exchanged; within a node it writes fields of its own game and region and the
average of region 0.
-/

namespace GameAcc.Writer

open GameAcc.Redis GameAcc.Mysql GameAcc.Text GameAcc.Command

section Owned

/-- The keys that belong to a node. -/
inductive VpnKey (vpnid : String) : String → Prop
  | average : VpnKey vpnid (avaRegionKey vpnid)
  | activeid : VpnKey vpnid (activeidKey vpnid)
  | buffer (gameid regionid : String) {activeid : String} (h : IsBufferId activeid) :
      VpnKey vpnid (detectDataKey vpnid gameid regionid activeid)

/-- The commands of a call: on keys of its node, or reading a set of regions. -/
inductive Owned (vpnid : String) (c : Cmd) : Prop
  | own {key : String} (hkey : c.key? = some key) (h : VpnKey vpnid key)
  | regions {gameid : String} (hkey : c.key? = some (gameRegionKey gameid)) (h : c.Reads)

theorem VpnKey.words {vpnid key : String} (hplain : Plain vpnid) (h : VpnKey vpnid key) :
    ∃ rest, words key = "vpn" :: vpnid :: rest := by
  cases h with
  | average =>
    rw [words_avaRegionKey, words_plain hplain]
    exact ⟨_, rfl⟩
  | activeid =>
    rw [words_activeidKey, words_plain hplain]
    exact ⟨_, rfl⟩
  | buffer gameid regionid _ =>
    rw [words_detectDataKey, words_plain hplain]
    exact ⟨_, rfl⟩

/-- The second word of a node's key is the node's id. -/
theorem VpnKey.ne {vpnid other key key' : String} (hplain : Plain vpnid) (hother : Plain other)
    (hne : vpnid ≠ other) (h : VpnKey vpnid key) (h' : VpnKey other key') : key ≠ key' := by
  obtain ⟨rest, hwords⟩ := h.words hplain
  obtain ⟨rest', hwords'⟩ := h'.words hother
  rintro rfl
  rw [hwords] at hwords'
  obtain ⟨_, htail⟩ := List.cons.inj hwords'
  exact hne (List.cons.inj htail).1

theorem VpnKey.ne_gameRegionKey {vpnid key gameid : String} (hplain : Plain vpnid)
    (h : VpnKey vpnid key) : key ≠ gameRegionKey gameid := by
  obtain ⟨rest, hwords⟩ := h.words hplain
  rintro rfl
  rw [words_gameRegionKey] at hwords
  have hhead := (List.cons.inj hwords).1
  exact absurd hhead (by decide)

theorem Owned.commute {vpnid other : String} {c d : Cmd} (hplain : Plain vpnid)
    (hother : Plain other) (hne : vpnid ≠ other) (hc : Owned vpnid c) (hd : Owned other d) :
    Commute redis c d := by
  cases hc with
  | own hkey h =>
    cases hd with
    | own hkey' h' => exact commute_of_key_ne hkey hkey' (h.ne hplain hother hne h')
    | regions hkey' _ => exact commute_of_key_ne hkey hkey' (h.ne_gameRegionKey hplain)
  | regions hkey h =>
    cases hd with
    | own hkey' h' =>
      exact (commute_of_key_ne hkey' hkey (h'.ne_gameRegionKey hother)).symm
    | regions _ h' => exact commute_of_reads h h'

end Owned

section Commands

variable {vpnid gameid regionid : String} {report : Report}

theorem only_attempt {α : Type} {P : Cmd → Prop} (result : Except Exn α) :
    Only P (attempt result) := by
  cases result <;> trivial

theorem only_loginfo {P : Cmd → Prop} (fmt : String) : Only P (loginfo fmt) := only_attempt _

theorem only_logerr {P : Cmd → Prop} (fmt : String) : Only P (logerr fmt) := only_attempt _

theorem only_item {P : Cmd → Prop} (datalst : List String) (index : Nat) :
    Only P (item datalst index) := by
  unfold item
  split <;> trivial

theorem only_splitDetectdata {P : Cmd → Prop} (detectdata : PyVal) :
    Only P (splitDetectdata detectdata) := by
  unfold splitDetectdata
  split <;> trivial

theorem only_readActiveid : Only (Owned vpnid) (readActiveid vpnid gameid regionid) := by
  refine ⟨.own rfl .activeid, fun activeid => ?_⟩
  apply (only_attempt _).bind
  intro _
  cases activeid with
  | none => trivial
  | some text => exact only_attempt _

theorem only_addDetectdata {key : String} (hkey : VpnKey vpnid key) (t : Tally)
    (detectdata : String) : Only (Owned vpnid) (addDetectdata key t detectdata) := by
  unfold addDetectdata
  refine (only_item _ 0).bind fun ip => (only_item _ 1).bind fun port =>
    (only_item _ 2).bind fun mask => (only_item _ 3).bind fun rtt => ?_
  refine ⟨.own rfl hkey, fun _ => (only_attempt _).bind fun n => ?_⟩
  split <;> trivial

theorem only_addRegion (rptRegionid : PyVal) (ava : Tally) (regionid : String) :
    Only (Owned vpnid) (addRegion vpnid gameid rptRegionid ava regionid) := by
  unfold addRegion
  split
  · trivial
  · refine ⟨.own rfl .average, fun _ => trivial⟩

theorem only_refill {key : String} (hkey : VpnKey vpnid key) (rptRegionid : PyVal)
    (detectlst : List String) (activeid : Int) :
    Only (Owned vpnid)
      (refill vpnid gameid regionid rptRegionid key detectlst activeid) := by
  unfold refill
  refine (Only.foldlM (only_addDetectdata hkey) _ _).bind fun _ =>
    (only_loginfo _).bind fun _ => ?_
  refine ⟨.regions rfl (.smembers _), fun regionlst => ?_⟩
  refine (Only.foldlM (only_addRegion rptRegionid) _ _).bind fun _ => ?_
  exact ⟨.own rfl .average, fun _ => ⟨.own rfl .average, fun _ => ⟨.own rfl .average,
    fun _ => ⟨.own rfl .activeid, fun _ => trivial⟩⟩⟩⟩

theorem only_dealTriple : Only (Owned vpnid) (dealTriple vpnid gameid regionid report) := by
  have hlookup : Only (Owned vpnid)
      (hexists (activeidKey vpnid) (activeidField gameid regionid) : Dealing Bool) :=
    ⟨.own rfl .activeid, fun _ => trivial⟩
  unfold dealTriple
  refine (only_loginfo _).bind fun _ => hlookup.bind fun exist => ?_
  split
  · apply Only.bind
    · exact only_logerr _
    · intro _
      trivial
  · refine only_readActiveid.bind fun old => ?_
    refine (only_loginfo ("activeid=" ++ Numeral.decimal (nextActiveid old))).bind fun _ => ?_
    refine (only_splitDetectdata report.detectdata).bind fun detectlst => ?_
    split
    · trivial
    · have hkey : VpnKey vpnid (detectDataKey vpnid gameid regionid
          (Numeral.decimal (nextActiveid old))) :=
        .buffer gameid regionid (isBufferId_nextActiveid old)
      have hdel : Only (Owned vpnid) (del (detectDataKey vpnid gameid regionid
          (Numeral.decimal (nextActiveid old))) : Dealing Unit) :=
        ⟨.own rfl hkey, fun _ => trivial⟩
      refine (only_loginfo _).bind fun _ => hdel.bind fun _ => ?_
      exact only_refill hkey _ _ _

/-- All commands of a call are owned by its node. -/
theorem only_dealReport (h : report.vpnid.text = .ok vpnid) :
    Only (Owned vpnid) (dealReport report) := by
  have hprogram : dealReport report = attempt report.gameid.text >>= fun gameid =>
      attempt report.regionid.text >>= fun regionid =>
        dealTriple vpnid gameid regionid report := by
    rw [dealReport, h]
    rfl
  rw [hprogram]
  exact (only_attempt _).bind fun _ => (only_attempt _).bind fun _ => only_dealTriple

/-- Calls for two nodes can be exchanged, on any store. -/
theorem calls_commute {a b : Report} {v v' : Int} (ha : a.vpnid.text = .ok (Numeral.decimal v))
    (hb : b.vpnid.text = .ok (Numeral.decimal v')) (hne : v ≠ v') (s : Store) :
    (run redis (dealReport b) (run redis (dealReport a) s).2).2 =
      (run redis (dealReport a) (run redis (dealReport b) s).2).2 := by
  have htexts : Numeral.decimal v ≠ Numeral.decimal v' := fun h => hne (decimal_injective h)
  have hcommute : Only (fun c => Only (Commute redis c) (dealReport b)) (dealReport a) := by
    apply (only_dealReport ha).mono
    intro c hc
    apply (only_dealReport hb).mono
    intro d hd
    exact hc.commute (plain_decimal v) (plain_decimal v') htexts hd
  exact (run_comm hcommute s).2

end Commands

section Frame

/-- What a call about a triple of texts may change: the buffers of the triple,
two averages and a count, and the activeid. -/
structure Frame (vpnid gameid regionid : String) (s s' : Store) : Prop where
  cell : ∀ key, key ≠ avaRegionKey vpnid → key ≠ activeidKey vpnid →
    (∀ id, IsBufferId id → key ≠ detectDataKey vpnid gameid regionid id) →
      s'.cell key = s.cell key
  average : ∀ field, field ≠ regionRttField gameid regionid →
    field ≠ regionRttCntField gameid regionid → field ≠ regionRttField gameid "0" →
      s'.hash (avaRegionKey vpnid) field = s.hash (avaRegionKey vpnid) field
  activeid : ∀ field, field ≠ activeidField gameid regionid →
    s'.hash (activeidKey vpnid) field = s.hash (activeidKey vpnid) field

variable {vpnid gameid regionid : String} {s s' : Store} {report : Report}

theorem Frame.refl (vpnid gameid regionid : String) (s : Store) :
    Frame vpnid gameid regionid s s :=
  ⟨fun _ _ _ _ => rfl, fun _ _ _ _ => rfl, fun _ _ => rfl⟩

theorem Draft.store_eq_setCell (d : Draft report s) (z : SortedSet) :
    d.store z = s.setCell d.key { Cell.empty with zset := z } := by
  simp only [Draft.store, Store.setZset, Store.delete, Store.setCell, Cell.empty,
    Store.mk.injEq]
  refine ⟨?_, trivial, ?_⟩
  · funext k f
    split <;> rfl
  · funext k
    split <;> rfl

theorem Frame.store (d : Draft report s) (z : SortedSet) :
    Frame d.vpnid d.gameid d.regionid s (d.store z) := by
  have hhash : ∀ key, key ≠ d.key → (d.store z).hash key = s.hash key := by
    intro key hkey
    rw [d.store_eq_setCell]
    exact congrArg Cell.hash (s.cell_setCell_ne _ hkey)
  constructor
  · intro key _ _ hbuffer
    rw [d.store_eq_setCell]
    exact s.cell_setCell_ne _ (hbuffer _ d.isBufferId)
  · intro field _ _ _
    rw [hhash _ (avaRegionKey_ne_detectDataKey d.isBufferId _)]
  · intro field _
    rw [hhash _ (activeidKey_ne_detectDataKey d.isBufferId _)]

theorem cell_setHash_ne (s : Store) {key other : String} (field value : String)
    (h : other ≠ key) : (s.setHash key field value).cell other = s.cell other := by
  simp [Store.cell, Store.setHash, h]

theorem Frame.setAverage (h : Frame vpnid gameid regionid s s') {field : String}
    (hfield : field = regionRttField gameid regionid ∨
      field = regionRttCntField gameid regionid ∨ field = regionRttField gameid "0")
    (value : String) :
    Frame vpnid gameid regionid s (s'.setHash (avaRegionKey vpnid) field value) := by
  constructor
  · intro key haverage hactiveid hbuffer
    rw [cell_setHash_ne s' _ _ haverage]
    exact h.cell key haverage hactiveid hbuffer
  · intro f hrtt hcnt hrtt0
    have hne : f ≠ field := by
      rintro rfl
      rcases hfield with hfield | hfield | hfield
      · exact hrtt hfield
      · exact hcnt hfield
      · exact hrtt0 hfield
    rw [Store.setHash_field_ne _ _ _ _ _ hne]
    exact h.average f hrtt hcnt hrtt0
  · intro f hf
    rw [Store.setHash_key_ne _ _ _ _ f (avaRegionKey_ne_activeidKey _ _).symm]
    exact h.activeid f hf

theorem Frame.setActiveid (h : Frame vpnid gameid regionid s s') (value : String) :
    Frame vpnid gameid regionid s
      (s'.setHash (activeidKey vpnid) (activeidField gameid regionid) value) := by
  constructor
  · intro key haverage hactiveid hbuffer
    rw [cell_setHash_ne s' _ _ hactiveid]
    exact h.cell key haverage hactiveid hbuffer
  · intro f hrtt hcnt hrtt0
    rw [Store.setHash_key_ne _ _ _ _ f (avaRegionKey_ne_activeidKey _ _)]
    exact h.average f hrtt hcnt hrtt0
  · intro f hf
    rw [Store.setHash_field_ne _ _ _ _ _ hf]
    exact h.activeid f hf

/-- The frame of the later stages of a call. -/
theorem Frame.averaged (d : Draft report s) (detects : List Detect) :
    Frame d.vpnid d.gameid d.regionid s (d.withRtt detects) ∧
      Frame d.vpnid d.gameid d.regionid s (d.withRttCnt detects) ∧
      Frame d.vpnid d.gameid d.regionid s (d.averaged detects) := by
  have hrtt : Frame d.vpnid d.gameid d.regionid s (d.withRtt detects) :=
    (Frame.store d _).setAverage (.inl rfl) _
  have hcnt : Frame d.vpnid d.gameid d.regionid s (d.withRttCnt detects) :=
    hrtt.setAverage (.inr (.inl rfl)) _
  exact ⟨hrtt, hcnt, hcnt.setAverage (.inr (.inr rfl)) _⟩

/-- Every point of a call: nothing has changed, or the call is about a triple
that has an activeid and nothing outside of the frame has changed. -/
theorem Pending.frame {c : Cmd} {at_ : Watch} (h : Pending report s c at_) :
    at_.1 = s ∨ ∃ d : Draft report s, Frame d.vpnid d.gameid d.regionid s at_.1 := by
  cases h with
  | lookup _ => exact .inl rfl
  | clear _ => exact .inl rfl
  | fill d _ _ z => exact .inr ⟨d, Frame.store d z⟩
  | survey d _ z => exact .inr ⟨d, Frame.store d z⟩
  | rtt d _ => exact .inr ⟨d, Frame.store d _⟩
  | rttCnt d _ => exact .inr ⟨d, (Frame.averaged d _).1⟩
  | rttRegion0 d _ => exact .inr ⟨d, (Frame.averaged d _).2.1⟩
  | activeid d _ => exact .inr ⟨d, (Frame.averaged d _).2.2⟩

theorem Call.frame {e : CallEnd} (h : Call report s e s') :
    s' = s ∨ ∃ d : Draft report s, Frame d.vpnid d.gameid d.regionid s s' := by
  cases e with
  | returned exit =>
    cases exit with
    | skipped => exact .inl h.returned_skipped.1
    | published =>
      obtain ⟨d, detects, _, rfl⟩ := h.returned_published
      exact .inr ⟨d, (Frame.averaged d detects).2.2.setActiveid _⟩
  | raised e =>
    rcases h.raised_store with rfl | ⟨d, z, rfl⟩
    · exact .inl rfl
    · exact .inr ⟨d, Frame.store d z⟩
  | rejected c written =>
    obtain ⟨cleared, hpending⟩ := h.rejected_pending
    exact hpending.frame

end Frame

section Separate

/-- The ids of a report, in canonical form. -/
structure Report.IsAbout (report : Report) (v g r : Int) : Prop where
  vpnid : report.vpnid.text = .ok (Numeral.decimal v)
  gameid : report.gameid.text = .ok (Numeral.decimal g)
  regionid : report.regionid.text = .ok (Numeral.decimal r)

/-- What a call about `(v, g, r)` leaves as it is under the keys of node `v`, for
a game and a region. -/
structure SameRegion (v g r : Int) (s s' : Store) : Prop where
  rttCnt : s'.hash (avaRegionKey (Numeral.decimal v))
      (regionRttCntField (Numeral.decimal g) (Numeral.decimal r)) =
    s.hash (avaRegionKey (Numeral.decimal v))
      (regionRttCntField (Numeral.decimal g) (Numeral.decimal r))
  activeid : s'.hash (activeidKey (Numeral.decimal v))
      (activeidField (Numeral.decimal g) (Numeral.decimal r)) =
    s.hash (activeidKey (Numeral.decimal v))
      (activeidField (Numeral.decimal g) (Numeral.decimal r))
  buffers : ∀ id, IsBufferId id →
    s'.cell (detectDataKey (Numeral.decimal v) (Numeral.decimal g) (Numeral.decimal r) id) =
      s.cell (detectDataKey (Numeral.decimal v) (Numeral.decimal g) (Numeral.decimal r) id)

def SameRtt (v g r : Int) (s s' : Store) : Prop :=
  s'.hash (avaRegionKey (Numeral.decimal v))
      (regionRttField (Numeral.decimal g) (Numeral.decimal r)) =
    s.hash (avaRegionKey (Numeral.decimal v))
      (regionRttField (Numeral.decimal g) (Numeral.decimal r))

/-- A call about `(v, g, r)` keeps apart from everything else: the keys that are
not of node `v`, and of its keys whatever is about another game or region. The
average of region 0 is the only value its regions share. -/
structure Separate (v g r : Int) (s s' : Store) : Prop where
  otherVpn : ∀ v', v' ≠ v → ∀ key, VpnKey (Numeral.decimal v') key → s'.cell key = s.cell key
  otherKey : ∀ key, ¬VpnKey (Numeral.decimal v) key → s'.cell key = s.cell key
  otherField : ∀ field, (∀ r', field ≠ regionRttField (Numeral.decimal g) (Numeral.decimal r') ∧
      field ≠ regionRttCntField (Numeral.decimal g) (Numeral.decimal r') ∧
      field ≠ activeidField (Numeral.decimal g) (Numeral.decimal r')) →
    s'.hash (avaRegionKey (Numeral.decimal v)) field =
        s.hash (avaRegionKey (Numeral.decimal v)) field ∧
      s'.hash (activeidKey (Numeral.decimal v)) field =
        s.hash (activeidKey (Numeral.decimal v)) field
  otherGame : ∀ g' r', g' ≠ g → SameRtt v g' r' s s' ∧ SameRegion v g' r' s s'
  otherRegion : ∀ r', r' ≠ r → (r' ≠ 0 → SameRtt v g r' s s') ∧ SameRegion v g r' s s'

variable {v g r : Int} {s s' : Store}

theorem Frame.sameRtt
    (h : Frame (Numeral.decimal v) (Numeral.decimal g) (Numeral.decimal r) s s') {g' r' : Int}
    (hne : g' ≠ g ∨ r' ≠ r ∧ r' ≠ 0) : SameRtt v g' r' s s' := by
  apply h.average
  · intro hfield
    obtain ⟨hg, hr⟩ := regionRttField_eq (plain_decimal _) (plain_decimal _) (plain_decimal _)
      (plain_decimal _) hfield
    have hids := And.intro (decimal_injective hg) (decimal_injective hr)
    omega
  · exact regionRttField_ne_regionRttCntField _ _ _ _
  · intro hfield
    have hzero : regionRttField (Numeral.decimal g') (Numeral.decimal r') =
        regionRttField (Numeral.decimal g) (Numeral.decimal 0) := hfield
    obtain ⟨hg, hr⟩ := regionRttField_eq (plain_decimal _) (plain_decimal _) (plain_decimal _)
      (plain_decimal _) hzero
    have hids := And.intro (decimal_injective hg) (decimal_injective hr)
    omega

theorem Frame.sameRegion
    (h : Frame (Numeral.decimal v) (Numeral.decimal g) (Numeral.decimal r) s s') {g' r' : Int}
    (hne : g' ≠ g ∨ r' ≠ r) : SameRegion v g' r' s s' := by
  have hids : ¬(Numeral.decimal g' = Numeral.decimal g ∧
      Numeral.decimal r' = Numeral.decimal r) := by
    rintro ⟨hg, hr⟩
    have hids := And.intro (decimal_injective hg) (decimal_injective hr)
    omega
  constructor
  · apply h.average
    · exact (regionRttField_ne_regionRttCntField _ _ _ _).symm
    · intro hfield
      exact hids (regionRttCntField_eq (plain_decimal _) (plain_decimal _) (plain_decimal _)
        (plain_decimal _) hfield)
    · exact (regionRttField_ne_regionRttCntField _ _ _ _).symm
  · apply h.activeid
    intro hfield
    exact hids (activeidField_eq (plain_decimal _) (plain_decimal _) hfield)
  · intro id hid
    apply h.cell
    · exact (avaRegionKey_ne_detectDataKey hid _).symm
    · exact (activeidKey_ne_detectDataKey hid _).symm
    · intro id' hid' hkey
      obtain ⟨_, hg, hr, _⟩ := detectDataKey_eq (plain_decimal _) (plain_decimal _)
        (plain_decimal _) (plain_decimal _) (plain_decimal _) (plain_decimal _) hid.plain
        hid'.plain hkey
      exact hids ⟨hg, hr⟩

theorem Frame.separate
    (h : Frame (Numeral.decimal v) (Numeral.decimal g) (Numeral.decimal r) s s') :
    Separate v g r s s' := by
  have hother : ∀ key, ¬VpnKey (Numeral.decimal v) key → s'.cell key = s.cell key := by
    intro key hkey
    apply h.cell
    · rintro rfl
      exact hkey .average
    · rintro rfl
      exact hkey .activeid
    · rintro id hid rfl
      exact hkey (.buffer _ _ hid)
  refine ⟨?_, hother, ?_, fun g' r' hg => ⟨h.sameRtt (.inl hg), h.sameRegion (.inl hg)⟩,
    fun r' hr => ⟨fun hzero => h.sameRtt (.inr ⟨hr, hzero⟩), h.sameRegion (.inr hr)⟩⟩
  · intro v' hv key hkey
    apply hother
    intro hown
    have htexts : Numeral.decimal v' ≠ Numeral.decimal v := fun h => hv (decimal_injective h)
    exact hkey.ne (plain_decimal v') (plain_decimal v) htexts hown rfl
  · intro field hfield
    obtain ⟨hrtt, hcnt, hactiveid⟩ := hfield r
    exact ⟨h.average field hrtt hcnt (hfield 0).1, h.activeid field hactiveid⟩

theorem Separate.refl (v g r : Int) (s : Store) : Separate v g r s s :=
  (Frame.refl _ _ _ s).separate

end Separate

/-- Reports do not interfere: a call keeps apart from everything that is not
about its triple, a call about a triple that is not registered changes nothing,
and calls for two nodes can be exchanged on every store. -/
theorem reports_do_not_interfere {db : Database}
    (hregions : ∀ g r, r ∈ db.regionids g → 1 ≤ r) :
    (∀ (calls : List (Report × CallEnd)) (s s' : Store) (report : Report) (e : CallEnd)
        (v g r : Int), History db calls s → report.IsAbout v g r → Call report s e s' →
      Separate v g r s s' ∧ (¬db.Registered v g r → s' = s) ∧ (r = 0 → s' = s)) ∧
    ∀ (a b : Report) (v v' : Int) (s : Store), a.vpnid.text = .ok (Numeral.decimal v) →
      b.vpnid.text = .ok (Numeral.decimal v') → v ≠ v' →
      (run redis (dealReport b) (run redis (dealReport a) s).2).2 =
        (run redis (dealReport a) (run redis (dealReport b) s).2).2 := by
  refine ⟨?_, fun a b v v' s ha hb hne => calls_commute ha hb hne s⟩
  intro calls s s' report e v g r hhistory habout hcall
  rcases hcall.frame with rfl | ⟨d, hframe⟩
  · exact ⟨Separate.refl v g r s', fun _ => rfl, fun _ => rfl⟩
  · obtain ⟨v', g', r', hd⟩ := hhistory.sound.about d
    have hv := Except.ok.inj (habout.vpnid.symm.trans d.vpnid_text)
    have hg := Except.ok.inj (habout.gameid.symm.trans d.gameid_text)
    have hr := Except.ok.inj (habout.regionid.symm.trans d.regionid_text)
    rw [← hv, ← hg, ← hr] at hframe
    have hregistered : db.Registered v g r := by
      rw [decimal_injective (hv.trans hd.vpnid), decimal_injective (hg.trans hd.gameid),
        decimal_injective (hr.trans hd.regionid)]
      exact hd.registered
    refine ⟨hframe.separate, fun hnot => absurd hregistered hnot, ?_⟩
    rintro rfl
    have hone := hregions g 0 hregistered.region
    omega

theorem oneGame_regions_positive : ∀ g r, r ∈ (oneGame [1]).regionids g → 1 ≤ r := by
  intro g r hr
  obtain ⟨row, hrow, _, rfl⟩ := (oneGame [1]).mem_regionids.mp hr
  obtain ⟨region, hregion, rfl⟩ := List.mem_map.mp hrow
  rw [List.mem_singleton.mp hregion]

/-- Two nodes and one game with one region. -/
def twoNodes : Database :=
  { oneGame [1] with
    vpnNodeTbl := [{ nodeid := 1, enabled := 1 }, { nodeid := 2, enabled := 1 }] }

def nodeReport (v rtt : Int) : Report := regionReport (.int v) (.int 5) "1" [oneRecord rtt]

theorem nodeReport_about (v rtt : Int) : (nodeReport v rtt).IsAbout v 5 1 :=
  ⟨rfl, rfl, text_decimal 1⟩

theorem twoNodes_regions_positive : ∀ g r, r ∈ twoNodes.regionids g → 1 ≤ r :=
  oneGame_regions_positive

/-- A report for each of two nodes, in both orders. -/
theorem reports_do_not_interfere_two_nodes :
    ∃ s₁ s₂ s, Call (nodeReport 1 40) (load twoNodes) (.returned .published) s₁ ∧
      Call (nodeReport 2 70) s₁ (.returned .published) s ∧ Separate 2 5 1 s₁ s ∧
      Call (nodeReport 2 70) (load twoNodes) (.returned .published) s₂ ∧
      Call (nodeReport 1 40) s₂ (.returned .published) s ∧ Separate 1 5 1 s₂ s := by
  have hpublished : ∀ {report s}, (run redis (dealReport report) s).1 = .ok .published →
      Call report s (.returned .published) (run redis (dealReport report) s).2 :=
    fun h => .returned (Prod.ext h rfl)
  have hone : Call (nodeReport 1 40) (load twoNodes) (.returned .published) _ :=
    hpublished (by decide +kernel)
  have htwo : Call (nodeReport 2 70) (load twoNodes) (.returned .published) _ :=
    hpublished (by decide +kernel)
  have htwo' : Call (nodeReport 2 70) (run redis (dealReport (nodeReport 1 40)) (load twoNodes)).2
      (.returned .published) _ := hpublished (by decide +kernel)
  have hone' : Call (nodeReport 1 40) (run redis (dealReport (nodeReport 2 70)) (load twoNodes)).2
      (.returned .published) _ := hpublished (by decide +kernel)
  obtain ⟨hapart, hexchange⟩ := reports_do_not_interfere twoNodes_regions_positive
  have hsame := hexchange (nodeReport 2 70) (nodeReport 1 40) 2 1 (load twoNodes) rfl rfl
    (by decide)
  have hseparate := (hapart _ _ _ _ _ _ _ _ (History.load.call hone) (nodeReport_about 2 70) htwo').1
  have hseparate' :=
    (hapart _ _ _ _ _ _ _ _ (History.load.call htwo) (nodeReport_about 1 40) hone').1
  rw [hsame] at hone' hseparate'
  exact ⟨_, _, _, hone, htwo', hseparate, htwo, hone', hseparate'⟩

end GameAcc.Writer
