import GameAcc.Agent.Ping
import GameAcc.Lua.VpnAverages
import GameAcc.Writer.StoredAverage

/-!
From a measurement to the choice of a node. The stored average uses the values 0
and 99999 for "no data"; a mean below one millisecond is stored as 0, and a mean
of 99999 can come from times that are not 99999 themselves. Such a node counts
as not measured.
-/

namespace GameAcc.Lua.VpnIp

open GameAcc.Redis GameAcc.Mysql GameAcc.Writer GameAcc.Text

/-- The mean of the measured times is neither stored as 0 nor as 99999. With `n`
times whose sum is `total`, the mean is stored as `k` when `k * n ≤ total` and
`total < (k + 1) * n`. -/
def Tellable (detects : List Detect) : Prop :=
  let n : Int := (measured detects).length
  let total := (measured detects).sum
  0 < n ∧ ¬(0 ≤ total ∧ total < n) ∧ ¬(99999 * n ≤ total ∧ total < 100000 * n)

theorem tellable_iff {detects : List Detect} :
    Tellable detects ↔
      (tally detects).average ≠ 0 ∧ (tally detects).average ≠ Writer.AVA_INF := by
  rw [tally_eq]
  unfold Tellable Tally.average
  generalize (measured detects).sum = total
  generalize (measured detects).length = n
  by_cases hn : n = 0
  · simp [hn]
  · have hpos : (0 : Int) < n := by omega
    have hmean : ∀ k : Int, total / n = k ↔ k * n ≤ total ∧ total < (k + 1) * n := by
      intro k
      rw [← Int.le_ediv_iff_mul_le hpos, ← Int.ediv_lt_iff_lt_mul hpos]
      omega
    have hzero := hmean 0
    have hinf := hmean 99999
    simp only [ne_eq, Int.natCast_eq_zero, hn, not_false_eq_true, if_true,
      Int.fdiv_eq_ediv_of_nonneg total hpos.le, Writer.AVA_INF]
    rw [hzero, hinf]
    simp only [zero_mul, zero_add, one_mul]
    omega

/-- The second step leaves an entry of the node valid, its time raised by the
stored average. -/
def KeptEntry (s : Store) (v : Int) (gameid regionid : Double) (item item' : FilterItem) :
    Prop :=
  item.vpnid = .str (Numeral.decimal v) → ∀ rtt, item.rtt.tonumber = some rtt →
    item'.valid = 1 ∧ ∃ ava, average s gameid regionid (Numeral.decimal v) = some ava ∧
      item'.rtt = .num (rtt + ava)

/-- In every accepted request for the game and the region, the loop keeps the
entries of the node, and it ends unless it meets an entry without an address. -/
def KeptValid (s : Store) (v g r : Int) : Prop :=
  ∀ keyless gameid regionid qoslst filterqos,
    numberText gameid = Numeral.decimal g → numberText regionid = Numeral.decimal r →
    answer (filterQosRedis keyless gameid regionid qoslst) s = .ok filterqos →
      (∀ item ∈ filterqos, item.vpnid = .str (Numeral.decimal v) →
        ∃ item', answer (updateItem gameid regionid item) s = .ok item' ∧
          KeptEntry s v gameid regionid item item') ∧
      ((∀ w ∈ qoslst, w.ip ≠ .nil) →
        ∃ updated, answer (updateQosRedis gameid regionid filterqos) s = .ok updated ∧
          List.Forall₂ (KeptEntry s v gameid regionid) filterqos updated)

/-- A request can be about the node: it has an active address, the game is
active, and there are numbers with the texts of the two ids. -/
def Requestable (s : Store) (v g r : Int) : Prop :=
  (∃ ip, s.hash VPN_ACTIVE_IP_TO_ID_DIC ip = some (Numeral.decimal v)) ∧
    Numeral.decimal g ∈ s.set ACTIVE_GAMEID_SET ∧
    ∃ gameid regionid, numberText gameid = Numeral.decimal g ∧
      numberText regionid = Numeral.decimal r

section Measured

variable {db : Database} {s : Store} {calls : List (Report × CallEnd)} {v g r : Int}
  {gameid regionid : Double}

section Request

variable (hgameid : numberText gameid = Numeral.decimal g)
  (hregionid : numberText regionid = Numeral.decimal r)

include hgameid hregionid

theorem accepts_registered (hs : Sound db s) (hregion : r ∈ db.regionids g)
    (hgame : Numeral.decimal g ∈ s.set ACTIVE_GAMEID_SET) :
    Accepts s gameid regionid ∧ db.Known g := by
  obtain ⟨g', hg, hid⟩ := active_game hs hgame
  obtain rfl := decimal_injective hid
  exact ⟨(accepts_iff hs).mpr ⟨g, hg, hgameid, .inr ⟨r, hregion, hregionid⟩⟩, hg.known⟩

/-- The average of a registered triple, as the choice reads it. -/
theorem average_eq {n : Int}
    (h : s.hash (avaRegionKey (Numeral.decimal v))
      (regionRttField (Numeral.decimal g) (Numeral.decimal r)) = some (Numeral.decimal n)) :
    ∃ ava, average s gameid regionid (Numeral.decimal v) = some ava ∧
      ava.extended = some (Rounding.round n) := by
  apply average_of_decimal
  rw [hgameid, hregionid, h]

/-- One pass over an item of an active node, in a request for a region of a
game. -/
theorem updateItem_registered (hs : Sound db s) (hregion : r ∈ db.regionids g) {ip : String}
    {item : FilterItem} {vpnid : String} (hvpnid : item.vpnid = .str vpnid)
    (hactive : s.hash VPN_ACTIVE_IP_TO_ID_DIC ip = some vpnid) :
    answer (updateItem gameid regionid item) s = .ok (totalled s gameid regionid item) := by
  obtain ⟨v', hv', rfl⟩ := active_node hs hactive
  obtain ⟨n, hn⟩ := hs.average v' g r _ ⟨db.node_of_enabledVpnIps hv', hregion⟩ .rtt
  obtain ⟨ava, hava, _⟩ := average_eq hgameid hregionid hn
  exact answer_updateItem hvpnid hava

/-- Such requests rewrite every item, when every entry has an address. -/
theorem updateQosRedis_registered (hs : Sound db s) (hregion : r ∈ db.regionids g)
    (keyless : Keyless) {qoslst : List Qos} (hip : ∀ w ∈ qoslst, w.ip ≠ .nil) :
    answer (updateQosRedis gameid regionid (activeItems keyless s qoslst)) s =
      .ok ((activeItems keyless s qoslst).map (totalled s gameid regionid)) := by
  have hupdate : ∀ item ∈ activeItems keyless s qoslst,
      answer (updateItem gameid regionid item) s = .ok (totalled s gameid regionid item) := by
    intro item hitem
    obtain ⟨w, hw, hactive⟩ := mem_activeItems hitem
    obtain ⟨vpnid, hvpnid, rfl⟩ := activeItem?_vpnid (hip w hw) hactive
    exact updateItem_registered hgameid hregionid hs hregion rfl hvpnid
  have hanswer := answer_updateQosRedis hupdate .done
  rwa [Command.Program.bind_done] at hanswer

end Request

/-- One item stays valid when its node's average is no sentinel. -/
theorem totalled_kept_iff {item : FilterItem} {rtt ava : Double}
    (hvpnid : item.vpnid = .str (Numeral.decimal v)) (hvalid : item.valid = 1)
    (hrtt : item.rtt.tonumber = some rtt)
    (hava : average s gameid regionid (Numeral.decimal v) = some ava) :
    KeptEntry s v gameid regionid item (totalled s gameid regionid item) ↔ ¬Sentinel ava := by
  by_cases hinvalid : Sentinel ava
  · have htotal : itemTotal s gameid regionid item = none := by
      simp [itemTotal, hvpnid, hava, hrtt, hinvalid]
    have hzero : (totalled s gameid regionid item).valid ≠ 1 := by
      simp [totalled, htotal, unmeasured]
    exact iff_of_false (fun h => hzero (h hvpnid rtt hrtt).1) (not_not_intro hinvalid)
  · have htotal : itemTotal s gameid regionid item = some (rtt + ava) := by
      simp [itemTotal, hvpnid, hava, hrtt, hinvalid]
    have htotalled : totalled s gameid regionid item =
        { item with rtt := .num (rtt + ava) } := by
      simp [totalled, htotal]
    refine iff_of_true ?_ hinvalid
    rw [htotalled]
    intro _ rtt' hrtt'
    obtain rfl := Option.some.inj (hrtt.symm.trans hrtt')
    exact ⟨hvalid, ava, hava, rfl⟩

/-- The stored average of a triple that has been published once is no sentinel
exactly when the mean of its last report can be told from one. -/
theorem average_tellable (h : History db calls s) (hreg : db.Registered v g r)
    (hknown : db.Known g) :
    ∃ n : Int, s.hash (avaRegionKey (Numeral.decimal v))
        (regionRttField (Numeral.decimal g) (Numeral.decimal r)) = some (Numeral.decimal n) ∧
      ((n ≠ 0 ∧ n ≠ Writer.AVA_INF) ↔ ∃ last detects,
        lastAveraged calls (Numeral.decimal v) (Numeral.decimal g) (Numeral.decimal r) =
          some last ∧ last.detects = some detects ∧ Tellable detects) := by
  have haverage := averageIs h hreg hknown
  cases hlast : lastAveraged calls (Numeral.decimal v) (Numeral.decimal g)
      (Numeral.decimal r) with
  | none =>
    rw [hlast] at haverage
    exact ⟨0, haverage, by simp⟩
  | some last =>
    rw [hlast] at haverage
    obtain ⟨detects, hdetects, hvalue⟩ := haverage
    refine ⟨_, hvalue, ?_⟩
    rw [← tellable_iff]
    constructor
    · exact fun htellable => ⟨last, detects, rfl, hdetects, htellable⟩
    · rintro ⟨last', detects', hlast', hdetects', htellable⟩
      obtain rfl := Option.some.inj hlast'
      obtain rfl := Option.some.inj (hdetects.symm.trans hdetects')
      exact htellable

/-- The sentinels as the choice compares them. -/
theorem sentinel_iff {ava : Double} {n : Int} (h : ava.extended = some (Rounding.round n)) :
    ¬Sentinel ava ↔ n ≠ 0 ∧ n ≠ Writer.AVA_INF := by
  have hsentinel : ∀ {m : Int}, m.natAbs + 1 < 2 ^ 53 →
      (ava.rat = some (m : ℚ) ↔ n = m) := by
    intro m hm
    rw [Double.rat_eq_some, h, Option.some.injEq, Rounding.round_eq_intCast hm]
  have hzero := hsentinel (m := 0) (by decide)
  have hinf := hsentinel (m := 99999) (by decide)
  push_cast at hzero hinf
  rw [Sentinel, AVA_INF_rat, hzero, hinf, not_or, Writer.AVA_INF]

/-- The last report whose average was written can be told from a sentinel. -/
def LastTellable (calls : List (Report × CallEnd)) (v g r : Int) : Prop :=
  ∃ last detects,
    lastAveraged calls (Numeral.decimal v) (Numeral.decimal g) (Numeral.decimal r) =
      some last ∧ last.detects = some detects ∧ Tellable detects

theorem tellable_of_keptValid (h : History db calls s) (hreg : db.Registered v g r)
    (hkept : KeptValid s v g r) (hrequest : Requestable s v g r) :
    LastTellable calls v g r := by
  obtain ⟨⟨ip, hip⟩, hgame, gameid, regionid, hgameid, hregionid⟩ := hrequest
  obtain ⟨haccepts, hknown⟩ :=
    accepts_registered hgameid hregionid h.sound hreg.region hgame
  obtain ⟨n, hn, htellable⟩ := average_tellable h hreg hknown
  obtain ⟨ava, hava, hvalue⟩ := average_eq hgameid hregionid hn
  let w : Qos := ⟨.str ip, .num 0, .num 40⟩
  have hitems : activeItems .refusal s [w] = [activeItem w (.str (Numeral.decimal v))] := by
    simp [w, activeItems, activeItem?_of_ip, Value.tostring, hip]
  have haccepted := answer_filterQosRedis .refusal haccepts [w]
  rw [hitems] at haccepted
  obtain ⟨hentries, _⟩ := hkept _ _ _ _ _ hgameid hregionid haccepted
  obtain ⟨item', hitem', hentry⟩ := hentries _ List.mem_cons_self rfl
  rw [answer_updateItem rfl hava] at hitem'
  obtain rfl := Except.ok.inj hitem'
  exact htellable.mp ((sentinel_iff hvalue).mp ((totalled_kept_iff rfl rfl rfl hava).mp hentry))

theorem keptValid_of_tellable (h : History db calls s) (hreg : db.Registered v g r)
    (hlast : Requestable s v g r → LastTellable calls v g r) : KeptValid s v g r := by
  intro keyless gameid regionid qoslst filterqos hgameid hregionid haccepted
  obtain ⟨haccepts, rfl⟩ := accepts_of_filterQosRedis haccepted
  have hgame : Numeral.decimal g ∈ s.set ACTIVE_GAMEID_SET := by
    rw [← hgameid]
    exact haccepts.1
  have hentry : ∀ item ∈ activeItems keyless s qoslst,
      item.vpnid = .str (Numeral.decimal v) →
        answer (updateItem gameid regionid item) s = .ok (totalled s gameid regionid item) ∧
          KeptEntry s v gameid regionid item (totalled s gameid regionid item) := by
    intro item hitem hvpnid
    obtain ⟨w, _, hactive⟩ := mem_activeItems hitem
    have hhash : s.hash VPN_ACTIVE_IP_TO_ID_DIC w.ip.tostring = some (Numeral.decimal v) := by
      rcases activeItem?_id hactive with ⟨vpnid, hid, hhash⟩ | ⟨_, hnone⟩
      · obtain rfl := Value.str.inj (hid.symm.trans hvpnid)
        exact hhash
      · rw [hvpnid] at hnone
        cases hnone
    obtain ⟨_, hknown⟩ := accepts_registered hgameid hregionid h.sound hreg.region hgame
    obtain ⟨n, hn, htellable⟩ := average_tellable h hreg hknown
    obtain ⟨ava, hava, hvalue⟩ := average_eq hgameid hregionid hn
    refine ⟨answer_updateItem hvpnid hava, ?_⟩
    intro _ rtt hrtt
    refine (totalled_kept_iff hvpnid (activeItem?_valid hactive).1 hrtt hava).mpr ?_ hvpnid rtt hrtt
    rw [sentinel_iff hvalue]
    exact htellable.mpr (hlast ⟨⟨_, hhash⟩, hgame, _, _, hgameid, hregionid⟩)
  refine ⟨fun item hitem hvpnid => ⟨_, hentry item hitem hvpnid⟩, ?_⟩
  intro hip
  refine ⟨_, updateQosRedis_registered hgameid hregionid h.sound hreg.region keyless hip, ?_⟩
  rw [List.forall₂_map_right_iff, List.forall₂_same]
  exact fun item hitem hvpnid => (hentry item hitem hvpnid).2 hvpnid

end Measured

/-- After any sequence of calls: a node with a published report for a triple is
kept valid in every request exactly when no request can be about it or the mean
of the last report whose average was written can be told from a sentinel. -/
theorem measured_kept_iff {db : Database} {calls : List (Report × CallEnd)} {s : Store}
    (h : History db calls s) {v g r : Int} {published : Report}
    (hpublished : lastPublished calls (Numeral.decimal v) (Numeral.decimal g)
      (Numeral.decimal r) = some published) :
    KeptValid s v g r ↔ (Requestable s v g r → LastTellable calls v g r) := by
  obtain ⟨v', g', r', hreg, hv, hg, hr⟩ :=
    registered_of_lastReports draft_of_publishes h hpublished
  obtain rfl := decimal_injective hv
  obtain rfl := decimal_injective hg
  obtain rfl := decimal_injective hr
  exact ⟨tellable_of_keptValid h hreg, keptValid_of_tellable h hreg⟩

section OneReport

/-- A mean of 40 ms can be told from the sentinels. -/
theorem measured_kept_iff_forty :
    ∃ s, History (oneGame [1]) [(oneReport 40, .returned .published)] s ∧
      KeptValid s 1 5 1 := by
  obtain ⟨s, _, hhistory, _⟩ := oneReport_history 40 (by decide)
  refine ⟨s, hhistory, (measured_kept_iff hhistory (oneReport_last _ rfl 40)).mpr ?_⟩
  intro _
  refine ⟨_, _, oneReport_last _ rfl 40, oneReport_detects 40 (by decide), ?_⟩
  rw [tellable_iff]
  decide

/-- A node measured below one millisecond. -/
def pingLine : String := "rtt min/avg/max/mdev = 0.411/0.437/0.459/0.018 ms"

/-- The time is reported as 0, the report is published with one measured record,
and the node counts as not measured. -/
theorem fast_node_dropped :
    Agent.filterAva pingLine = 0 ∧
      ∃ s, History (oneGame [1])
          [(oneReport (Agent.filterAva pingLine), .returned .published)] s ∧
        measured [(oneRecord (Agent.filterAva pingLine)).detect] ≠ [] ∧
        ¬KeptValid s 1 5 1 := by
  have hping : Agent.filterAva pingLine = 0 := by
    decide +kernel
  rw [hping]
  refine ⟨rfl, ?_⟩
  obtain ⟨s, _, hhistory, _⟩ := oneReport_history 0 (by decide)
  refine ⟨s, hhistory, by decide, ?_⟩
  intro hkept
  have hs := hhistory.sound
  have hrequest : Requestable s 1 5 1 := by
    refine ⟨⟨"10.0.0.1", ?_⟩, ?_, 5, 1, numberText_five, numberText_one⟩
    · rw [hs.vpnIps]
      exact oneGame_vpnIp [1]
    · rw [hs.activeGameids]
      exact oneGame_active [1]
  have hreg : (oneGame [1]).Registered 1 5 1 := oneGame_registered List.mem_cons_self
  obtain ⟨last, detects, hlast, hdetects, htellable⟩ :=
    tellable_of_keptValid hhistory hreg hkept hrequest
  obtain rfl := Option.some.inj ((oneReport_last _ rfl 0).symm.trans hlast)
  obtain rfl := Option.some.inj ((oneReport_detects 0 (by decide)).symm.trans hdetects)
  exact (tellable_iff.mp htellable).1 rfl

end OneReport

end GameAcc.Lua.VpnIp
