import GameAcc.Lua.DetectGameListPort
import GameAcc.Lua.GameListAccelerated
import GameAcc.Writer.StoredAverage

/-!
The region of the addresses a request gets. A request with a node always reads
the buffer of region 1. It can, because a game with another region never has
such a buffer: its reports stop before they publish.
-/

namespace GameAcc.Lua.GameListPortText

open GameAcc.Redis GameAcc.Mysql GameAcc.Writer GameAcc.Text GameAcc.Interleaving
open GameAcc.Lua.DetectGameListPort (ServedReport)

/-- The address of a server of the game and region. -/
def OfRegion (db : Database) (gameid regionid : Double) (address : String) : Prop :=
  ∃ row ∈ db.gameServerTbl, SelectsId gameid row.gameid ∧
    SelectsId regionid row.gameregionid ∧ address = row.address.text

section Published

variable {db : Database} {calls : List (Report × CallEnd)} {s : Store}

/-- A published report is one of the calls', about its triple; and a known game
it was published for has no other region. -/
theorem published_call (h : History db calls s) {vpnid gameid regionid : String}
    {report : Report} (hlast : lastPublished calls vpnid gameid regionid = some report) :
    (∃ call ∈ calls, call.1 = report) ∧ triple report = some (vpnid, gameid, regionid) ∧
      ∀ g, db.Known g → gameid = Numeral.decimal g → ∀ z ∈ db.regionids g,
        regionid = Numeral.decimal z := by
  induction h with
  | load => cases hlast
  | @call calls s s' report' e hhistory hcall ih =>
    rw [lastPublished, lastReports_snoc] at hlast
    have hbefore : lastReports CallEnd.publishes calls vpnid gameid regionid = some report →
        (∃ call ∈ calls ++ [(report', e)], call.1 = report) ∧
          triple report = some (vpnid, gameid, regionid) ∧
          ∀ g, db.Known g → gameid = Numeral.decimal g → ∀ z ∈ db.regionids g,
            regionid = Numeral.decimal z := by
      intro hlast
      obtain ⟨⟨call, hmem, heq⟩, hrest⟩ := ih hlast
      exact ⟨⟨call, List.mem_append_left _ hmem, heq⟩, hrest⟩
    by_cases he : e.publishes = true
    · rw [if_pos he] at hlast
      rcases LastReports.record_eq_some hlast with ⟨htriple, rfl⟩ | ⟨_, hlast⟩
      · refine ⟨⟨(report, e), by simp, rfl⟩, htriple, ?_⟩
        rintro g hknown rfl z hz
        obtain ⟨d, detects, hcomplete⟩ := complete_of_publishes hcall he
        obtain ⟨v', g', r', habout⟩ := hhistory.sound.about d
        have hids := (draft_triple d).symm.trans htriple
        simp only [Option.some.injEq, Prod.mk.injEq] at hids
        obtain ⟨_, hg, hr⟩ := hids
        obtain rfl := decimal_injective (habout.gameid.symm.trans hg)
        rw [← hr, habout.regionid, hcomplete.region_unique hhistory.sound habout hknown hz]
      · exact hbefore hlast
    · rw [if_neg he] at hlast
      exact hbefore hlast

/-- The buffer a request reads holds addresses of the request's region. -/
theorem buffer_ofRegion (h : History db calls s)
    (hserved : ∀ call ∈ calls, ServedReport db call.1) {gameid regionid : Double} {g z : Int}
    (hgame : numberText gameid = Numeral.decimal g)
    (hregion : numberText regionid = Numeral.decimal z) (hknown : db.Known g)
    (hz : z ∈ db.regionids g) (hne : z ≠ 0) {vpn activeid address : String} {max : Score}
    (hactive : lookedAt s vpn gameid = some activeid) (hid : IsBufferId activeid)
    (haddress : address ∈
      (s.zset (detectDataKey vpn (numberText gameid) "1" activeid)).rangeByScore (.fin 0) max) :
    OfRegion db gameid regionid address := by
  obtain ⟨report, detects, hlast, hdetects, hcontents⟩ := history_buffer h hactive hid
  obtain ⟨⟨call, hcall, rfl⟩, htriple, honly⟩ := published_call h hlast
  have hone : Numeral.decimal z = "1" := (honly g hknown hgame z hz).symm
  obtain ⟨_, hgametext, hregiontext⟩ := triple_eq_some htriple
  rw [hcontents] at haddress
  obtain ⟨q, hentry, _⟩ := SortedSet.mem_rangeByScore.mp haddress
  obtain ⟨d, hd, heq⟩ := mem_contents hentry
  obtain ⟨row, hrow, hrowgame, hrowregion, hmember⟩ :=
    (hserved call hcall).member (hgame ▸ hgametext) (hone ▸ hregiontext)
      (Double.natAbs_of_text hgame) (Double.natAbs_of_text hregion) hdetects hd
  refine ⟨row, hrow, (selectsId_iff hgame).mpr hrowgame,
    (selectsId_iff hregion).mpr (hrowregion hne), ?_⟩
  rw [← hmember]
  exact (Prod.mk.inj heq).1

end Published

section Answers

variable {db : Database} {s : Store} {self : Self}

theorem accepts_of_text {text : String}
    (h : answer (getGameIpListRedis self) s = .ok (.str text)) :
    Accepts s self.gameid self.regionid := by
  by_contra hrejected
  have hstatic : answer (getGameIpListWithoutSvpnInfo self) s =
      .error (.exit MOD_ERR_INVALID_PARAM) := by
    rw [getGameIpListWithoutSvpnInfo]
    exact answer_validateGameRegion_rejects hrejected _
  unfold getGameIpListRedis at h
  cases hself : self.svpninfo with
  | none =>
    simp only [hself, Command.Program.done_bind, if_true] at h
    cases hstatic.symm.trans h
  | some svpninfo =>
    have hvalue : answer (getGameIpListBySvpnInfo self svpninfo) s =
        .error (.exit MOD_ERR_INVALID_PARAM) := by
      rw [getGameIpListBySvpnInfo]
      exact answer_validateGameRegion_rejects hrejected _
    simp only [hself] at h
    rw [answer_bind _ _ _ (only_getGameIpListBySvpnInfo self svpninfo), hvalue] at h
    cases h

/-- Where a text that Redis gives comes from. -/
theorem text_cases (hs : Sound db s) {text : String}
    (h : answer (getGameIpListRedis self) s = .ok (.str text)) :
    answer (getGameIpListWithoutSvpnInfo self) s = .ok (.str text) ∨ text = "" ∨
      ∃ vpn activeid max, lookedAt s vpn self.gameid = some activeid ∧ IsBufferId activeid ∧
        text = (String.singleton ',').intercalate
          ((s.zset (detectDataKey vpn (numberText self.gameid) "1" activeid)).rangeByScore
            (.fin 0) max) := by
  have haccepts := accepts_of_text h
  cases hself : self.svpninfo with
  | none =>
    left
    unfold getGameIpListRedis at h
    simpa only [hself, Command.Program.done_bind, if_true] using h
  | some svpninfo =>
    cases hnode : s.hash VPN_ACTIVE_IP_TO_ID_DIC svpninfo.ip.tostring with
    | none =>
      left
      rw [← answer_without_node hself haccepts hnode, h]
    | some vpn =>
      cases hc : svpninfo.rtt.tonumber with
      | none =>
        have hvalue := answer_getGameIpListBySvpnInfo svpninfo haccepts
        simp only [hnode, hc] at hvalue
        unfold getGameIpListRedis at h
        simp only [hself] at h
        rw [answer_bind _ _ _ (only_getGameIpListBySvpnInfo self svpninfo), hvalue] at h
        cases h
      | some c =>
        by_cases hnear : c < MINVPNRTT
        · right
          left
          rw [answer_near hself haccepts hc hnode hnear] at h
          exact (Value.str.inj (Except.ok.inj h)).symm
        · by_cases hactive : ∀ id, lookedAt s vpn self.gameid = some id → ¬IsBufferId id
          · left
            rw [← answer_without_activeid hself haccepts hc hnode hs hnear hactive, h]
          · push Not at hactive
            obtain ⟨activeid, hactive, hid⟩ := hactive
            cases ht : threshold c with
            | none =>
              obtain ⟨e, he⟩ := answer_refused hself haccepts hc hnode hnear hactive hid ht
              cases he.symm.trans h
            | some t =>
              rw [answer_with_activeid hself haccepts hc hnode hnear hactive hid ht] at h
              exact .inr (.inr ⟨vpn, activeid, _, hactive, hid,
                (Value.str.inj (Except.ok.inj h)).symm⟩)

end Answers

/-- A list for one region. After any sequence of reports about served lists, the
addresses of the answer to a request for a region, from Redis with or without a
node and from MySQL, are addresses of servers of that game and region. -/
theorem region_list {db : Database} {calls : List (Report × CallEnd)} {s : Store}
    (h : History db calls s) (hserved : ∀ call ∈ calls, ServedReport db call.1) {self : Self}
    (hregion : 1 ≤ self.regionid) :
    (∀ text, answer (getGameIpListRedis self) s = .ok (.str text) →
      ∀ address ∈ fields ',' text, OfRegion db self.gameid self.regionid address) ∧
    ∀ address ∈ fields ',' (getGameIpList self db),
      OfRegion db self.gameid self.regionid address := by
  have hne : self.regionid.rat ≠ some 0 := by
    intro hzero
    have hone := Double.extended_ofInt (n := 1) (by decide)
    rw [Int.cast_one] at hone
    have hle := Extended.fin_le_fin.mp
      ((Double.le_iff hone (Double.rat_eq_some.mp hzero)).mp hregion)
    norm_num at hle
  constructor
  · intro text htext address haddress
    obtain ⟨g, hg, hgame, hzero | ⟨z, hz, hregionid⟩⟩ :=
      (accepts_iff h.sound).mp (accepts_of_text htext)
    · exact absurd hzero hne
    have hzne : z ≠ 0 := (Double.rat_zero_iff hregionid).not.mp hne
    rcases text_cases h.sound htext with hstatic | rfl | ⟨vpn, activeid, max, hactive, hid, rfl⟩
    · rw [answer_getGameIpListWithoutSvpnInfo h.sound hg hgame hregionid (.inr hz)] at hstatic
      rw [← Value.str.inj (Except.ok.inj hstatic), fields_staticList] at haddress
      obtain ⟨a, ha, rfl⟩ := List.mem_map.mp haddress
      rw [listed, if_neg hzne] at ha
      obtain ⟨row, hrow, hrowgame, hrowregion, rfl⟩ := db.mem_addresses.mp ha
      exact ⟨row, hrow, (selectsId_iff hgame).mpr hrowgame,
        (selectsId_iff hregionid).mpr hrowregion, rfl⟩
    · rw [fields_empty] at haddress
      cases haddress
    · obtain ⟨report, detects, _, hdetects, hcontents⟩ := history_buffer h hactive hid
      rw [hcontents, rangeByScore_fields hdetects, ← hcontents] at haddress
      exact buffer_ofRegion h hserved hgame hregionid hg.known hz hzne hactive hid haddress
  · intro address haddress
    obtain ⟨a, ha, rfl⟩ := selected_of_getGameIpList haddress
    obtain ⟨row, hrow, hgame, hrowregion, rfl⟩ := mem_selectAddresses.mp ha
    exact ⟨row, hrow, hgame, hrowregion hne, rfl⟩

section OneReport

open GameAcc.Lua.DetectGameListPort

/-- The report is about the list that was served for its game and region. -/
theorem oneReport_served (rtt : Int) : ServedReport (oneGame [1]) (oneReport rtt) := by
  have hone : (Value.str (Numeral.decimal 1)).tonumber = some 1 := by
    decide +kernel
  have hfive : numberText 5 = Numeral.decimal 5 := by
    decide +kernel
  have hrecord : split ',' (detectdata [oneRecord rtt]) = [(oneRecord rtt).text] :=
    split_intercalate (by simpa using (oneRecord rtt).text_no_comma) (List.cons_ne_nil _ _)
  refine ⟨⟨.num 5, .str (Numeral.decimal 1)⟩, ⟨5, 1⟩, detectdata [oneRecord rtt], ?_, ?_, ?_,
    rfl, ?_⟩
  · simp only [checkparm, hone]
    rfl
  · exact congrArg Except.ok hfive.symm
  · exact text_decimal 1
  · intro record hmem
    rw [hrecord, List.mem_singleton] at hmem
    have hrows : selectRows ⟨5, 1⟩ (oneGame [1]) =
        [{ gameid := 5, gameregionid := 1, address := oneAddress }] := by
      apply List.filter_eq_self.mpr
      intro row hrow
      rw [List.mem_singleton.mp hrow]
      decide +kernel
    have hitem : (⟨1, detectText oneAddress⟩ : DetectRegion) ∈
        getDetectIpPortList ⟨5, 1⟩ (oneGame [1]) := by
      apply (mem_getDetectIpPortList _ _).mpr
      rw [hrows]
      exact ⟨⟨_, List.mem_singleton_self _, rfl⟩, rfl⟩
    refine ⟨_, hitem, detectText oneAddress, ?_, Numeral.decimal rtt ++ "/" ++ "0", ?_⟩
    · rw [split_free (detectText_free oneAddress)]
      exact List.mem_singleton_self _
    · rw [hmem]
      apply String.ext
      simp [Record.text, Record.parts, oneRecord, detectText, oneAddress]
      rfl

theorem region_list_one_report :
    ∃ s, History (oneGame [1]) [(oneReport 40, .returned .published)] s ∧
      (∀ text, answer (getGameIpListRedis { nodeRequest 40 with regionid := 1 }) s =
          .ok (.str text) →
        ∀ address ∈ fields ',' text, OfRegion (oneGame [1]) 5 1 address) ∧
      ∀ address ∈ fields ',' (getGameIpList { nodeRequest 40 with regionid := 1 } (oneGame [1])),
        OfRegion (oneGame [1]) 5 1 address := by
  obtain ⟨s, _, hhistory, _⟩ := oneReport_history 40 (by decide)
  have hserved : ∀ call ∈ [(oneReport 40, CallEnd.returned .published)],
      ServedReport (oneGame [1]) call.1 := by
    intro call hcall
    rw [List.mem_singleton.mp hcall]
    exact oneReport_served 40
  have hregion : 1 ≤ ({ nodeRequest 40 with regionid := 1 } : Self).regionid := by
    decide +kernel
  exact ⟨s, hhistory, region_list hhistory hserved hregion⟩

end OneReport

end GameAcc.Lua.GameListPortText
