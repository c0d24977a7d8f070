import GameAcc.Lua.Accepted
import GameAcc.Lua.VpnOptimal

/-!
What the loader provides for the choice of a VPN node. The averages are stored
for the nodes and the rows of `game_region_tbl`, the requests are accepted by
the rows of `game_name_tbl`: a game without a region has no averages at all.
-/

namespace GameAcc.Lua.VpnIp

open GameAcc.Redis GameAcc.Mysql GameAcc.Writer GameAcc.Text

/-- Every active node has an average for every active game, for region 0 and
for every region of the game. -/
def AveragesComplete (s : Store) : Prop :=
  ∀ ip vpnid, s.hash VPN_ACTIVE_IP_TO_ID_DIC ip = some vpnid →
    ∀ game ∈ s.set ACTIVE_GAMEID_SET, ∀ region,
      (region = "0" ∨ region ∈ s.set (gameRegionKey game)) →
        ∃ n : Int, s.hash (avaRegionKey vpnid) (regionRttField game region) =
          some (Numeral.decimal n)

/-- No accepted request with these ids makes the second step compute with a
missing average. -/
def NeverMissing (s : Store) (gameid regionid : Double) : Prop :=
  ∀ keyless qoslst filterqos,
    answer (filterQosRedis keyless gameid regionid qoslst) s = .ok filterqos →
      answer (updateQosRedis gameid regionid filterqos) s ≠
        .error (.error "attempt to perform arithmetic on a nil value")

/-- An enabled game has a region, when there is an enabled node at all. -/
def RegionsRegistered (db : Database) : Prop :=
  db.enabledVpnIps = [] ∨ ∀ g, db.Enabled g → ∃ r, r ∈ db.regionids g

section Complete

variable {db : Database} {s : Store}

theorem averagesComplete_of_regions (hs : Sound db s) (h : RegionsRegistered db) :
    AveragesComplete s := by
  intro ip vpnid hvpnid game hgame region hregion
  obtain ⟨v, hv, rfl⟩ := active_node hs hvpnid
  obtain ⟨g, hg, rfl⟩ := active_game hs hgame
  have hnode : v ∈ db.nodeids := db.node_of_enabledVpnIps hv
  rcases hregion with rfl | hregion
  · rcases h with hnone | hregions
    · rw [hnone] at hv
      cases hv
    · obtain ⟨r, hr⟩ := hregions g hg
      exact hs.average v g r _ ⟨hnode, hr⟩ .rttRegion0
  · obtain ⟨r, hr, rfl⟩ := active_region hs hg hregion
    exact hs.average v g r _ ⟨hnode, hr⟩ .rtt

/-- There is no average for a text that is not the text of a region, and none
for region 0 of a game without a region. -/
theorem no_average (hs : Sound db s) {g : Int} {region : String} (hplain : Plain region)
    (hregion : ∀ r ∈ db.regionids g, region ≠ Numeral.decimal r)
    (hzero : region = "0" → ∀ r, r ∉ db.regionids g) (vpnid : String) :
    s.hash (avaRegionKey vpnid) (regionRttField (Numeral.decimal g) region) = none := by
  cases hhash : s.hash (avaRegionKey vpnid) (regionRttField (Numeral.decimal g) region) with
  | none => rfl
  | some text =>
    obtain ⟨v, g', r, hreg, _, hfield⟩ := hs.average_registered _ _ _ hhash
    have hids : ∀ region', Plain region' →
        regionRttField (Numeral.decimal g) region = regionRttField (Numeral.decimal g') region' →
          r ∈ db.regionids g ∧ region = region' := by
      intro region' hplain' heq
      have hids := regionRttField_eq (plain_decimal g) hplain (plain_decimal g') hplain' heq
      rw [decimal_injective hids.1]
      exact ⟨hreg.region, hids.2⟩
    generalize hname : regionRttField (Numeral.decimal g) region = field at hfield
    cases hfield with
    | rttRegion0 =>
      obtain ⟨hmem, heq⟩ := hids "0" (by decide) hname
      exact absurd hmem (hzero heq r)
    | rtt =>
      obtain ⟨hmem, heq⟩ := hids _ (plain_decimal r) hname
      exact absurd heq (hregion r hmem)
    | rttCnt => exact absurd hname (regionRttField_ne_regionRttCntField _ _ _ _)

theorem exists_active (hs : Sound db s) (h : db.enabledVpnIps ≠ []) :
    ∃ ip vpnid, s.hash VPN_ACTIVE_IP_TO_ID_DIC ip = some vpnid := by
  obtain ⟨⟨ip, v⟩, hv⟩ := List.exists_mem_of_ne_nil _ h
  have hactive : (s.hash VPN_ACTIVE_IP_TO_ID_DIC ip).isSome := by
    rw [hs.vpnIps]
    exact (load_vpnIp db).mpr ⟨v, hv⟩
  exact ⟨ip, Option.isSome_iff_exists.mp hactive⟩

theorem regions_of_averagesComplete (hs : Sound db s) (h : AveragesComplete s) :
    RegionsRegistered db := by
  by_cases hnone : db.enabledVpnIps = []
  · exact .inl hnone
  · refine .inr ?_
    intro g hg
    by_contra hregions
    push Not at hregions
    obtain ⟨ip, vpnid, hvpnid⟩ := exists_active hs hnone
    have hgame : Numeral.decimal g ∈ s.set ACTIVE_GAMEID_SET := by
      rw [hs.activeGameids]
      exact (mem_activeGameids db).mpr ⟨g, hg, rfl⟩
    obtain ⟨n, hn⟩ := h ip vpnid hvpnid _ hgame "0" (.inl rfl)
    rw [no_average hs (by decide) (fun r hr => absurd hr (hregions r))
      (fun _ => hregions) vpnid] at hn
    cases hn

/-- A stored average as the choice reads it. -/
theorem average_of_decimal {gameid regionid : Double} {vpnid : String} {n : Int}
    (h : s.hash (avaRegionKey vpnid)
      (regionRttField (numberText gameid) (numberText regionid)) = some (Numeral.decimal n)) :
    ∃ ava, average s gameid regionid vpnid = some ava ∧
      ava.extended = some (Rounding.round n) := by
  obtain ⟨ava, hava, hvalue⟩ := Value.tonumber_of_extended (Value.extended_decimal n)
  refine ⟨ava, ?_, hvalue⟩
  rw [average, h]
  exact hava

/-- The second step stops at most at an entry without an address, when all
averages are there. -/
theorem updateQosRedis_complete {gameid regionid : Double} {items : List FilterItem}
    (h : ∀ item ∈ items, (∃ vpnid ava, item.vpnid = .str vpnid ∧
        average s gameid regionid vpnid = some ava) ∨
      concatText item.vpnid = luaError "attempt to concatenate a non-string value") :
    answer (updateQosRedis gameid regionid items) s =
        .ok (items.map (totalled s gameid regionid)) ∨
      answer (updateQosRedis gameid regionid items) s =
        .error (.error "attempt to concatenate a non-string value") := by
  induction items with
  | nil => exact .inl rfl
  | cons item rest ih =>
    rw [updateQosRedis, answer_bind _ _ s (only_updateItem gameid regionid item)]
    rcases h item List.mem_cons_self with ⟨vpnid, ava, hvpnid, hava⟩ | hnone
    · rw [answer_updateItem hvpnid hava]
      show answer (updateQosRedis gameid regionid rest >>= _) s = _ ∨
        answer (updateQosRedis gameid regionid rest >>= _) s = _
      rw [answer_bind _ _ s (only_updateQosRedis gameid regionid rest)]
      rcases ih (fun item' hitem' => h item' (List.mem_cons_of_mem item hitem')) with hok | herror
      · rw [hok]
        exact .inl rfl
      · rw [herror]
        exact .inr rfl
    · rw [answer_updateItem_no_id hnone]
      exact .inr rfl

/-- A request for region 0 finds no field where it writes the region as -0, or
where the game has no region. -/
theorem no_average_zero (hs : Sound db s) {g : Int} {regionid : Double}
    (hzero : regionid.rat = some 0)
    (h : ¬(numberText regionid ≠ "-0" ∧ ∃ r, r ∈ db.regionids g)) (vpnid : String) :
    s.hash (avaRegionKey vpnid)
      (regionRttField (Numeral.decimal g) (numberText regionid)) = none := by
  rcases Double.text_of_rat_zero hzero with htext | htext
  · have hregions : ∀ r, r ∉ db.regionids g := by
      intro r hr
      refine h ⟨?_, r, hr⟩
      rw [numberText, htext]
      decide
    rw [numberText, htext]
    exact no_average hs (by decide) (fun r hr => absurd hr (hregions r))
      (fun _ => hregions) vpnid
  · rw [numberText, htext]
    refine no_average hs (by decide) ?_ (fun h => absurd h (by decide)) vpnid
    intro r _ heq
    have hread := Numeral.readInt_decimal r
    rw [← heq] at hread
    obtain rfl : 0 = r := Option.some.inj hread
    exact absurd heq (by decide)

/-- A request that names a node without an average fails on it. -/
theorem not_neverMissing {gameid regionid : Double} (haccepts : Accepts s gameid regionid)
    {ip vpnid : String} (hvpnid : s.hash VPN_ACTIVE_IP_TO_ID_DIC ip = some vpnid)
    (hava : average s gameid regionid vpnid = none) : ¬NeverMissing s gameid regionid := by
  intro hnever
  let w : Qos := ⟨.str ip, .num 0, .num 40⟩
  have hitems : activeItems .refusal s [w] = [activeItem w (.str vpnid)] := by
    simp [w, activeItems, activeItem?_of_ip, Value.tostring, hvpnid]
  have haccepted := answer_filterQosRedis .refusal haccepts [w]
  rw [hitems] at haccepted
  apply hnever _ _ _ haccepted
  have hitem := answer_updateItem_missing (v := activeItem w (.str vpnid)) rfl rfl hava
  rw [updateQosRedis, answer_bind _ _ _ (only_updateItem gameid regionid _), hitem]

/-- An accepted request that does not write region 0 as -0 finds the average of
every enabled node, when its game has a region. -/
theorem stored_average (hs : Sound db s) {node g : Int} {gameid regionid : Double}
    (hnode : node ∈ db.nodeids) (hgame : numberText gameid = Numeral.decimal g)
    (hregion : regionid.rat = some 0 ∨
      ∃ r, r ∈ db.regionids g ∧ numberText regionid = Numeral.decimal r)
    (hzero : regionid.rat = some 0 → numberText regionid ≠ "-0" ∧ ∃ r, r ∈ db.regionids g) :
    ∃ ava, average s gameid regionid (Numeral.decimal node) = some ava := by
  have hstored : ∃ n : Int, s.hash (avaRegionKey (Numeral.decimal node))
      (regionRttField (numberText gameid) (numberText regionid)) =
        some (Numeral.decimal n) := by
    rw [hgame]
    by_cases hrat : regionid.rat = some 0
    · obtain ⟨hwritten, r, hr⟩ := hzero hrat
      have htext : numberText regionid = "0" :=
        (Double.text_of_rat_zero hrat).resolve_right hwritten
      rw [htext]
      exact hs.average node g r _ ⟨hnode, hr⟩ .rttRegion0
    · obtain ⟨r, hr, htext⟩ := hregion.resolve_left hrat
      rw [htext]
      exact hs.average node g r _ ⟨hnode, hr⟩ .rtt
  obtain ⟨n, hn⟩ := hstored
  obtain ⟨ava, hava, _⟩ := average_of_decimal hn
  exact ⟨ava, hava⟩

/-- A request without a missing average: no node is enabled, or its game is not,
or its region is one of the game's, or it is 0, not written as -0, and the game
has a region. -/
theorem neverMissing_iff (hs : Sound db s) {gameid regionid : Double} :
    NeverMissing s gameid regionid ↔ db.enabledVpnIps = [] ∨ ∀ g, db.Enabled g →
      numberText gameid = Numeral.decimal g → regionid.rat = some 0 →
        numberText regionid ≠ "-0" ∧ ∃ r, r ∈ db.regionids g := by
  constructor
  · intro hnever
    by_cases hnone : db.enabledVpnIps = []
    · exact .inl hnone
    refine .inr ?_
    intro g hg hgame hzero
    by_contra hfails
    obtain ⟨ip, vpnid, hvpnid⟩ := exists_active hs hnone
    have haccepts : Accepts s gameid regionid :=
      (accepts_iff hs).mpr ⟨g, hg, hgame, .inl hzero⟩
    have hava : average s gameid regionid vpnid = none := by
      rw [average, hgame, no_average_zero hs hzero hfails]
      rfl
    exact not_neverMissing haccepts hvpnid hava hnever
  · intro hcondition keyless qoslst filterqos haccepted
    obtain ⟨haccepts, rfl⟩ := accepts_of_filterQosRedis haccepted
    obtain ⟨g, hg, hgame, hregion⟩ := (accepts_iff hs).mp haccepts
    have hitems : ∀ item ∈ activeItems keyless s qoslst, (∃ vpnid ava, item.vpnid = .str vpnid ∧
          average s gameid regionid vpnid = some ava) ∨
        concatText item.vpnid = luaError "attempt to concatenate a non-string value" := by
      intro item hitem
      obtain ⟨v, _, hactive⟩ := mem_activeItems hitem
      rcases activeItem?_id hactive with ⟨vpnid, hvpnid, hhash⟩ | ⟨_, hnone⟩
      · obtain ⟨node, hnode, rfl⟩ := active_node hs hhash
        have hregions := hcondition.resolve_left (List.ne_nil_of_mem hnode)
        obtain ⟨ava, hava⟩ := stored_average hs (db.node_of_enabledVpnIps hnode) hgame hregion
          (hregions g hg hgame)
        exact .inl ⟨_, ava, hvpnid, hava⟩
      · exact .inr hnone
    rcases updateQosRedis_complete hitems with hok | herror
    · rw [hok]
      simp
    · rw [herror]
      decide

end Complete

/-- After any sequence of calls: the averages the choice reads are all there, and
a request never fails on a missing one, exactly when every enabled game has a
region or no node is enabled, and the request does not write region 0 as -0, or
no node or not its game is enabled. -/
theorem averages_complete_iff {db : Database} {calls : List (Report × CallEnd)} {s : Store}
    (h : History db calls s) (gameid regionid : Double) :
    AveragesComplete s ∧ NeverMissing s gameid regionid ↔
      RegionsRegistered db ∧ (numberText regionid = "-0" → db.enabledVpnIps = [] ∨
        ∀ g, db.Enabled g → numberText gameid ≠ Numeral.decimal g) := by
  rw [neverMissing_iff h.sound]
  constructor
  · rintro ⟨hcomplete, hnever⟩
    refine ⟨regions_of_averagesComplete h.sound hcomplete, ?_⟩
    intro hwritten
    refine hnever.imp_right ?_
    intro hgames g hg hgame
    have hzero : regionid.rat = some 0 := Double.rat_of_text_zero hwritten
    exact (hgames g hg hgame hzero).1 hwritten
  · rintro ⟨hregions, hwritten⟩
    refine ⟨averagesComplete_of_regions h.sound hregions, ?_⟩
    rcases hregions with hnone | hregions
    · exact .inl hnone
    by_cases hminus : numberText regionid = "-0"
    · refine (hwritten hminus).imp_right ?_
      exact fun hgames g hg hgame => absurd hgame (hgames g hg)
    · exact .inr fun g hg _ _ => ⟨hminus, hregions g hg⟩

theorem averages_complete_iff_one_region :
    AveragesComplete (load (oneGame [1])) ∧ NeverMissing (load (oneGame [1])) 5 0 := by
  have hload : History (oneGame [1]) [] (load (oneGame [1])) := .load
  have hzero : numberText 0 = "0" := numberText_int (n := 0) (by decide)
  apply (averages_complete_iff hload 5 0).mpr
  refine ⟨.inr ?_, fun hminus => absurd (hzero.symm.trans hminus) (by decide)⟩
  rintro g ⟨row, hrow, rfl, _⟩
  obtain rfl := List.mem_singleton.mp hrow
  exact ⟨1, by decide⟩

/-- An enabled game without a row in `game_region_tbl`: the averages are not
complete, and an accepted request raises. -/
theorem no_region_raises :
    ¬AveragesComplete (load (oneGame [])) ∧ ¬NeverMissing (load (oneGame [])) 5 0 := by
  have hs := Sound.load (oneGame [])
  have hnone : ∀ r, r ∉ (oneGame []).regionids 5 := fun r => List.not_mem_nil
  have hgame : (oneGame []).Enabled 5 := ⟨_, List.mem_cons_self, rfl, rfl⟩
  have hnodes : (oneGame []).enabledVpnIps ≠ [] := by
    decide
  constructor
  · intro hcomplete
    rcases regions_of_averagesComplete hs hcomplete with hempty | hregions
    · exact hnodes hempty
    · obtain ⟨r, hr⟩ := hregions 5 hgame
      exact hnone r hr
  · rw [neverMissing_iff hs]
    rintro (hempty | hgames)
    · exact hnodes hempty
    · obtain ⟨_, r, hr⟩ := hgames 5 hgame numberText_five (Double.rat_eq_some.mpr extended_zero)
      exact hnone r hr

end GameAcc.Lua.VpnIp
