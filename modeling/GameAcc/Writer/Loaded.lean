import GameAcc.Writer.RedisInit

/-!
What the store holds after `redis_init`. Every field of the averages starts at
zero and every activeid at minus one; both exist exactly for the triples MySQL
registers. No buffer exists yet.
-/

namespace GameAcc.Writer

open GameAcc.Redis GameAcc.Mysql GameAcc.Text

section Commands

variable {db : Database} {key field value member : String}

theorem hset_mem_initVpnInfo :
    .hset key field value ∈ initVpnInfo db ↔
      key = VPN_ACTIVE_IP_TO_ID_DIC ∧
        ∃ vpnid, (field, vpnid) ∈ db.enabledVpnIps ∧
          value = Numeral.decimal vpnid := by
  rw [initVpnInfo, List.mem_map]
  constructor
  · rintro ⟨⟨ip, vpnid⟩, hmem, heq⟩
    obtain ⟨rfl, rfl, rfl⟩ := Cmd.hset.inj heq
    exact ⟨rfl, vpnid, hmem, rfl⟩
  · rintro ⟨rfl, vpnid, hmem, rfl⟩
    exact ⟨(field, vpnid), hmem, rfl⟩

/-- The writes of one registered triple. -/
inductive DetectWrite (vpnid gameid regionid : Int) : String → String → String → Prop
  | rttRegion0 : DetectWrite vpnid gameid regionid
      (avaRegionKey (Numeral.decimal vpnid))
      (regionRttField (Numeral.decimal gameid) "0") "0"
  | rtt : DetectWrite vpnid gameid regionid
      (avaRegionKey (Numeral.decimal vpnid))
      (regionRttField (Numeral.decimal gameid) (Numeral.decimal regionid)) "0"
  | rttCnt : DetectWrite vpnid gameid regionid
      (avaRegionKey (Numeral.decimal vpnid))
      (regionRttCntField (Numeral.decimal gameid) (Numeral.decimal regionid)) "0"
  | activeid : DetectWrite vpnid gameid regionid
      (activeidKey (Numeral.decimal vpnid))
      (activeidField (Numeral.decimal gameid) (Numeral.decimal regionid)) "-1"

theorem hset_mem_initVpnDetectInfo :
    .hset key field value ∈ initVpnDetectInfo db ↔
      ∃ vpnid gameid regionid, db.Registered vpnid gameid regionid ∧
        DetectWrite vpnid gameid regionid key field value := by
  rw [initVpnDetectInfo, List.mem_flatMap]
  constructor
  · rintro ⟨vpnid, hnode, hmem⟩
    obtain ⟨gameid, hgame, hmem⟩ := List.mem_flatMap.mp hmem
    rcases List.mem_cons.mp hmem with heq | hmem
    · obtain ⟨regionid, hregion⟩ := db.mem_regionGameids.mp hgame
      obtain ⟨rfl, rfl, rfl⟩ := Cmd.hset.inj heq
      exact ⟨vpnid, gameid, regionid, ⟨hnode, hregion⟩, .rttRegion0⟩
    · obtain ⟨regionid, hregion, hmem⟩ := List.mem_flatMap.mp hmem
      have hregion := (List.mem_insertionSort _).mp hregion
      refine ⟨vpnid, gameid, regionid, ⟨hnode, hregion⟩, ?_⟩
      simp only [List.mem_cons, Cmd.hset.injEq, List.not_mem_nil, or_false] at hmem
      rcases hmem with ⟨rfl, rfl, rfl⟩ | ⟨rfl, rfl, rfl⟩ | ⟨rfl, rfl, rfl⟩
      · exact .rtt
      · exact .rttCnt
      · exact .activeid
  · rintro ⟨vpnid, gameid, regionid, hreg, hwrite⟩
    have hgame := db.mem_regionGameids.mpr ⟨regionid, hreg.region⟩
    refine ⟨vpnid, hreg.node, List.mem_flatMap.mpr ⟨gameid, hgame, ?_⟩⟩
    have hregion : regionid ∈ (db.regionids gameid).insertionSort (· ≤ ·) :=
      (List.mem_insertionSort _).mpr hreg.region
    cases hwrite with
    | rttRegion0 => exact List.mem_cons_self
    | rtt =>
      exact List.mem_cons_of_mem _ (List.mem_flatMap.mpr ⟨regionid, hregion, by simp⟩)
    | rttCnt =>
      exact List.mem_cons_of_mem _ (List.mem_flatMap.mpr ⟨regionid, hregion, by simp⟩)
    | activeid =>
      exact List.mem_cons_of_mem _ (List.mem_flatMap.mpr ⟨regionid, hregion, by simp⟩)

theorem hset_mem_initGameRegionIplst_key
    (h : .hset key field value ∈ initGameRegionIplst db) :
    ∃ game, key = gameIplstKey game ∨ key = gameIplstActiveidKey game := by
  obtain ⟨row, _, hmem⟩ := List.mem_flatMap.mp h
  refine ⟨Numeral.decimal row.gameId, ?_⟩
  simp only [initGameIplst, List.mem_append, List.mem_flatMap, initRegionIplst,
    List.mem_cons, List.not_mem_nil, or_false, Cmd.hset.injEq, reduceCtorEq,
    false_or] at h hmem
  rcases hmem with (hmem | ⟨_, _, h | h⟩) | (h | h)
  · split at hmem <;> simp at hmem
  · exact .inl h.1
  · exact .inr h.1
  · exact .inl h.1
  · exact .inr h.1

theorem sadd_mem_loadCommands :
    .sadd key member ∈ loadCommands db ↔
      ∃ row ∈ db.gameNameTbl,
        (key = ACTIVE_GAMEID_SET ∧ member = Numeral.decimal row.gameId ∧
          row.adminEnable = 1) ∨
        (key = gameRegionKey (Numeral.decimal row.gameId) ∧
          ∃ regionid ∈ db.regionids row.gameId, member = Numeral.decimal regionid) := by
  have hfirst : Cmd.sadd key member ∉ initRedisOptions ++ initSpecUserToSpecVpnip db ++
      initVpnInfo db ++ initVpnDetectInfo db := by
    simp [initRedisOptions, initSpecUserToSpecVpnip, initVpnInfo, initVpnDetectInfo]
  rw [loadCommands, List.mem_append, or_iff_right hfirst, initGameRegionIplst,
    List.mem_flatMap]
  constructor
  · rintro ⟨row, hrow, hmem⟩
    refine ⟨row, (List.mem_insertionSort _).mp hrow, ?_⟩
    simp only [initGameIplst, List.mem_append, List.mem_flatMap, initRegionIplst,
      List.mem_cons, List.not_mem_nil, or_false, Cmd.sadd.injEq, reduceCtorEq] at hmem
    rcases hmem with hmem | ⟨regionid, hregion, hkey, hmember⟩
    · split at hmem
      · obtain ⟨hkey, hmember⟩ := by simpa using hmem
        exact .inl ⟨hkey, hmember, by assumption⟩
      · cases hmem
    · exact .inr ⟨hkey, regionid, hregion, hmember⟩
  · rintro ⟨row, hrow, h⟩
    refine ⟨row, (List.mem_insertionSort _).mpr hrow, ?_⟩
    rcases h with ⟨rfl, rfl, henable⟩ | ⟨rfl, regionid, hregion, rfl⟩
    · simp [initGameIplst, henable]
    · simp only [initGameIplst, List.mem_append, List.mem_flatMap]
      exact .inl (.inr ⟨regionid, hregion, by simp [initRegionIplst]⟩)

theorem loadCommands_writes (db : Database) : ∀ c ∈ loadCommands db, Writes c := by
  intro c hc
  simp only [loadCommands, List.mem_append] at hc
  rcases hc with (((hc | hc) | hc) | hc) | hc
  · obtain rfl := List.mem_singleton.mp hc
    exact .hset _ _ _
  · obtain ⟨_, _, rfl⟩ := List.mem_map.mp hc
    exact .hset _ _ _
  · obtain ⟨_, _, rfl⟩ := List.mem_map.mp hc
    exact .hset _ _ _
  · obtain ⟨_, _, hc⟩ := List.mem_flatMap.mp hc
    obtain ⟨_, _, hc⟩ := List.mem_flatMap.mp hc
    rcases List.mem_cons.mp hc with rfl | hc
    · exact .hset _ _ _
    · obtain ⟨_, _, hc⟩ := List.mem_flatMap.mp hc
      simp only [List.mem_cons, List.not_mem_nil, or_false] at hc
      rcases hc with rfl | rfl | rfl <;> exact .hset _ _ _
  · obtain ⟨_, _, hc⟩ := List.mem_flatMap.mp hc
    simp only [initGameIplst, List.mem_append, List.mem_flatMap, initRegionIplst,
      List.mem_cons, List.not_mem_nil, or_false] at hc
    rcases hc with (hc | ⟨_, _, rfl | rfl | rfl⟩) | (rfl | rfl)
    · split at hc
      · obtain rfl := List.mem_singleton.mp hc
        exact .sadd _ _
      · cases hc
    · exact .sadd _ _
    all_goals exact .hset _ _ _

end Commands

section Store

variable (db : Database)

theorem load_eq : load db = applyAll (loadCommands db) .empty := rfl

theorem load_hash (key field : String) :
    (load db).hash key field = lastWrite key field (loadCommands db) := by
  rw [load_eq, applyAll_hash (loadCommands_writes db)]
  exact Option.or_none

theorem mem_load_set (key member : String) :
    member ∈ (load db).set key ↔ .sadd key member ∈ loadCommands db := by
  rw [load_eq, mem_applyAll_set (loadCommands_writes db)]
  simp [Store.empty]

/-- Only one of the loader's functions writes a given hash. -/
theorem load_hash_detect {key field : String}
    (hkey : ∃ vpnid, key = avaRegionKey vpnid ∨ key = activeidKey vpnid) :
    (load db).hash key field = lastWrite key field (initVpnDetectInfo db) := by
  obtain ⟨vpnid, hkey⟩ := hkey
  have hlist : lastWrite key field (initGameRegionIplst db) = none := by
    apply lastWrite_none
    intro value hmem
    obtain ⟨game, h | h⟩ := hset_mem_initGameRegionIplst_key hmem <;>
      rcases hkey with rfl | rfl
    · exact gameIplstKey_ne_avaRegionKey game vpnid h.symm
    · exact gameIplstKey_ne_activeidKey game vpnid h.symm
    · exact gameIplstActiveidKey_ne_avaRegionKey game vpnid h.symm
    · exact gameIplstActiveidKey_ne_activeidKey game vpnid h.symm
  have hending : ending key = ["rtt", "ava"] ∨ ending key = ["activeid", "detect"] := by
    rcases hkey with rfl | rfl
    · exact .inl (ending_avaRegionKey vpnid)
    · exact .inr (ending_activeidKey vpnid)
  have hrest : lastWrite key field
      (initRedisOptions ++ initSpecUserToSpecVpnip db ++ initVpnInfo db) = none := by
    apply lastWrite_none
    intro value hmem
    simp only [List.mem_append, hset_mem_initVpnInfo, initRedisOptions,
      initSpecUserToSpecVpnip, List.mem_singleton, List.mem_map, Cmd.hset.injEq] at hmem
    rcases hmem with (⟨rfl, _⟩ | ⟨_, _, rfl, _⟩) | ⟨rfl, _⟩ <;>
      revert hending <;> decide
  rw [load_hash, loadCommands, lastWrite_append, lastWrite_append, hlist, hrest,
    Option.none_or, Option.or_none]

theorem load_activeid {vpnid field value : String} :
    (load db).hash (activeidKey vpnid) field = some value ↔
      value = "-1" ∧ ∃ v g r, db.Registered v g r ∧ vpnid = Numeral.decimal v ∧
        field = activeidField (Numeral.decimal g) (Numeral.decimal r) := by
  rw [load_hash_detect db ⟨vpnid, .inr rfl⟩]
  have hwrite : ∀ x, .hset (activeidKey vpnid) field x ∈ initVpnDetectInfo db ↔
      x = "-1" ∧ ∃ v g r, db.Registered v g r ∧ vpnid = Numeral.decimal v ∧
        field = activeidField (Numeral.decimal g) (Numeral.decimal r) := by
    intro x
    rw [hset_mem_initVpnDetectInfo]
    constructor
    · rintro ⟨v, g, r, hreg, hdetect⟩
      generalize hkey : activeidKey vpnid = key at hdetect
      cases hdetect with
      | activeid => exact ⟨rfl, v, g, r, hreg, activeidKey_injective hkey, rfl⟩
      | _ => exact absurd hkey.symm (avaRegionKey_ne_activeidKey _ _)
    · rintro ⟨rfl, v, g, r, hreg, rfl, rfl⟩
      exact ⟨v, g, r, hreg, .activeid⟩
  constructor
  · intro h
    exact (hwrite value).mp (hset_mem_of_lastWrite h)
  · rintro ⟨rfl, hreg⟩
    exact lastWrite_const ((hwrite "-1").mpr ⟨rfl, hreg⟩)
      (fun x hx => ((hwrite x).mp hx).1)

/-- The fields that hold averages and their counts. -/
inductive AverageField (gameid regionid : Int) : String → Prop
  | rttRegion0 : AverageField gameid regionid
      (regionRttField (Numeral.decimal gameid) "0")
  | rtt : AverageField gameid regionid
      (regionRttField (Numeral.decimal gameid) (Numeral.decimal regionid))
  | rttCnt : AverageField gameid regionid
      (regionRttCntField (Numeral.decimal gameid) (Numeral.decimal regionid))

theorem load_average {vpnid field value : String} :
    (load db).hash (avaRegionKey vpnid) field = some value ↔
      value = "0" ∧ ∃ v g r, db.Registered v g r ∧ vpnid = Numeral.decimal v ∧
        AverageField g r field := by
  rw [load_hash_detect db ⟨vpnid, .inl rfl⟩]
  have hwrite : ∀ x, .hset (avaRegionKey vpnid) field x ∈ initVpnDetectInfo db ↔
      x = "0" ∧ ∃ v g r, db.Registered v g r ∧ vpnid = Numeral.decimal v ∧
        AverageField g r field := by
    intro x
    rw [hset_mem_initVpnDetectInfo]
    constructor
    · rintro ⟨v, g, r, hreg, hdetect⟩
      generalize hkey : avaRegionKey vpnid = key at hdetect
      cases hdetect with
      | rttRegion0 =>
        exact ⟨rfl, v, g, r, hreg, avaRegionKey_injective hkey, .rttRegion0⟩
      | rtt => exact ⟨rfl, v, g, r, hreg, avaRegionKey_injective hkey, .rtt⟩
      | rttCnt => exact ⟨rfl, v, g, r, hreg, avaRegionKey_injective hkey, .rttCnt⟩
      | activeid => exact absurd hkey (avaRegionKey_ne_activeidKey _ _)
    · rintro ⟨rfl, v, g, r, hreg, rfl, hfield⟩
      refine ⟨v, g, r, hreg, ?_⟩
      cases hfield with
      | rttRegion0 => exact .rttRegion0
      | rtt => exact .rtt
      | rttCnt => exact .rttCnt
  constructor
  · intro h
    exact (hwrite value).mp (hset_mem_of_lastWrite h)
  · rintro ⟨rfl, hreg⟩
    exact lastWrite_const ((hwrite "0").mpr ⟨rfl, hreg⟩)
      (fun x hx => ((hwrite x).mp hx).1)

theorem hset_mem_loadCommands_vpnIp {field value : String} :
    .hset VPN_ACTIVE_IP_TO_ID_DIC field value ∈ loadCommands db ↔
      ∃ vpnid, (field, vpnid) ∈ db.enabledVpnIps ∧ value = Numeral.decimal vpnid := by
  have hdetect : .hset VPN_ACTIVE_IP_TO_ID_DIC field value ∉ initVpnDetectInfo db := by
    intro hmem
    obtain ⟨v, g, r, _, hwrite⟩ := hset_mem_initVpnDetectInfo.mp hmem
    generalize hkey : VPN_ACTIVE_IP_TO_ID_DIC = key at hwrite
    cases hwrite with
    | activeid => exact vpnActiveIp_ne_activeidKey _ hkey
    | _ => exact vpnActiveIp_ne_avaRegionKey _ hkey
  have hlist : .hset VPN_ACTIVE_IP_TO_ID_DIC field value ∉ initGameRegionIplst db := by
    intro hmem
    obtain ⟨game, h | h⟩ := hset_mem_initGameRegionIplst_key hmem
    · exact vpnActiveIp_ne_gameIplstKey game h
    · exact vpnActiveIp_ne_gameIplstActiveidKey game h
  have hfirst : .hset VPN_ACTIVE_IP_TO_ID_DIC field value ∉
      initRedisOptions ++ initSpecUserToSpecVpnip db := by
    simp [initRedisOptions, initSpecUserToSpecVpnip, GAME_REDIS_OPTIONS,
      SPEC_USER_TO_SPEC_VPNIP, VPN_ACTIVE_IP_TO_ID_DIC]
  rw [loadCommands, List.mem_append, or_iff_left hlist, List.mem_append,
    or_iff_left hdetect, List.mem_append, or_iff_right hfirst, hset_mem_initVpnInfo]
  simp only [true_and]

/-- `vpn_active_ip_to_id` lists the enabled addresses. -/
theorem load_vpnIp {ip : String} :
    ((load db).hash VPN_ACTIVE_IP_TO_ID_DIC ip).isSome ↔
      ∃ vpnid, (ip, vpnid) ∈ db.enabledVpnIps := by
  rw [load_hash]
  constructor
  · intro h
    obtain ⟨value, hvalue⟩ := Option.isSome_iff_exists.mp h
    obtain ⟨vpnid, hmem, _⟩ :=
      (hset_mem_loadCommands_vpnIp db).mp (hset_mem_of_lastWrite hvalue)
    exact ⟨vpnid, hmem⟩
  · rintro ⟨vpnid, hmem⟩
    exact lastWrite_isSome ((hset_mem_loadCommands_vpnIp db).mpr ⟨vpnid, hmem, rfl⟩)

theorem load_vpnIp_eq {ip value : String}
    (h : (load db).hash VPN_ACTIVE_IP_TO_ID_DIC ip = some value) :
    ∃ vpnid, (ip, vpnid) ∈ db.enabledVpnIps ∧ value = Numeral.decimal vpnid := by
  rw [load_hash] at h
  exact (hset_mem_loadCommands_vpnIp db).mp (hset_mem_of_lastWrite h)

theorem mem_activeGameids {member : String} :
    member ∈ (load db).set ACTIVE_GAMEID_SET ↔
      ∃ g, db.Enabled g ∧ member = Numeral.decimal g := by
  rw [mem_load_set, sadd_mem_loadCommands]
  constructor
  · rintro ⟨row, hrow, ⟨_, rfl, henable⟩ | ⟨hkey, _⟩⟩
    · exact ⟨row.gameId, ⟨row, hrow, rfl, henable⟩, rfl⟩
    · exact absurd hkey.symm (gameRegionKey_ne_activeGameidSet _)
  · rintro ⟨g, ⟨row, hrow, rfl, henable⟩, rfl⟩
    exact ⟨row, hrow, .inl ⟨rfl, rfl, henable⟩⟩

theorem mem_gameRegions {game member : String} :
    member ∈ (load db).set (gameRegionKey game) ↔
      ∃ g r, db.Known g ∧ r ∈ db.regionids g ∧ game = Numeral.decimal g ∧
        member = Numeral.decimal r := by
  rw [mem_load_set, sadd_mem_loadCommands]
  constructor
  · rintro ⟨row, hrow, ⟨hkey, _⟩ | ⟨hkey, regionid, hregion, rfl⟩⟩
    · exact absurd hkey (gameRegionKey_ne_activeGameidSet game)
    · exact ⟨row.gameId, regionid, ⟨row, hrow, rfl⟩, hregion,
        gameRegionKey_injective hkey, rfl⟩
  · rintro ⟨g, r, ⟨row, hrow, rfl⟩, hregion, rfl, rfl⟩
    exact ⟨row, hrow, .inr ⟨rfl, r, hregion, rfl⟩⟩

/-- `game_g_region` of a game that `game_name_tbl` knows lists its regions. -/
theorem mem_gameRegions_known {g : Int} (hknown : db.Known g) {member : String} :
    member ∈ (load db).set (gameRegionKey (Numeral.decimal g)) ↔
      ∃ r ∈ db.regionids g, member = Numeral.decimal r := by
  rw [mem_gameRegions]
  constructor
  · rintro ⟨g', r, _, hregion, hgame, rfl⟩
    rw [decimal_injective hgame]
    exact ⟨r, hregion, rfl⟩
  · rintro ⟨r, hregion, rfl⟩
    exact ⟨g, r, hknown, hregion, rfl, rfl⟩

end Store

/-- The address of the small database's server. -/
def oneAddress : Address where
  gameip := ⟨"1.2.3.4", by decide, by decide⟩
  gamemask := 32
  gameport := 80

/-- A small database: one enabled node and one enabled game with one server. -/
def oneGame (regionids : List Int) : Database where
  vpnNodeTbl := [{ nodeid := 1, enabled := 1 }]
  vpnNodeIpTbl := [{ vpnip := "10.0.0.1", nodeid := 1 }]
  gameNameTbl := [{ gameId := 5, adminEnable := 1, gameListPercent := 100 }]
  gameRegionTbl := regionids.map (fun regionid => { gameid := 5, regionid })
  gameServerTbl := [{ gameid := 5, gameregionid := 1, address := oneAddress }]
  gameSpecUserVpnTbl := []

theorem oneGame_registered {regionids : List Int} {r : Int} (h : r ∈ regionids) :
    (oneGame regionids).Registered 1 5 r := by
  constructor
  · apply (Database.mem_nodeids _).mpr
    exact ⟨⟨1, 1⟩, List.mem_cons_self, rfl⟩
  · apply (Database.mem_regionids _).mpr
    exact ⟨⟨5, r⟩, List.mem_map_of_mem h, rfl, rfl⟩

theorem oneGame_regions {regionids : List Int} {member : String} :
    member ∈ (load (oneGame regionids)).set (gameRegionKey "5") ↔
      ∃ r ∈ regionids, member = Numeral.decimal r := by
  have hknown : (oneGame regionids).Known 5 :=
    ⟨⟨5, 1, 100⟩, List.mem_cons_self, rfl⟩
  have hregion : ∀ r, r ∈ (oneGame regionids).regionids 5 ↔ r ∈ regionids := by
    intro r
    rw [Database.mem_regionids]
    constructor
    · rintro ⟨row, hrow, _, rfl⟩
      obtain ⟨r', hr', rfl⟩ := List.mem_map.mp hrow
      exact hr'
    · intro hr
      exact ⟨⟨5, r⟩, List.mem_map_of_mem hr, rfl, rfl⟩
  rw [show gameRegionKey "5" = gameRegionKey (Numeral.decimal 5) from rfl,
    mem_gameRegions_known (oneGame regionids) hknown]
  simp only [hregion]

theorem oneGame_vpnIp (regionids : List Int) :
    (load (oneGame regionids)).hash VPN_ACTIVE_IP_TO_ID_DIC "10.0.0.1" = some "1" := by
  have hips : (oneGame regionids).enabledVpnIps = [("10.0.0.1", 1)] := rfl
  have hsome := (load_vpnIp (oneGame regionids)).mpr
    ⟨1, by rw [hips]; exact List.mem_singleton_self ("10.0.0.1", (1 : Int))⟩
  obtain ⟨value, hvalue⟩ := Option.isSome_iff_exists.mp hsome
  obtain ⟨vpnid, hmem, rfl⟩ := load_vpnIp_eq (oneGame regionids) hvalue
  rw [hips, List.mem_singleton] at hmem
  obtain rfl := (Prod.mk.inj hmem).2
  exact hvalue

theorem oneGame_active (regionids : List Int) :
    "5" ∈ (load (oneGame regionids)).set ACTIVE_GAMEID_SET :=
  (mem_activeGameids _).mpr ⟨5, ⟨⟨5, 1, 100⟩, List.mem_cons_self, rfl, rfl⟩, rfl⟩

theorem oneGame_average {regionids : List Int} {r : Int} (h : r ∈ regionids) :
    (load (oneGame regionids)).hash (avaRegionKey "1")
      (regionRttField "5" (Numeral.decimal r)) = some "0" :=
  (load_average _).mpr ⟨rfl, 1, 5, r, oneGame_registered h, rfl, .rtt⟩

theorem oneGame_activeid {regionids : List Int} {r : Int} (h : r ∈ regionids) :
    (load (oneGame regionids)).hash (activeidKey "1")
      (activeidField "5" (Numeral.decimal r)) = some "-1" :=
  (load_activeid _).mpr ⟨rfl, 1, 5, r, oneGame_registered h, rfl, rfl⟩

end GameAcc.Writer
