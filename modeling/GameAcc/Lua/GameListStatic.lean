import GameAcc.Foundations.PercentCut
import GameAcc.Lua.Accepted
import GameAcc.Lua.GameListPortText
import GameAcc.Writer.StaticLists

/-!
The two lists without a node: the static one from Redis and the one from MySQL.
They come from different selections. MySQL's is cut to `game_list_percent` and
knows no registered regions; the static one joins the registered regions and is
never cut.
-/

namespace GameAcc.Lua.GameListPortText

open GameAcc.Redis GameAcc.Mysql GameAcc.Writer GameAcc.Text GameAcc.PercentCut

section Static

variable {db : Database} {s : Store} {self : Self}

theorem answer_validateGameRegion {α : Type} (h : Accepts s self.gameid self.regionid)
    (f : Unit → Handler α) : answer (validateGameRegion self >>= f) s = answer (f ()) s := by
  obtain ⟨hactive, hregion⟩ := h
  by_cases hzero : self.regionid.rat = some 0
  · simp [validateGameRegion, Command.Program.bind_assoc, hactive, hzero]
  · simp [validateGameRegion, Command.Program.bind_assoc, hactive, hzero, hregion hzero]

theorem answer_validateGameRegion_rejects {α : Type}
    (h : ¬Accepts s self.gameid self.regionid) (f : Unit → Handler α) :
    answer (validateGameRegion self >>= f) s = .error (.exit MOD_ERR_INVALID_PARAM) := by
  by_cases hactive : numberText self.gameid ∈ s.set ACTIVE_GAMEID_SET
  · have hregion : self.regionid.rat ≠ some 0 ∧
        numberText self.regionid ∉ s.set (gameRegionKey (numberText self.gameid)) := by
      simpa [Accepts, hactive] using h
    simp [validateGameRegion, Command.Program.bind_assoc, hactive, hregion, returnwithcode]
  · simp [validateGameRegion, Command.Program.bind_assoc, hactive, returnwithcode]

/-- An accepted request gets the static list of its region. -/
theorem answer_getGameIpListWithoutSvpnInfo (hs : Sound db s) {g r : Int}
    (hg : db.Enabled g) (hgame : numberText self.gameid = Numeral.decimal g)
    (hregion : numberText self.regionid = Numeral.decimal r)
    (hr : r = 0 ∨ r ∈ db.regionids g) :
    answer (getGameIpListWithoutSvpnInfo self) s = .ok (.str (staticList db g r)) := by
  have haccepts : Accepts s self.gameid self.regionid := by
    apply (accepts_iff hs).mpr
    refine ⟨g, hg, hgame, ?_⟩
    rcases hr with hzero | hr
    · exact .inl ((Double.rat_zero_iff hregion).mpr hzero)
    · exact .inr ⟨r, hr, hregion⟩
  have hactiveid := load_iplstActiveid hg.known hr
  have hiplst := load_iplst hg.known hr
  rw [← hs.iplstActiveid] at hactiveid
  rw [← hs.iplst] at hiplst
  have hnumber : noActiveid (.str initIplstActiveid) = false := by
    decide +kernel
  have hlast : ∀ key field, answer (redisHashGet key field) s =
      .ok (Value.ofReply (s.hash key field)) := by
    intro key field
    have hget := answer_redisHashGet s key field (.done : Value → Handler Value)
    rwa [Command.Program.bind_done] at hget
  rw [getGameIpListWithoutSvpnInfo, answer_validateGameRegion haccepts]
  simp only [hgame, hregion, answer_redisHashGet, hactiveid, Value.ofReply,
    hnumber, Bool.false_eq_true, if_false, concatText, Command.Program.done_bind, hlast,
    hiplst]

end Static

section Selected

variable {self : Self} {db : Database}

/-- How many rows of MySQL's result are returned: none with percentage 0, and
otherwise at least one. -/
def keptRows (rows : Nat) (percent : Int) : Nat :=
  if percent = 0 then 0 else max 1 ((rows : Int) * percent / 100).toNat

theorem takeRows_eq (maxreturn : ℚ) (counter : Nat) (rows : List Address) :
    takeRows maxreturn counter rows = takeUpTo Address.text maxreturn counter rows := by
  induction rows generalizing counter with
  | nil => rfl
  | cons row rest ih => rw [takeRows, takeUpTo, ih]

/-- The list from MySQL is the first rows of the selection. -/
theorem getGameIpList_eq {percent : Int} (hpercent : selectPercent self db = percent) :
    getGameIpList self db = (String.singleton ',').intercalate
      (((selectAddresses self db).take
        (keptRows (selectAddresses self db).length percent)).map Address.text) := by
  unfold getGameIpList keptRows
  rw [hpercent]
  by_cases hzero : percent = 0
  · simp [hzero]
  · have hne : (percent : ℚ) ≠ 0 := Int.cast_ne_zero.mpr hzero
    simp only [hne, if_false, hzero]
    rw [takeRows_eq, takeUpTo_percent, share]

/-- The list from MySQL names selected addresses only. -/
theorem selected_of_getGameIpList {address : String}
    (h : address ∈ fields ',' (getGameIpList self db)) :
    ∃ a ∈ selectAddresses self db, a.text = address := by
  unfold getGameIpList at h
  by_cases hzero : selectPercent self db = 0
  · simp only [if_pos hzero, fields_empty] at h
    cases h
  · simp only [if_neg hzero] at h
    rw [takeRows_eq, takeUpTo_eq _ _ le_rfl, fields_texts] at h
    obtain ⟨a, ha, htext⟩ := List.mem_map.mp h
    exact ⟨a, List.mem_of_mem_take ha, htext⟩

/-- The percentage of a game. -/
def listPercent (db : Database) (gameid : Int) : Int :=
  match db.gameNameTbl.filter (fun row => row.gameId = gameid) with
  | [] => 0
  | row :: _ => row.gameListPercent

theorem selectPercent_eq {g : Int} (hgame : numberText self.gameid = Numeral.decimal g) :
    selectPercent self db = listPercent db g := by
  have hfilter : db.gameNameTbl.filter (fun row => SelectsId self.gameid row.gameId) =
      db.gameNameTbl.filter (fun row => row.gameId = g) := by
    apply List.filter_congr
    intro row _
    simp only [selectsId_iff hgame]
  rw [selectPercent, hfilter, listPercent]
  cases db.gameNameTbl.filter (fun row => row.gameId = g) with
  | nil => exact Int.cast_zero.symm
  | cons row rest => rfl

theorem mem_selectAddresses {a : Address} :
    a ∈ selectAddresses self db ↔ ∃ row ∈ db.gameServerTbl, SelectsId self.gameid row.gameid ∧
      (self.regionid.rat ≠ some 0 → SelectsId self.regionid row.gameregionid) ∧
        row.address = a := by
  simp only [selectAddresses, List.mem_eraseDups, List.mem_map, List.mem_filter,
    decide_eq_true_eq]
  constructor
  · rintro ⟨row, ⟨hrow, hgame, hregion⟩, ha⟩
    exact ⟨row, hrow, hgame, hregion, ha⟩
  · rintro ⟨row, hrow, hgame, hregion, ha⟩
    exact ⟨row, ⟨hrow, hgame, hregion⟩, ha⟩

theorem nodup_eraseDups {α : Type} [DecidableEq α] (l : List α) : l.eraseDups.Nodup := by
  induction l using List.reverseRecOn with
  | nil => exact List.nodup_nil
  | append_singleton l a ih =>
    rw [List.eraseDups_append]
    by_cases ha : a ∈ l
    · simpa [List.removeAll, ha] using ih
    · have hrest : ([a].removeAll l).eraseDups = [a] := by
        simp [List.removeAll, ha, List.eraseDups_cons]
      rw [hrest, List.nodup_append]
      refine ⟨ih, List.nodup_singleton a, ?_⟩
      intro b hb c hc
      obtain rfl := List.mem_singleton.mp hc
      rintro rfl
      exact ha (List.mem_eraseDups.mp hb)

theorem nodup_selectAddresses : (selectAddresses self db).Nodup := nodup_eraseDups _

/-- The listed addresses of a region are among the selected ones. -/
theorem selected_of_listed {g z : Int} {a : Address}
    (hgame : numberText self.gameid = Numeral.decimal g)
    (hregion : numberText self.regionid = Numeral.decimal z) (h : a ∈ listed db g z) :
    a ∈ selectAddresses self db := by
  apply mem_selectAddresses.mpr
  rw [Ne, Double.rat_zero_iff hregion]
  simp only [selectsId_iff hgame, selectsId_iff hregion]
  unfold listed at h
  by_cases hz : z = 0
  · rw [if_pos hz] at h
    obtain ⟨r, _, ha⟩ := List.mem_flatMap.mp h
    obtain ⟨row, hrow, hrowgame, _, haddress⟩ := db.mem_addresses.mp ha
    exact ⟨row, hrow, hrowgame, fun hne => absurd hz hne, haddress⟩
  · rw [if_neg hz] at h
    obtain ⟨row, hrow, hrowgame, hrowregion, haddress⟩ := db.mem_addresses.mp h
    exact ⟨row, hrow, hrowgame, fun _ => hrowregion, haddress⟩

end Selected

section Switch

variable {db : Database} {s : Store} {self : Self} {g z : Int}

/-- Both lists, as the addresses they hold. -/
theorem both_lists (hs : Sound db s) (hg : db.Enabled g) (hz : z = 0 ∨ z ∈ db.regionids g)
    (hself : self.svpninfo = none) (hgame : numberText self.gameid = Numeral.decimal g)
    (hregion : numberText self.regionid = Numeral.decimal z) :
    answer (getGameIpListRedis self) s = .ok (.str (staticList db g z)) ∧
      fields ',' (staticList db g z) = (listed db g z).map Address.text ∧
      fields ',' (getGameIpList self db) =
        ((selectAddresses self db).take
          (keptRows (selectAddresses self db).length (listPercent db g))).map Address.text := by
  refine ⟨?_, fields_staticList db g z, ?_⟩
  · rw [getGameIpListRedis, hself]
    exact answer_getGameIpListWithoutSvpnInfo hs hg hgame hregion hz
  · rw [getGameIpList_eq (selectPercent_eq hgame), fields_texts]

end Switch

/-- For a request without a node: the two lists hold the same addresses exactly
when the rows of MySQL's result that the percentage keeps are those that belong
to the region or, for region 0, to a registered region. -/
theorem same_list_iff {db : Database} {calls : List (Report × CallEnd)} {s : Store}
    (h : History db calls s) {self : Self} {g z : Int} (hg : db.Enabled g)
    (hz : z = 0 ∨ z ∈ db.regionids g) (hself : self.svpninfo = none)
    (hgame : numberText self.gameid = Numeral.decimal g)
    (hregion : numberText self.regionid = Numeral.decimal z) :
    ∃ text, answer (getGameIpListRedis self) s = .ok (.str text) ∧
      ((∀ address, address ∈ fields ',' text ↔
          address ∈ fields ',' (getGameIpList self db)) ↔
        ∀ i a, (selectAddresses self db)[i]? = some a →
          (i < keptRows (selectAddresses self db).length (listPercent db g) ↔
            a ∈ listed db g z)) := by
  obtain ⟨hanswer, hredis, hmysql⟩ := both_lists h.sound hg hz hself hgame hregion
  refine ⟨_, hanswer, ?_⟩
  have hnodup : (selectAddresses self db).Nodup := nodup_selectAddresses
  have hlisted : ∀ a ∈ listed db g z, a ∈ selectAddresses self db :=
    fun _ => selected_of_listed hgame hregion
  rw [hredis, hmysql]
  generalize selectAddresses self db = rows at hnodup hlisted ⊢
  generalize keptRows rows.length (listPercent db g) = kept
  simp only [List.mem_map]
  have htaken : ∀ i a, rows[i]? = some a → (i < kept ↔ a ∈ rows.take kept) := by
    intro i a ha
    obtain ⟨hi, hget⟩ := List.getElem?_eq_some_iff.mp ha
    rw [List.mem_take_iff_getElem]
    constructor
    · intro hkept
      exact ⟨i, lt_min hkept hi, hget⟩
    · rintro ⟨j, hj, hsame⟩
      have hindex : j = i :=
        (hnodup.getElem_inj_iff).mp (hsame.trans hget.symm)
      rw [← hindex]
      exact (lt_min_iff.mp hj).1
  constructor
  · intro hsame i a ha
    rw [htaken i a ha]
    constructor
    · intro hkept
      obtain ⟨b, hb, htext⟩ := (hsame a.text).mpr ⟨a, hkept, rfl⟩
      rwa [← Address.text_injective htext]
    · intro hmem
      obtain ⟨b, hb, htext⟩ := (hsame a.text).mp ⟨a, hmem, rfl⟩
      rwa [← Address.text_injective htext]
  · intro hkept address
    have hmem : ∀ a, a ∈ rows → (a ∈ listed db g z ↔ a ∈ rows.take kept) := by
      intro a ha
      obtain ⟨i, hi, rfl⟩ := List.mem_iff_getElem.mp ha
      have hget := List.getElem?_eq_getElem hi
      rw [← hkept i _ hget]
      exact htaken i _ hget
    constructor
    · rintro ⟨a, ha, htext⟩
      exact ⟨a, (hmem a (hlisted a ha)).mp ha, htext⟩
    · rintro ⟨a, ha, htext⟩
      exact ⟨a, (hmem a (List.mem_of_mem_take ha)).mpr ha, htext⟩

/-- Two servers of a small database. -/
def firstServer : Address where
  gameip := ⟨"10.0.0.2", by decide, by decide⟩
  gamemask := 32
  gameport := 80

def secondServer : Address where
  gameip := ⟨"10.0.0.3", by decide, by decide⟩
  gamemask := 32
  gameport := 80

/-- A game with one region and two servers in it. -/
def twoServers (gameListPercent : Int) : Database where
  vpnNodeTbl := []
  vpnNodeIpTbl := []
  gameNameTbl := [{ gameId := 5, adminEnable := 1, gameListPercent }]
  gameRegionTbl := [{ gameid := 5, regionid := 1 }]
  gameServerTbl := [
    { gameid := 5, gameregionid := 1, address := firstServer },
    { gameid := 5, gameregionid := 1, address := secondServer }]
  gameSpecUserVpnTbl := []

theorem twoServers_enabled (percent : Int) : (twoServers percent).Enabled 5 :=
  ⟨⟨5, 1, percent⟩, List.mem_singleton_self _, rfl, rfl⟩

theorem twoServers_regionids (percent : Int) : (twoServers percent).regionids 5 = [1] := rfl

theorem twoServers_listed (percent : Int) :
    listed (twoServers percent) 5 1 = [firstServer, secondServer] := rfl

/-- A request for region 1 of it. -/
def listRequest : Self := ⟨5, 1, none⟩

theorem listRequest_gameid : numberText listRequest.gameid = Numeral.decimal 5 := by
  decide +kernel

theorem listRequest_regionid : numberText listRequest.regionid = Numeral.decimal 1 := by
  decide +kernel

theorem twoServers_selected (percent : Int) :
    selectAddresses listRequest (twoServers percent) = [firstServer, secondServer] := by
  have hselected : selectAddresses listRequest (twoServers 0) = [firstServer, secondServer] := by
    decide +kernel
  exact hselected

theorem same_list_iff_two_servers :
    ∃ text, answer (getGameIpListRedis listRequest) (load (twoServers 100)) = .ok (.str text) ∧
      ∀ address, address ∈ fields ',' text ↔
        address ∈ fields ',' (getGameIpList listRequest (twoServers 100)) := by
  have hload : History (twoServers 100) [] (load (twoServers 100)) := .load
  obtain ⟨text, hanswer, hiff⟩ := same_list_iff hload (twoServers_enabled 100)
    (.inr (by rw [twoServers_regionids]; exact List.mem_singleton_self 1)) rfl
    listRequest_gameid listRequest_regionid
  refine ⟨text, hanswer, hiff.mpr ?_⟩
  rw [twoServers_selected, twoServers_listed]
  intro i a ha
  obtain ⟨hi, hget⟩ := List.getElem?_eq_some_iff.mp ha
  have hkept : keptRows [firstServer, secondServer].length (listPercent (twoServers 100) 5) = 2 :=
    by decide
  rw [hkept, ← hget]
  exact ⟨fun _ => List.getElem_mem hi, fun _ => hi⟩

/-- With percentage 50 MySQL gives one of the two servers, Redis gives both. -/
theorem percentage_ignored :
    ∃ text, answer (getGameIpListRedis listRequest) (load (twoServers 50)) = .ok (.str text) ∧
      ¬∀ address, address ∈ fields ',' text ↔
        address ∈ fields ',' (getGameIpList listRequest (twoServers 50)) := by
  have hregion : (1 : Int) ∈ (twoServers 50).regionids 5 := by
    rw [twoServers_regionids]
    exact List.mem_singleton_self 1
  obtain ⟨hanswer, hredis, hmysql⟩ := both_lists (Sound.load (twoServers 50))
    (twoServers_enabled 50) (.inr hregion) rfl listRequest_gameid listRequest_regionid
  refine ⟨_, hanswer, ?_⟩
  have hkept : keptRows [firstServer, secondServer].length (listPercent (twoServers 50) 5) = 1 := by
    decide
  rw [hredis, hmysql, twoServers_listed, twoServers_selected, hkept]
  intro hsame
  have hsecond := (hsame secondServer.text).mp (by simp)
  have hone : secondServer.text = firstServer.text := by simpa using hsecond
  have hne : firstServer ≠ secondServer := by decide
  exact hne (Address.text_injective hone).symm

end GameAcc.Lua.GameListPortText
