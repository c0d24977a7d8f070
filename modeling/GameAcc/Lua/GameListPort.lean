import GameAcc.Lua.GameListStatic

/-!
`cc_getgamelistport.lua`: the answer to command 6, which always comes from
MySQL. Command 7 has a copy of the function. The copies select the same servers
and cut them with the same loop, but only command 6 asks for the percentage of
an enabled game.
-/

namespace GameAcc.Lua.GameListPort

open GameAcc.Mysql GameAcc.Text GameAcc.PercentCut
open GameAcc.Lua.GameListPortText (keptRows firstServer secondServer)

structure Self where
  gameid : Double
  regionid : Double

/-- `data.iplist` of an answer: the empty table it starts with, or a text. -/
inductive IpList where
  | table
  | text (s : String)
  deriving DecidableEq

/-- The text of a list, an empty table counting as the empty text. -/
def IpList.toText : IpList → String
  | .table => ""
  | .text s => s

variable (self : Self) (db : Database)

/-- The rows of the first query. -/
def selectEnabled : List GameName :=
  db.gameNameTbl.filter (fun row => SelectsId self.gameid row.gameId ∧ row.adminEnable = 1)

def selectPercent : ℚ :=
  match selectEnabled self db with
  | [] => 0
  | row :: _ => row.gameListPercent

/-- The rows of the second query. -/
def selectAddresses : List Address :=
  ((db.gameServerTbl.filter (fun row => SelectsId self.gameid row.gameid ∧
    (self.regionid.rat ≠ some 0 → SelectsId self.regionid row.gameregionid))).map
      GameServer.address).eraseDups

def getGameIpList : IpList :=
  let percent := selectPercent self db
  if percent = 0 then .table
  else
    let res := selectAddresses self db
    let maxreturn := (res.length : ℚ) * percent / 100
    .text ((String.singleton ',').intercalate (takeUpTo Address.text maxreturn 1 res))

/-- The percentage of the first of the selected games. -/
def firstPercent : List GameName → Int
  | [] => 0
  | row :: _ => row.gameListPercent

/-- The rows of `game_name_tbl` that command 7 looks at. -/
def selectGames : List GameName :=
  db.gameNameTbl.filter (fun row => SelectsId self.gameid row.gameId)

theorem selectPercent_eq :
    selectPercent self db = firstPercent (selectEnabled self db) := by
  rw [selectPercent]
  cases selectEnabled self db with
  | nil => exact Int.cast_zero.symm
  | cons row rest => rfl

theorem portText_selectPercent_eq (svpninfo : Option GameListPortText.SvpnInfo) :
    GameListPortText.selectPercent ⟨self.gameid, self.regionid, svpninfo⟩ db =
      firstPercent (selectGames self db) := by
  rw [GameListPortText.selectPercent, selectGames]
  cases db.gameNameTbl.filter (fun row => SelectsId self.gameid row.gameId) with
  | nil => exact Int.cast_zero.symm
  | cons row rest => rfl

/-- The rows kept at a percentage, in the form of the common loop. -/
theorem keptRows_eq (rows : Nat) (percent : Int) :
    keptRows rows percent = if percent = 0 then 0 else share rows percent := rfl

theorem getGameIpList_toText :
    (getGameIpList self db).toText = (String.singleton ',').intercalate
      (((selectAddresses self db).take (keptRows (selectAddresses self db).length
        (firstPercent (selectEnabled self db)))).map Address.text) := by
  unfold getGameIpList
  rw [selectPercent_eq, keptRows_eq]
  by_cases hzero : firstPercent (selectEnabled self db) = 0
  · simp [hzero, IpList.toText]
  · have hne : (firstPercent (selectEnabled self db) : ℚ) ≠ 0 := Int.cast_ne_zero.mpr hzero
    simp only [hne, if_false, hzero, IpList.toText, takeUpTo_percent]

theorem portText_getGameIpList (svpninfo : Option GameListPortText.SvpnInfo) :
    GameListPortText.getGameIpList ⟨self.gameid, self.regionid, svpninfo⟩ db =
      (String.singleton ',').intercalate
        (((selectAddresses self db).take (keptRows (selectAddresses self db).length
          (firstPercent (selectGames self db)))).map Address.text) :=
  GameListPortText.getGameIpList_eq (portText_selectPercent_eq self db svpninfo)

/-- Two cuts of one list have the same text when they keep as many rows. -/
theorem cut_texts_iff (rows : List Address) (k k' : Nat) :
    (String.singleton ',').intercalate ((rows.take k).map Address.text) =
        (String.singleton ',').intercalate ((rows.take k').map Address.text) ↔
      min k rows.length = min k' rows.length := by
  rw [← List.take_eq_take_iff]
  constructor
  · intro h
    have hfields := congrArg (fields ',') h
    rw [fields_texts, fields_texts] at hfields
    exact List.map_injective_iff.mpr Address.text_injective hfields
  · intro h
    rw [h]

/-- Commands 6 and 7 answer with the same text exactly when the percentage of
the first enabled row of the game, or 0 without one, keeps as many of the
selected servers as the percentage of its first row. -/
theorem same_text_iff (svpninfo : Option GameListPortText.SvpnInfo) :
    GameListPortText.getGameIpList ⟨self.gameid, self.regionid, svpninfo⟩ db =
        (getGameIpList self db).toText ↔
      min (keptRows (selectAddresses self db).length (firstPercent (selectGames self db)))
          (selectAddresses self db).length =
        min (keptRows (selectAddresses self db).length
          (firstPercent (selectEnabled self db))) (selectAddresses self db).length := by
  rw [portText_getGameIpList, getGameIpList_toText, cut_texts_iff]

/-- Where `game_name_tbl` has one row for the game: the answers differ exactly
when the game is disabled, has servers and has a percentage other than 0. -/
theorem same_kept_iff_of_single {row : GameName} (h : selectGames self db = [row]) :
    min (keptRows (selectAddresses self db).length (firstPercent (selectGames self db)))
          (selectAddresses self db).length =
        min (keptRows (selectAddresses self db).length
          (firstPercent (selectEnabled self db))) (selectAddresses self db).length ↔
      row.adminEnable = 1 ∨ row.gameListPercent = 0 ∨ selectAddresses self db = [] := by
  have henabled : selectEnabled self db =
      (selectGames self db).filter (fun row => row.adminEnable = 1) := by
    rw [selectEnabled, selectGames, List.filter_filter]
    apply List.filter_congr
    intro row _
    simp only [Bool.decide_and, Bool.and_comm]
  rw [henabled, h, ← List.length_eq_zero_iff]
  by_cases hrow : row.adminEnable = 1
  · simp [hrow]
  · simp only [hrow, firstPercent, keptRows_eq, List.filter_cons, decide_false,
      Bool.false_eq_true, if_false, List.filter_nil, if_true, Nat.zero_min, false_or]
    by_cases hzero : row.gameListPercent = 0
    · simp [hzero]
    · have hone : 1 ≤ share (selectAddresses self db).length row.gameListPercent :=
        Nat.le_max_left 1 _
      simp only [hzero, if_false, false_or]
      omega

/-- A disabled game with a region and a server. -/
def disabledGame : Database where
  vpnNodeTbl := []
  vpnNodeIpTbl := []
  gameNameTbl := [{ gameId := 5, adminEnable := 0, gameListPercent := 100 }]
  gameRegionTbl := [{ gameid := 5, regionid := 1 }]
  gameServerTbl := [{ gameid := 5, gameregionid := 1, address := firstServer }]
  gameSpecUserVpnTbl := []

/-- The request of the small database, for command 6. -/
def portRequest : Self := ⟨5, 1⟩

theorem disabledGame_selected : selectAddresses portRequest disabledGame = [firstServer] := by
  decide +kernel

theorem disabledGame_games : selectGames portRequest disabledGame =
    [{ gameId := 5, adminEnable := 0, gameListPercent := 100 }] := by
  apply List.filter_eq_self.mpr
  intro row hrow
  rw [List.mem_singleton.mp hrow]
  decide +kernel

/-- Command 7 lists the servers of a disabled game, command 6 does not. -/
theorem disabled_game_listed :
    GameListPortText.getGameIpList ⟨5, 1, none⟩ disabledGame ≠
      (getGameIpList ⟨5, 1⟩ disabledGame).toText := by
  have hkept := same_kept_iff_of_single portRequest disabledGame disabledGame_games
  have htext := portText_getGameIpList portRequest disabledGame none
  have hlist := getGameIpList_toText portRequest disabledGame
  have hiff := cut_texts_iff (selectAddresses portRequest disabledGame)
    (keptRows (selectAddresses portRequest disabledGame).length
      (firstPercent (selectGames portRequest disabledGame)))
    (keptRows (selectAddresses portRequest disabledGame).length
      (firstPercent (selectEnabled portRequest disabledGame)))
  rw [← htext, ← hlist, hkept, disabledGame_selected] at hiff
  exact hiff.not.mpr (by decide)

end GameAcc.Lua.GameListPort
