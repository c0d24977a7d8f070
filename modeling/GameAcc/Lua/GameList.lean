import GameAcc.Lua.GameListPort

/-!
`cc_getgamelist.lua`: the answer to command 1, which lists networks without
ports. Its loop is the third copy of the one that cuts a list to
`game_list_percent`. The result sets of the three loops are taken as the server
returns them, with any text in the column of the address.
-/

namespace GameAcc.Lua

open GameAcc.Mysql GameAcc.Text GameAcc.PercentCut

namespace GameList

open GameAcc.Lua.GameListPort (IpList)

structure Self where
  gameid : Double
  regionid : Double

/-- A row of `select distinct gameip,gamemask`. -/
structure Row where
  gameip : String
  gamemask : Int
  deriving DecidableEq

/-- `ip/mask`, the form in which a network is returned. -/
def Row.text (row : Row) : String :=
  row.gameip ++ "/" ++ Numeral.decimal row.gamemask

/-- The loop, and the join of what it takes. -/
def takeRows (maxreturn : ℚ) : Nat → List Row → List String :=
  takeUpTo Row.text maxreturn

def ipinfo (percent : ℚ) (res : List Row) : List String :=
  takeRows ((res.length : ℚ) * percent / 100) 1 res

def ipstr (percent : ℚ) (res : List Row) : String :=
  (String.singleton ',').intercalate (ipinfo percent res)

variable (self : Self) (db : Database)

def selectPercent : ℚ :=
  match db.gameNameTbl.filter (fun row =>
    SelectsId self.gameid row.gameId ∧ row.adminEnable = 1) with
  | [] => 0
  | row :: _ => row.gameListPercent

def selectNetworks : List Row :=
  ((db.gameServerTbl.filter (fun row => SelectsId self.gameid row.gameid ∧
    (self.regionid.rat ≠ some 0 → SelectsId self.regionid row.gameregionid))).map (fun row =>
      { gameip := row.address.gameip.val, gamemask := row.address.gamemask })).eraseDups

def getGameIpList : IpList :=
  let percent := selectPercent self db
  if percent = 0 then .table
  else .text (ipstr percent (selectNetworks self db))

theorem Row.text_ne_empty (row : Row) : row.text ≠ "" := by
  intro h
  have hlist := congrArg String.toList h
  simp [Row.text] at hlist

end GameList

namespace GameListPort

/-- A row of `select distinct gameip,gamemask,gameport`. -/
structure Row where
  gameip : String
  gamemask : Int
  gameport : Int
  deriving DecidableEq

def Row.text (row : Row) : String :=
  row.gameip ++ ":" ++ Numeral.decimal row.gameport ++ "/" ++ Numeral.decimal row.gamemask

def takeRows (maxreturn : ℚ) : Nat → List Row → List String :=
  takeUpTo Row.text maxreturn

def ipinfo (percent : ℚ) (res : List Row) : List String :=
  takeRows ((res.length : ℚ) * percent / 100) 1 res

def ipstr (percent : ℚ) (res : List Row) : String :=
  (String.singleton ',').intercalate (ipinfo percent res)

theorem Row.text_ne_empty (row : Row) : row.text ≠ "" := by
  intro h
  have hlist := congrArg String.toList h
  simp [Row.text] at hlist

/-- An address as the row that the server returns for it. -/
def rowOf (a : Address) : Row where
  gameip := a.gameip.val
  gamemask := a.gamemask
  gameport := a.gameport

theorem takeUpTo_rowOf (maxreturn : ℚ) (counter : Nat) (addresses : List Address) :
    takeUpTo Address.text maxreturn counter addresses =
      takeRows maxreturn counter (addresses.map rowOf) := by
  induction addresses generalizing counter with
  | nil => rfl
  | cons a rest ih =>
    rw [takeUpTo, ih]
    rfl

theorem getGameIpList_eq (self : Self) (db : Database) :
    getGameIpList self db = if selectPercent self db = 0 then .table
      else .text (ipstr (selectPercent self db) ((selectAddresses self db).map rowOf)) := by
  rw [getGameIpList, ipstr, ipinfo, List.length_map, ← takeUpTo_rowOf]

end GameListPort

namespace GameListPortText

/-- The loop of command 7 over any result set is that of command 6. -/
def takeResult (maxreturn : ℚ) : Nat → List GameListPort.Row → List String :=
  takeUpTo GameListPort.Row.text maxreturn

def ipinfo (percent : ℚ) (res : List GameListPort.Row) : List String :=
  takeResult ((res.length : ℚ) * percent / 100) 1 res

def ipstr (percent : ℚ) (res : List GameListPort.Row) : String :=
  (String.singleton ',').intercalate (ipinfo percent res)

theorem takeRows_rowOf (maxreturn : ℚ) (counter : Nat) (addresses : List Address) :
    takeRows maxreturn counter addresses =
      takeResult maxreturn counter (addresses.map GameListPort.rowOf) := by
  rw [takeRows_eq, GameListPort.takeUpTo_rowOf]
  rfl

theorem getGameIpList_ipstr (self : Self) (db : Database) :
    getGameIpList self db = if selectPercent self db = 0 then ""
      else ipstr (selectPercent self db)
        ((selectAddresses self db).map GameListPort.rowOf) := by
  rw [getGameIpList, ipstr, ipinfo, List.length_map, ← takeRows_rowOf]

end GameListPortText

/-- What a loop over `rows` with the rendering `text` has to give at each
percentage: the first rows, each once and in order, so many as the percentage
says, joined by single commas, and the longer list for the higher percentage. -/
structure Cut {Row : Type} (text : Row → String) (rows : List Row)
    (texts : Int → List String) (list : Int → String) : Prop where
  joined : ∀ percent, list percent = (String.singleton ',').intercalate (texts percent)
  nonempty : ∀ percent, ∀ element ∈ texts percent, element ≠ ""
  first : ∀ percent, 1 ≤ percent → texts percent =
    (rows.take (min rows.length
      (max 1 ⌊(rows.length : ℚ) * percent / 100⌋.toNat))).map text
  prefix_of_le : ∀ percent percent', 1 ≤ percent → percent ≤ percent' →
    texts percent <+: texts percent'
  all : ∀ percent, 100 ≤ percent → texts percent = rows.map text

theorem cut_takeUpTo {Row : Type} {text : Row → String} (htext : ∀ row, text row ≠ "")
    (rows : List Row) {texts : Int → List String} {list : Int → String}
    (htexts : ∀ percent, texts percent =
      takeUpTo text ((rows.length : ℚ) * percent / 100) 1 rows)
    (hlist : ∀ percent, list percent =
      (String.singleton ',').intercalate (texts percent)) : Cut text rows texts list := by
  refine ⟨hlist, ?_, ?_, ?_, ?_⟩
  · intro percent element hmem
    rw [htexts, takeUpTo_percent] at hmem
    obtain ⟨row, _, rfl⟩ := List.mem_map.mp hmem
    exact htext row
  · intro percent _
    have hshare : max 1 ⌊(rows.length : ℚ) * percent / 100⌋.toNat =
        share rows.length percent := by
      rw [floor_percent, share]
    rw [htexts, takeUpTo_percent, hshare, List.take_eq_take_min, Nat.min_comm]
  · intro percent percent' _ hle
    rw [htexts, htexts]
    exact takeUpTo_prefix text rows hle
  · intro percent hall
    rw [htexts]
    exact takeUpTo_all text rows hall

/-- The three handlers cut every result set in the same way. -/
theorem percentage_cut :
    (∀ rows, Cut GameList.Row.text rows (fun percent => GameList.ipinfo percent rows)
      (fun percent => GameList.ipstr percent rows)) ∧
    (∀ rows, Cut GameListPort.Row.text rows (fun percent => GameListPort.ipinfo percent rows)
      (fun percent => GameListPort.ipstr percent rows)) ∧
    (∀ rows, Cut GameListPort.Row.text rows
      (fun percent => GameListPortText.ipinfo percent rows)
      (fun percent => GameListPortText.ipstr percent rows)) := by
  refine ⟨fun rows => ?_, fun rows => ?_, fun rows => ?_⟩
  · exact cut_takeUpTo GameList.Row.text_ne_empty rows (fun _ => rfl) (fun _ => rfl)
  · exact cut_takeUpTo GameListPort.Row.text_ne_empty rows (fun _ => rfl) (fun _ => rfl)
  · exact cut_takeUpTo GameListPort.Row.text_ne_empty rows (fun _ => rfl) (fun _ => rfl)

end GameAcc.Lua
