import GameAcc.Foundations.Grouping
import GameAcc.Mysql.Database

/-!
`detect_getgameregion.lua`: the games a VPN node is asked to measure, each with
the list of its regions. The rows are grouped by the text of the game's id.
-/

namespace GameAcc.Lua.DetectGameRegion

open GameAcc.Mysql GameAcc.Text GameAcc.Grouping

structure GameItem where
  gameid : Int
  tmpregionlst : List Int
  regioncounter : Nat

/-- `list[index] = value` at an index from 1 up to one behind the end. -/
def setIndex (list : List Int) (index : Nat) (value : Int) : List Int :=
  list.take (index - 1) ++ [value] ++ list.drop index

def newItem (row : GameRegion) : GameItem where
  gameid := row.gameid
  tmpregionlst := []
  regioncounter := 1

def addRegion (gameitem : GameItem) (row : GameRegion) : GameItem :=
  { gameitem with
    tmpregionlst := setIndex gameitem.tmpregionlst gameitem.regioncounter row.regionid
    regioncounter := gameitem.regioncounter + 1 }

def gamelst (res : List GameRegion) : List (String × GameItem) :=
  res.foldl (addRow (fun row => Numeral.decimal row.gameid) newItem addRegion) []

/-- An element of `gamelist` in the response, as it is decoded again. -/
structure DetectGame where
  gameid : Int
  regionlist : String

def GameItem.detectGame (gameitem : GameItem) : DetectGame where
  gameid := gameitem.gameid
  regionlist := (String.singleton ',').intercalate (gameitem.tmpregionlst.map Numeral.decimal)

/-- The second loop visits the table in no particular order. -/
def IsGamelist (res : List GameRegion) (gamelist : List DetectGame) : Prop :=
  gamelist.Perm ((gamelst res).map (fun entry => entry.2.detectGame))

/-- The invariant of an item: the counter is one behind its regions. -/
structure GameItem.Fits (key : String) (gameitem : GameItem) : Prop where
  key_eq : key = Numeral.decimal gameitem.gameid
  counter_eq : gameitem.regioncounter = gameitem.tmpregionlst.length + 1
  regions : gameitem.tmpregionlst ≠ []

/-- The pairs an item stands for. -/
def GameItem.pairs (gameitem : GameItem) : List (Int × Int) :=
  gameitem.tmpregionlst.map (fun regionid => (gameitem.gameid, regionid))

def pair (row : GameRegion) : Int × Int := (row.gameid, row.regionid)

theorem setIndex_behind (list : List Int) (value : Int) :
    setIndex list (list.length + 1) value = list ++ [value] := by
  simp [setIndex]

theorem addRegion_fits (row : GameRegion) (gameitem : GameItem)
    (h : gameitem = newItem row ∨ gameitem.Fits (Numeral.decimal row.gameid)) :
    (addRegion gameitem row).Fits (Numeral.decimal row.gameid) ∧
      (addRegion gameitem row).pairs = gameitem.pairs ++ [pair row] := by
  have hitem : gameitem.gameid = row.gameid ∧
      gameitem.regioncounter = gameitem.tmpregionlst.length + 1 := by
    rcases h with rfl | h
    · exact ⟨rfl, rfl⟩
    · exact ⟨(decimal_injective h.key_eq).symm, h.counter_eq⟩
  obtain ⟨hgame, hcounter⟩ := hitem
  have hregions : (addRegion gameitem row).tmpregionlst =
      gameitem.tmpregionlst ++ [row.regionid] := by
    rw [addRegion, hcounter, setIndex_behind]
  refine ⟨⟨?_, ?_, ?_⟩, ?_⟩
  · rw [← hgame]
    rfl
  · rw [hregions, List.length_append, List.length_singleton, ← hcounter]
    rfl
  · rw [hregions]
    simp
  · rw [GameItem.pairs, hregions, List.map_append]
    simp only [addRegion, hgame, GameItem.pairs, pair, List.map_cons, List.map_nil]

/-- The items of the table hold each row once. -/
theorem grouped_gamelst (res : List GameRegion) :
    Grouped GameItem.Fits GameItem.pairs pair res (gamelst res) :=
  grouped_foldl (fun _ => rfl) addRegion_fits res

end GameAcc.Lua.DetectGameRegion
