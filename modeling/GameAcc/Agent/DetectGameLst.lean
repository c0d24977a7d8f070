import GameAcc.Agent.Detect
import GameAcc.Lua.DetectGameRegion

/-!
`detectagent.py`: a round over all games and regions. The controller groups the
regions by game and joins each group with commas; the agent splits the groups
again and detects region after region, whatever became of the regions before.
-/

namespace GameAcc.Agent

open GameAcc.Mysql GameAcc.Text GameAcc.Grouping GameAcc.Lua.DetectGameRegion

/-- The calls of `detectregion` in a round so far, and the dictionary of the
round. -/
structure Round where
  calls : List (Int × String)
  ipDetectData : Dict

def Round.start : Round := ⟨[], ∅⟩

section Loops

variable (detectregion : Round → Int → String → Dict)

/-- The body of the inner loop. -/
def detectPair (gameid : Int) (round : Round) (regionid : String) : Round :=
  let result := detectregion round gameid regionid
  { calls := round.calls ++ [(gameid, regionid)]
    ipDetectData :=
      if result.entries = [] then round.ipDetectData
      else round.ipDetectData.update result }

/-- The body of the outer loop. -/
def detectGame (round : Round) (gameitem : DetectGame) : Round :=
  (split ',' gameitem.regionlist).foldl (detectPair detectregion gameitem.gameid) round

def detectgamelst (gamelst : List DetectGame) : Round :=
  gamelst.foldl (detectGame detectregion) .start

/-- The pairs of an element of the list. -/
def gamePairs (gameitem : DetectGame) : List (Int × String) :=
  (split ',' gameitem.regionlist).map (fun regionid => (gameitem.gameid, regionid))

/-- The calls of a round, one after the other. -/
def detectPairs (pairs : List (Int × String)) (round : Round) : Round :=
  pairs.foldl (fun round pair => detectPair detectregion pair.1 round pair.2) round

theorem detectGame_pairs (round : Round) (gameitem : DetectGame) :
    detectGame detectregion round gameitem =
      detectPairs detectregion (gamePairs gameitem) round := by
  rw [detectGame, detectPairs, gamePairs, List.foldl_map]

/-- A round calls `detectregion` on the pairs of the list, one after the other. -/
theorem detectgamelst_pairs (gamelst : List DetectGame) :
    detectgamelst detectregion gamelst =
      detectPairs detectregion (gamelst.flatMap gamePairs) .start := by
  rw [detectgamelst, detectPairs, List.foldl_flatMap]
  congr 1
  funext round gameitem
  exact detectGame_pairs detectregion round gameitem

theorem detectPairs_calls (pairs : List (Int × String)) (round : Round) :
    (detectPairs detectregion pairs round).calls = round.calls ++ pairs := by
  unfold detectPairs
  induction pairs generalizing round with
  | nil => simp
  | cons pair rest ih =>
    rw [List.foldl_cons, ih, detectPair, List.append_assoc]
    rfl

theorem detectgamelst_calls (gamelst : List DetectGame) :
    (detectgamelst detectregion gamelst).calls = gamelst.flatMap gamePairs := by
  rw [detectgamelst_pairs, detectPairs_calls]
  rfl

end Loops

/-- The pair a row of `game_region_tbl` is called with. -/
def rowCall (row : GameRegion) : Int × String :=
  (row.gameid, Numeral.decimal row.regionid)

/-- An item's regions are read back from its text. -/
theorem gamePairs_detectGame {key : String} {gameitem : GameItem} (h : gameitem.Fits key) :
    gamePairs gameitem.detectGame =
      gameitem.pairs.map (fun p => (p.1, Numeral.decimal p.2)) := by
  have hsplit : split ',' gameitem.detectGame.regionlist =
      gameitem.tmpregionlst.map Numeral.decimal := by
    apply split_intercalate
    · intro part hpart
      obtain ⟨regionid, _, rfl⟩ := List.mem_map.mp hpart
      exact free_decimal regionid (by decide) (by decide)
    · simpa using h.regions
  rw [gamePairs, hsplit, GameItem.pairs, List.map_map, List.map_map]
  rfl

/-- The calls of a round are the rows of the table, in some order. -/
theorem calls_perm (detectregion : Round → Int → String → Dict) {res : List GameRegion}
    {gamelist : List DetectGame} (hgamelist : IsGamelist res gamelist) :
    (detectgamelst detectregion gamelist).calls.Perm (res.map rowCall) := by
  have hgrouped := grouped_gamelst res
  have hitems : ((gamelst res).map (fun entry => entry.2.detectGame)).flatMap gamePairs =
      ((gamelst res).flatMap (fun entry => entry.2.pairs)).map
        (fun p => (p.1, Numeral.decimal p.2)) := by
    rw [List.flatMap_map, List.map_flatMap]
    apply List.flatMap_congr
    intro entry hentry
    exact gamePairs_detectGame (hgrouped.fits entry hentry)
  have hlist := hgamelist.flatMap_right gamePairs
  have hrows := hgrouped.contents.map (fun p => (p.1, Numeral.decimal p.2))
  rw [hitems] at hlist
  rw [List.map_map] at hrows
  rw [detectgamelst_calls]
  exact hlist.trans hrows

theorem rowCall_injective : Function.Injective rowCall := by
  intro row row' h
  obtain ⟨hgame, hregion⟩ := Prod.mk.inj h
  obtain ⟨gameid, regionid⟩ := row
  obtain ⟨gameid', regionid'⟩ := row'
  exact GameRegion.mk.injEq .. ▸ ⟨hgame, decimal_injective hregion⟩

/-- A round calls `detectregion` once for each row of the table and for nothing
else, in whatever order the rows are returned and the groups are visited, and
whatever the calls return. -/
theorem each_region_once {db : Database} (hrows : db.gameRegionTbl.Nodup)
    {res : List GameRegion} (hres : res.Perm db.gameRegionTbl)
    {gamelist : List DetectGame} (hgamelist : IsGamelist res gamelist)
    (detectregion : Round → Int → String → Dict) :
    (∀ row ∈ db.gameRegionTbl, (detectgamelst detectregion gamelist).calls.count
        (row.gameid, Numeral.decimal row.regionid) = 1) ∧
      ∀ call ∈ (detectgamelst detectregion gamelist).calls, ∃ row ∈ db.gameRegionTbl,
        call = (row.gameid, Numeral.decimal row.regionid) := by
  have hperm : (detectgamelst detectregion gamelist).calls.Perm
      (db.gameRegionTbl.map rowCall) :=
    (calls_perm detectregion hgamelist).trans (hres.map rowCall)
  constructor
  · intro row hrow
    rw [hperm.count_eq]
    exact List.count_eq_one_of_mem (hrows.map rowCall_injective)
      (List.mem_map_of_mem (f := rowCall) hrow)
  · intro call hcall
    obtain ⟨row, hrow, rfl⟩ := List.mem_map.mp (hperm.mem_iff.mp hcall)
    exact ⟨row, hrow, rfl⟩

/-- A table whose rows alternate between two games. -/
def alternating : Database where
  vpnNodeTbl := []
  vpnNodeIpTbl := []
  gameNameTbl := []
  gameRegionTbl := [⟨5, 1⟩, ⟨7, 1⟩, ⟨5, 2⟩]
  gameServerTbl := []
  gameSpecUserVpnTbl := []

theorem each_region_once_alternating :
    (detectgamelst (fun _ _ _ => ∅)
      ((gamelst alternating.gameRegionTbl).map (fun entry => entry.2.detectGame))).calls.count
        (5, Numeral.decimal 2) = 1 :=
  (each_region_once (by simp [alternating] : alternating.gameRegionTbl.Nodup) (List.Perm.refl _)
    (List.Perm.refl _) _).1 ⟨5, 2⟩ (by simp [alternating])

end GameAcc.Agent
