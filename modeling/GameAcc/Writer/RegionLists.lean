import GameAcc.Foundations.Joined
import GameAcc.Writer.RedisInit

/-!
`init_game_region_iplst` for any results of its two selections: the regions of a
game, and the texts of a region's rows. Each list is written under its region,
and the list of region 0 is joined from all of them and written last.
-/

namespace GameAcc.Writer

open GameAcc.Redis GameAcc.Mysql GameAcc.Text

theorem decimal_ne_zero {r : Int} (h : r ≠ 0) : Numeral.decimal r ≠ "0" := by
  intro heq
  have hzero : Numeral.decimal 0 = "0" := rfl
  exact h (decimal_injective (heq.trans hzero.symm))

section Commands

variable (regionids : Int → List Int) (iplstinfo : Int → Int → List String)

def regionText (gameid regionid : Int) : String :=
  (String.singleton ',').intercalate (iplstinfo gameid regionid)

def region0Text (gameid : Int) : String :=
  strip ',' ((regionids gameid).foldl
    (fun acc regionid => acc ++ regionText iplstinfo gameid regionid ++ String.singleton ',') "")

theorem region0Text_eq (gameid : Int) :
    region0Text regionids iplstinfo gameid =
      strip ',' (joined ',' ((regionids gameid).map (regionText iplstinfo gameid))) := by
  rw [region0Text, joined, List.foldl_map]

/-- The list that is left under a region. -/
def listText (gameid regionid : Int) : String :=
  if regionid = 0 then region0Text regionids iplstinfo gameid
  else regionText iplstinfo gameid regionid

def regionCommands (gameid regionid : Int) : List Cmd :=
  let game := Numeral.decimal gameid
  let region := Numeral.decimal regionid
  [.sadd (gameRegionKey game) region,
   .hset (gameIplstKey game) (gameIplstKeyField region initIplstActiveid)
     (regionText iplstinfo gameid regionid),
   .hset (gameIplstActiveidKey game) (gameIplstActiveidKeyField region)
     initIplstActiveid]

def gameCommands (row : GameName) : List Cmd :=
  let game := Numeral.decimal row.gameId
  (if row.adminEnable = 1 then [.sadd ACTIVE_GAMEID_SET game] else []) ++
    (regionids row.gameId).flatMap (regionCommands iplstinfo row.gameId) ++
    [.hset (gameIplstKey game) (gameIplstKeyField "0" initIplstActiveid)
       (region0Text regionids iplstinfo row.gameId),
     .hset (gameIplstActiveidKey game) (gameIplstActiveidKeyField "0")
       initIplstActiveid]

def gameRegionCommands (gameNameTbl : List GameName) : List Cmd :=
  (gameNameTbl.insertionSort (fun a b => a.gameId ≤ b.gameId)).flatMap
    (gameCommands regionids iplstinfo)

end Commands

section Stored

variable {regionids : Int → List Int} {iplstinfo : Int → Int → List String}
  {gameNameTbl : List GameName} {row : GameName} {g r : Int}

theorem regionCommands_iplst (regionid : Int) :
    lastWrite (gameIplstKey (Numeral.decimal g))
        (gameIplstKeyField (Numeral.decimal r) initIplstActiveid)
        (regionCommands iplstinfo g regionid) =
      if regionid = r then some (regionText iplstinfo g regionid) else none := by
  have hkey := (gameIplstKey_ne_gameIplstActiveidKey (Numeral.decimal g)
    (Numeral.decimal g)).symm
  by_cases hregion : regionid = r
  · simp [regionCommands, lastWrite, written, hkey, hregion]
  · have hfield : gameIplstKeyField (Numeral.decimal regionid) initIplstActiveid ≠
        gameIplstKeyField (Numeral.decimal r) initIplstActiveid :=
      fun h => hregion (decimal_injective (gameIplstKeyField_injective _ h))
    simp [regionCommands, lastWrite, written, hkey, hregion, hfield]

theorem regionCommands_activeid (regionid : Int) :
    lastWrite (gameIplstActiveidKey (Numeral.decimal g))
        (gameIplstActiveidKeyField (Numeral.decimal r)) (regionCommands iplstinfo g regionid) =
      if regionid = r then some initIplstActiveid else none := by
  have hkey := gameIplstKey_ne_gameIplstActiveidKey (Numeral.decimal g) (Numeral.decimal g)
  by_cases hregion : regionid = r
  · simp [regionCommands, lastWrite, written, hregion]
  · have hfield : gameIplstActiveidKeyField (Numeral.decimal regionid) ≠
        gameIplstActiveidKeyField (Numeral.decimal r) :=
      fun h => hregion (decimal_injective (gameIplstActiveidKeyField_injective h))
    simp [regionCommands, lastWrite, written, hkey, hregion, hfield]

/-- The block of another game writes nothing here. -/
theorem gameCommands_other (hgame : row.gameId ≠ g) (key field : String)
    (hkey : key = gameIplstKey (Numeral.decimal g) ∨
      key = gameIplstActiveidKey (Numeral.decimal g)) :
    lastWrite key field (gameCommands regionids iplstinfo row) = none := by
  apply lastWrite_none
  intro value hmem
  have hid : Numeral.decimal g ≠ Numeral.decimal row.gameId :=
    fun h => hgame (decimal_injective h).symm
  have hiplst : key ≠ gameIplstKey (Numeral.decimal row.gameId) := by
    rcases hkey with rfl | rfl
    · exact fun h => hid (gameIplstKey_injective h)
    · exact (gameIplstKey_ne_gameIplstActiveidKey _ _).symm
  have hactiveid : key ≠ gameIplstActiveidKey (Numeral.decimal row.gameId) := by
    rcases hkey with rfl | rfl
    · exact gameIplstKey_ne_gameIplstActiveidKey _ _
    · exact fun h => hid (gameIplstActiveidKey_injective h)
  simp only [gameCommands, List.mem_append, List.mem_flatMap, regionCommands,
    List.mem_cons, List.not_mem_nil, or_false, Cmd.hset.injEq, reduceCtorEq,
    hiplst, hactiveid, false_and, and_false, exists_false] at hmem
  split at hmem <;> simp at hmem

/-- A value that every region block leaves alone or ends with. -/
theorem lastWrite_regions {key field value : String} (hregion : r ∈ regionids g)
    (h : ∀ regionid, lastWrite key field (regionCommands iplstinfo g regionid) =
      if regionid = r then some value else none) :
    lastWrite key field ((regionids g).flatMap (regionCommands iplstinfo g)) = some value := by
  apply lastWrite_flatMap
  · intro regionid _
    rw [h]
    by_cases hr : regionid = r
    · exact .inr (if_pos hr)
    · exact .inl (if_neg hr)
  · exact ⟨r, hregion, by rw [h, if_pos rfl]⟩

theorem gameCommands_iplst (hgame : row.gameId = g) (hregion : r = 0 ∨ r ∈ regionids g) :
    lastWrite (gameIplstKey (Numeral.decimal g))
        (gameIplstKeyField (Numeral.decimal r) initIplstActiveid)
        (gameCommands regionids iplstinfo row) = some (listText regionids iplstinfo g r) := by
  subst hgame
  have hkey := (gameIplstKey_ne_gameIplstActiveidKey (Numeral.decimal row.gameId)
    (Numeral.decimal row.gameId)).symm
  rw [gameCommands, lastWrite_append, lastWrite_append]
  by_cases hzero : r = 0
  · subst hzero
    have hfield : Numeral.decimal 0 = "0" := rfl
    simp [lastWrite, written, hkey, hfield, listText]
  · have hfield : gameIplstKeyField "0" initIplstActiveid ≠
        gameIplstKeyField (Numeral.decimal r) initIplstActiveid := by
      intro h
      have hid : "0" = Numeral.decimal r := gameIplstKeyField_injective initIplstActiveid h
      exact decimal_ne_zero hzero hid.symm
    have hregions : lastWrite (gameIplstKey (Numeral.decimal row.gameId))
        (gameIplstKeyField (Numeral.decimal r) initIplstActiveid)
        ((regionids row.gameId).flatMap (regionCommands iplstinfo row.gameId)) =
          some (regionText iplstinfo row.gameId r) := by
      apply lastWrite_regions (hregion.resolve_left hzero)
      intro regionid
      rw [regionCommands_iplst]
      by_cases hr : regionid = r
      · rw [if_pos hr, if_pos hr, hr]
      · rw [if_neg hr, if_neg hr]
    rw [hregions]
    simp [lastWrite, written, hkey, hfield, listText, hzero]

theorem gameCommands_activeid (hgame : row.gameId = g)
    (hregion : r = 0 ∨ r ∈ regionids g) :
    lastWrite (gameIplstActiveidKey (Numeral.decimal g))
        (gameIplstActiveidKeyField (Numeral.decimal r))
        (gameCommands regionids iplstinfo row) = some initIplstActiveid := by
  subst hgame
  have hkey := gameIplstKey_ne_gameIplstActiveidKey (Numeral.decimal row.gameId)
    (Numeral.decimal row.gameId)
  rw [gameCommands, lastWrite_append, lastWrite_append]
  by_cases hzero : r = 0
  · subst hzero
    have hfield : Numeral.decimal 0 = "0" := rfl
    simp [lastWrite, written, hfield]
  · have hfield : gameIplstActiveidKeyField "0" ≠
        gameIplstActiveidKeyField (Numeral.decimal r) := by
      intro h
      have hid : "0" = Numeral.decimal r := gameIplstActiveidKeyField_injective h
      exact decimal_ne_zero hzero hid.symm
    rw [lastWrite_regions (hregion.resolve_left hzero) regionCommands_activeid]
    simp [lastWrite, written, hkey, hfield]

/-- What a block for the game leaves is what all blocks leave. -/
theorem gameRegionCommands_game {key field value : String}
    (hknown : ∃ row ∈ gameNameTbl, row.gameId = g)
    (hkey : key = gameIplstKey (Numeral.decimal g) ∨
      key = gameIplstActiveidKey (Numeral.decimal g))
    (hown : ∀ row : GameName, row.gameId = g →
      lastWrite key field (gameCommands regionids iplstinfo row) = some value) :
    lastWrite key field (gameRegionCommands regionids iplstinfo gameNameTbl) =
      some value := by
  apply lastWrite_flatMap
  · intro row _
    by_cases hgame : row.gameId = g
    · exact .inr (hown row hgame)
    · exact .inl (gameCommands_other hgame key field hkey)
  · obtain ⟨row, hrow, hgame⟩ := hknown
    exact ⟨row, (List.mem_insertionSort _).mpr hrow, hown row hgame⟩

end Stored

end GameAcc.Writer
