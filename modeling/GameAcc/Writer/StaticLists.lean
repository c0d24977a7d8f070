import GameAcc.Writer.Loaded
import GameAcc.Writer.RegionLists

/-!
The static lists of a game: one for each registered region, and one for region 0
that joins them.
-/

namespace GameAcc.Writer

open GameAcc.Redis GameAcc.Mysql GameAcc.Text

/-- The static list that is stored for a region. -/
def staticList (db : Database) (gameid regionid : Int) : String :=
  if regionid = 0 then region0Iplststr db gameid else iplststr db gameid regionid

section Stored

variable {db : Database} {g r : Int}

/-- The texts of a region's rows. -/
def addressTexts (db : Database) (gameid regionid : Int) : List String :=
  (db.addresses gameid regionid).map Address.text

/-- The blocks are those of the selections from the tables. -/
theorem initGameRegionIplst_eq (db : Database) :
    initGameRegionIplst db =
      gameRegionCommands db.regionids (addressTexts db) db.gameNameTbl := rfl

theorem listText_eq (db : Database) (gameid regionid : Int) :
    listText db.regionids (addressTexts db) gameid regionid =
      staticList db gameid regionid := rfl

/-- What a block for the game leaves is what the whole load leaves. -/
theorem load_hash_game {key field value : String} (hknown : db.Known g)
    (hkey : key = gameIplstKey (Numeral.decimal g) ∨
      key = gameIplstActiveidKey (Numeral.decimal g))
    (hown : ∀ row : GameName, row.gameId = g →
      lastWrite key field (gameCommands db.regionids (addressTexts db) row) = some value) :
    (load db).hash key field = some value := by
  rw [load_hash, loadCommands, lastWrite_append, initGameRegionIplst_eq,
    gameRegionCommands_game hknown hkey hown, Option.some_or]

theorem load_iplst (hknown : db.Known g) (hregion : r = 0 ∨ r ∈ db.regionids g) :
    (load db).hash (gameIplstKey (Numeral.decimal g))
        (gameIplstKeyField (Numeral.decimal r) initIplstActiveid) =
      some (staticList db g r) := by
  rw [← listText_eq]
  exact load_hash_game hknown (.inl rfl) (fun _ hgame => gameCommands_iplst hgame hregion)

theorem load_iplstActiveid (hknown : db.Known g) (hregion : r = 0 ∨ r ∈ db.regionids g) :
    (load db).hash (gameIplstActiveidKey (Numeral.decimal g))
        (gameIplstActiveidKeyField (Numeral.decimal r)) = some initIplstActiveid :=
  load_hash_game hknown (.inr rfl) (fun _ hgame => gameCommands_activeid hgame hregion)

end Stored

section Addresses

variable (db : Database) (g : Int)

/-- The addresses of a static list, which are those of the rows of the region, or
of all registered regions for region 0. -/
def listed (regionid : Int) : List Address :=
  if regionid = 0 then (db.regionids g).flatMap (db.addresses g)
  else db.addresses g regionid

theorem fields_iplststr (regionid : Int) :
    fields ',' (iplststr db g regionid) = (db.addresses g regionid).map Address.text :=
  fields_texts (db.addresses g regionid)

theorem fields_region0Iplststr :
    fields ',' (region0Iplststr db g) =
      ((db.regionids g).flatMap (db.addresses g)).map Address.text := by
  have hjoined : region0Iplststr db g =
      strip ',' (joined ',' ((db.regionids g).map (iplststr db g))) :=
    region0Text_eq db.regionids (addressTexts db) g
  rw [hjoined, fields_strip, fields_joined, List.flatMap_map, List.map_flatMap]
  exact List.flatMap_congr (fun regionid _ => fields_iplststr db g regionid)

theorem fields_staticList (regionid : Int) :
    fields ',' (staticList db g regionid) = (listed db g regionid).map Address.text := by
  unfold staticList listed
  split
  · exact fields_region0Iplststr db g
  · exact fields_iplststr db g regionid

end Addresses

end GameAcc.Writer
