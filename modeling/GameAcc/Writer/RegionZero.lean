import GameAcc.Writer.RegionLists

/-!
The list of region 0 against the lists of the regions, for rows whose columns
are any texts. The loop puts a comma behind every region's list, also behind an
empty one, and removes commas at the two ends only.
-/

namespace GameAcc.Writer

open GameAcc.Redis GameAcc.Mysql GameAcc.Text

/-- The value of a column as text: not empty, and without a comma. -/
structure ColumnText where
  val : String
  nonempty : val ≠ ""
  free : Free ',' val

/-- A row of the innermost selection. -/
structure IpInfo where
  gameip : ColumnText
  gamemask : ColumnText
  gameport : ColumnText

def IpInfo.ipstr (ipinfo : IpInfo) : String :=
  ipinfo.gameip.val ++ ":" ++ ipinfo.gameport.val ++ "/" ++ ipinfo.gamemask.val

structure ServerRow where
  gameid : Int
  gameregionid : Int
  ipinfo : IpInfo

/-- The tables `init_game_region_iplst` selects from. -/
structure Tables where
  gameNameTbl : List GameName
  gameRegionTbl : List GameRegion
  gameServerTbl : List ServerRow

namespace Tables

variable (t : Tables)

def regionids (gameid : Int) : List Int :=
  (t.gameRegionTbl.filter (fun row => row.gameid = gameid)).map GameRegion.regionid

def iplstresult (gameid regionid : Int) : List IpInfo :=
  (t.gameServerTbl.filter (fun row =>
    row.gameid = gameid ∧ row.gameregionid = regionid)).map ServerRow.ipinfo

def iplstinfo (gameid regionid : Int) : List String :=
  (t.iplstresult gameid regionid).map IpInfo.ipstr

def initGameRegionIplst : List Cmd :=
  gameRegionCommands t.regionids t.iplstinfo t.gameNameTbl

/-- The text that is left under a region of a game. -/
def Stored (gameid regionid : Int) (text : String) : Prop :=
  lastWrite (gameIplstKey (Numeral.decimal gameid))
    (gameIplstKeyField (Numeral.decimal regionid) initIplstActiveid) t.initGameRegionIplst =
      some text

/-- The list the loop writes for a region. -/
def iplststr (gameid regionid : Int) : String := regionText t.iplstinfo gameid regionid

end Tables

theorem IpInfo.ipstr_free (ipinfo : IpInfo) : Free ',' ipinfo.ipstr := by
  have hcolon : Free ',' ":" := by decide
  have hslash : Free ',' "/" := by decide
  exact free_append (free_append (free_append (free_append ipinfo.gameip.free hcolon)
    ipinfo.gameport.free) hslash) ipinfo.gamemask.free

theorem IpInfo.ipstr_ne (ipinfo : IpInfo) : ipinfo.ipstr ≠ "" := by
  intro h
  have hip := ipinfo.gameip.nonempty
  simp [IpInfo.ipstr] at h

section Elements

variable {t : Tables} {g : Int}

theorem elements_iplststr (t : Tables) (g r : Int) :
    elements ',' (t.iplststr g r) = t.iplstinfo g r ∧ Proper ',' (t.iplststr g r) := by
  apply proper_intercalate
  · intro part hpart
    obtain ⟨ipinfo, _, rfl⟩ := List.mem_map.mp hpart
    exact ipinfo.ipstr_free
  · intro part hpart
    obtain ⟨ipinfo, _, rfl⟩ := List.mem_map.mp hpart
    exact ipinfo.ipstr_ne

/-- A list is empty when its region has no rows. -/
theorem isEmpty_iplststr (t : Tables) (g r : Int) :
    isEmpty (t.iplststr g r) = (t.iplstresult g r).isEmpty := by
  have helements := (elements_iplststr t g r).1
  rw [Bool.eq_iff_iff, List.isEmpty_iff, isEmpty, decide_eq_true_eq]
  constructor
  · intro hempty
    rw [hempty, elements_empty] at helements
    exact List.map_eq_nil_iff.mp helements.symm
  · intro hnone
    have hinfo : t.iplstinfo g r = [] := by rw [Tables.iplstinfo, hnone, List.map_nil]
    rw [Tables.iplststr, regionText, hinfo]
    rfl

theorem stored_iplststr {r : Int} (hknown : ∃ row ∈ t.gameNameTbl, row.gameId = g)
    (hregion : r = 0 ∨ r ∈ t.regionids g) :
    t.Stored g r (listText t.regionids t.iplstinfo g r) :=
  gameRegionCommands_game hknown (.inl rfl) (fun _ hgame => gameCommands_iplst hgame hregion)

/-- Only a game of `game_name_tbl` has lists. -/
theorem known_of_stored {r : Int} {text : String} (h : t.Stored g r text) :
    ∃ row ∈ t.gameNameTbl, row.gameId = g := by
  by_contra hunknown
  have hnone : lastWrite (gameIplstKey (Numeral.decimal g))
      (gameIplstKeyField (Numeral.decimal r) initIplstActiveid) t.initGameRegionIplst = none := by
    apply lastWrite_none
    intro value hmem
    obtain ⟨row, hrow, hcmd⟩ := List.mem_flatMap.mp hmem
    have hgame : row.gameId ≠ g := fun heq =>
      hunknown ⟨row, (List.mem_insertionSort _).mp hrow, heq⟩
    have hsome := lastWrite_isSome hcmd
    rw [gameCommands_other hgame _ _ (.inl rfl)] at hsome
    cases hsome
  rw [Tables.Stored, hnone] at h
  cases h

/-- Whatever the tables hold: the list of every other region is what the loop
writes for it, and the elements of region 0 are those of all regions, in their
order, exactly when no region without rows stands between two with rows. -/
theorem region0_elements_iff (t : Tables) (g : Int) {text : String}
    (hstored : t.Stored g 0 text) :
    (∀ r ∈ t.regionids g, r ≠ 0 → t.Stored g r (t.iplststr g r)) ∧
    (∀ r, elements ',' (t.iplststr g r) = (t.iplstresult g r).map IpInfo.ipstr) ∧
    (elements ',' text = (t.regionids g).flatMap (fun r => elements ',' (t.iplststr g r)) ↔
      ¬Between (fun r => (t.iplstresult g r).isEmpty) (t.regionids g)) := by
  have hknown := known_of_stored hstored
  refine ⟨?_, fun r => (elements_iplststr t g r).1, ?_⟩
  · intro r hr hne
    have hlist := stored_iplststr hknown (.inr hr)
    rwa [listText, if_neg hne] at hlist
  · have htext : text = strip ',' (joined ',' ((t.regionids g).map (t.iplststr g))) := by
      have hzero : t.Stored g 0 (listText t.regionids t.iplstinfo g 0) :=
        stored_iplststr hknown (.inl rfl)
      rw [listText, if_pos rfl, region0Text_eq] at hzero
      exact Option.some.inj (hstored.symm.trans hzero)
    have hproper : ∀ part ∈ (t.regionids g).map (t.iplststr g), Proper ',' part := by
      intro part hpart
      obtain ⟨r, _, rfl⟩ := List.mem_map.mp hpart
      exact (elements_iplststr t g r).2
    have hempty : isEmpty ∘ t.iplststr g = fun r => (t.iplstresult g r).isEmpty :=
      funext (isEmpty_iplststr t g)
    rw [htext, ← List.flatMap_map, elements_strip_joined_iff hproper, between_map, hempty]

end Elements

section Example

/-- A row of game 5. -/
def serverIn (regionid : Int) (ip : ColumnText) : ServerRow where
  gameid := 5
  gameregionid := regionid
  ipinfo :=
    { gameip := ip
      gamemask := ⟨"24", by decide, by decide⟩
      gameport := ⟨"8080", by decide, by decide⟩ }

def firstIp : ColumnText := ⟨"10.0.0.2", by decide, by decide⟩

def secondIp : ColumnText := ⟨"10.0.0.3", by decide, by decide⟩

/-- Game 5 with three regions. -/
def threeRegions (gameServerTbl : List ServerRow) : Tables where
  gameNameTbl := [⟨5, 1, 100⟩]
  gameRegionTbl := [⟨5, 1⟩, ⟨5, 2⟩, ⟨5, 3⟩]
  gameServerTbl := gameServerTbl

/-- The last region has no rows. -/
def lastWithout : Tables := threeRegions [serverIn 1 firstIp, serverIn 2 secondIp]

/-- The region in the middle has no rows. -/
def middleWithout : Tables := threeRegions [serverIn 1 firstIp, serverIn 3 secondIp]

theorem lastWithout_concatenated :
    elements ',' "10.0.0.2:8080/24,10.0.0.3:8080/24" =
      (lastWithout.regionids 5).flatMap (fun r => elements ',' (lastWithout.iplststr 5 r)) := by
  have hstored : lastWithout.Stored 5 0 "10.0.0.2:8080/24,10.0.0.3:8080/24" := by
    unfold Tables.Stored
    decide +kernel
  exact (region0_elements_iff lastWithout 5 hstored).2.2.mpr (by decide +kernel)

theorem middleWithout_leaves_gap :
    middleWithout.Stored 5 0 "10.0.0.2:8080/24,,10.0.0.3:8080/24" ∧
    elements ',' "10.0.0.2:8080/24,,10.0.0.3:8080/24" ≠
      (middleWithout.regionids 5).flatMap
        (fun r => elements ',' (middleWithout.iplststr 5 r)) := by
  constructor
  · unfold Tables.Stored
    decide +kernel
  · decide +kernel

end Example

end GameAcc.Writer
