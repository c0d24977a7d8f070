import GameAcc.Foundations.Grouping
import GameAcc.Lua.Value

/-!
`mi_getgamebriefinfo.lua`, of which the two other customers have copies: the
games with their regions, and under each region its addresses. Three selections
are joined by the texts of the ids, in tables that are keyed while they are
filled and turned into lists at the end.
-/

namespace GameAcc.Lua.GameBriefInfo

open GameAcc.Grouping GameAcc.Text
open scoped List

def ERR_MOD_GETGAMEBRIEF_BASE : Int := -20200

def MOD_ERR_GETREGION : Int := ERR_MOD_GETGAMEBRIEF_BASE - 3

def MOD_ERR_GETBRIEFLIST : Int := ERR_MOD_GETGAMEBRIEF_BASE - 4

def MOD_ERR_GETDETECTLIST : Int := ERR_MOD_GETGAMEBRIEF_BASE - 5

section Rows

structure RegionRow where
  gameId : Int
  gameName : Value
  gameIconUrl : Value
  regionid : Int
  regionname : Value
  ispname : Value

structure BriefRow where
  gameid : Int
  gameregionid : Int
  gameip : Value
  gamemask : Value

structure DetectRow where
  gameid : Int
  gameregionid : Int
  gameip : Value
  gamemask : Value
  gameport : Value

/-- The game and the region of a row. -/
def RegionRow.place (row : RegionRow) : Int × Int := (row.gameId, row.regionid)

def BriefRow.place (row : BriefRow) : Int × Int := (row.gameid, row.gameregionid)

def DetectRow.place (row : DetectRow) : Int × Int := (row.gameid, row.gameregionid)

end Rows

section Items

structure BriefIp where
  briefIp : Value
  briefMask : Value

structure DetectIp where
  detectIp : Value
  detectMask : Value
  detectPort : Value

structure RegionItem where
  regionId : String
  regionName : Value
  ispName : Value
  detectIpList : List DetectIp
  briefIpList : List BriefIp

structure GameItem where
  gameId : Int
  gameName : Value
  gameIconUrl : Value
  regionlist : List (String × RegionItem)

/-- A game when its keyed regions have become a list. -/
structure Game where
  gameId : Int
  gameName : Value
  gameIconUrl : Value
  gameRegionlist : List RegionItem

abbrev Games : Type := List (String × GameItem)

def BriefRow.ipitem (row : BriefRow) : BriefIp := ⟨row.gameip, row.gamemask⟩

def DetectRow.ipitem (row : DetectRow) : DetectIp := ⟨row.gameip, row.gamemask, row.gameport⟩

end Items

section Passes

def newGame (row : RegionRow) : GameItem := ⟨row.gameId, row.gameName, row.gameIconUrl, []⟩

def newRegion (row : RegionRow) : RegionItem where
  regionId := Numeral.decimal row.regionid
  regionName := row.regionname
  ispName := row.ispname
  detectIpList := []
  briefIpList := []

def addRegion (gameitem : GameItem) (row : RegionRow) : GameItem :=
  { gameitem with
    regionlist := assign gameitem.regionlist (Numeral.decimal row.regionid) (newRegion row) }

def getAllRegion (res : Option (List RegionRow)) : Except Int Games :=
  match res with
  | none => .error MOD_ERR_GETREGION
  | some res =>
    .ok (res.foldl (addRow (fun row => Numeral.decimal row.gameId) newGame addRegion) [])

/-- A change of the region under two indexes, where both are there. -/
def attach (gameindex regionindex : String) (change : RegionItem → RegionItem)
    (tmpgamelist : Games) : Games :=
  match tmpgamelist.lookup gameindex with
  | none => tmpgamelist
  | some gameitem =>
    match gameitem.regionlist.lookup regionindex with
    | none => tmpgamelist
    | some regionitem =>
      assign tmpgamelist gameindex
        { gameitem with
          regionlist := assign gameitem.regionlist regionindex (change regionitem) }

/-- The body of the second and the third loop. -/
def attachRow {Row : Type} (place : Row → Int × Int) (insert : RegionItem → Row → RegionItem)
    (tmpgamelist : Games) (row : Row) : Games :=
  attach (Numeral.decimal (place row).1) (Numeral.decimal (place row).2)
    (fun regionitem => insert regionitem row) tmpgamelist

def insertBrief (regionitem : RegionItem) (row : BriefRow) : RegionItem :=
  { regionitem with briefIpList := regionitem.briefIpList ++ [row.ipitem] }

def insertDetect (regionitem : RegionItem) (row : DetectRow) : RegionItem :=
  { regionitem with detectIpList := regionitem.detectIpList ++ [row.ipitem] }

def getbrieflist (res : Option (List BriefRow)) (tmpgamelist : Games) : Except Int Games :=
  match res with
  | none => .error MOD_ERR_GETBRIEFLIST
  | some res => .ok (res.foldl (attachRow BriefRow.place insertBrief) tmpgamelist)

def getdetectlist (res : Option (List DetectRow)) (tmpgamelist : Games) : Except Int Games :=
  match res with
  | none => .error MOD_ERR_GETDETECTLIST
  | some res => .ok (res.foldl (attachRow DetectRow.place insertDetect) tmpgamelist)

/-- A game of the list: its regions stand in any order. -/
structure GameItem.Filtered (gameitem : GameItem) (game : Game) : Prop where
  gameId : game.gameId = gameitem.gameId
  gameName : game.gameName = gameitem.gameName
  gameIconUrl : game.gameIconUrl = gameitem.gameIconUrl
  regions : game.gameRegionlist.Perm (gameitem.regionlist.map Prod.snd)

/-- `filtergamelist` visits both kinds of tables in no particular order. -/
def Filtergamelist (tmpgamelist : Games) (gamelist : List Game) : Prop :=
  ∃ entries, entries.Perm tmpgamelist ∧
    List.Forall₂ (fun entry game => entry.2.Filtered game) entries gamelist

/-- The list when the tables are visited in the order they are kept in. -/
def filtergamelist (tmpgamelist : Games) : List Game :=
  tmpgamelist.map (fun entry =>
    { gameId := entry.2.gameId
      gameName := entry.2.gameName
      gameIconUrl := entry.2.gameIconUrl
      gameRegionlist := entry.2.regionlist.map Prod.snd })

theorem filtergamelist_filtered (tmpgamelist : Games) :
    Filtergamelist tmpgamelist (filtergamelist tmpgamelist) := by
  refine ⟨tmpgamelist, List.Perm.refl _, ?_⟩
  rw [filtergamelist, List.forall₂_map_right_iff, List.forall₂_same]
  intro entry _
  exact ⟨rfl, rfl, rfl, List.Perm.refl _⟩

/-- The three passes. The list is made of what they leave. -/
def process (regions : Option (List RegionRow)) (briefs : Option (List BriefRow))
    (detects : Option (List DetectRow)) : Except Int Games := do
  let tmpgamelist ← getAllRegion regions
  let tmpgamelist ← getbrieflist briefs tmpgamelist
  getdetectlist detects tmpgamelist

end Passes

section Join

/-- The region item of a row: the addresses are those of its game and region, in
the order of the selections. -/
def regionOf (briefs : List BriefRow) (detects : List DetectRow) (row : RegionRow) :
    RegionItem where
  regionId := Numeral.decimal row.regionid
  regionName := row.regionname
  ispName := row.ispname
  detectIpList :=
    (detects.filter (fun detect => detect.place = row.place)).map DetectRow.ipitem
  briefIpList := (briefs.filter (fun brief => brief.place = row.place)).map BriefRow.ipitem

def header (gameitem : GameItem) : Int × Value × Value :=
  (gameitem.gameId, gameitem.gameName, gameitem.gameIconUrl)

def rowHeader (row : RegionRow) : Int × Value × Value :=
  (row.gameId, row.gameName, row.gameIconUrl)

def findRegion (tmpgamelist : Games) (gameindex regionindex : String) : Option RegionItem :=
  (tmpgamelist.lookup gameindex).bind (fun gameitem =>
    gameitem.regionlist.lookup regionindex)

/-- The row with the two indexes. -/
def IsAt (gameindex regionindex : String) (row : RegionRow) : Bool :=
  Numeral.decimal row.gameId = gameindex ∧ Numeral.decimal row.regionid = regionindex

def IsIn (gameindex : String) (row : RegionRow) : Bool :=
  Numeral.decimal row.gameId = gameindex

/-- What the tables hold after a pass: under each index the game of the first
row with it, and under two indexes the item of the row with both. -/
structure Joins (rows : List RegionRow) (item : RegionRow → RegionItem)
    (tmpgamelist : Games) : Prop where
  nodup : (tmpgamelist.map Prod.fst).Nodup
  nodup_regions : ∀ entry ∈ tmpgamelist, (entry.2.regionlist.map Prod.fst).Nodup
  headers : ∀ gameindex, (tmpgamelist.lookup gameindex).map header =
    (rows.find? (IsIn gameindex)).map rowHeader
  regions : ∀ gameindex regionindex, findRegion tmpgamelist gameindex regionindex =
    (rows.find? (IsAt gameindex regionindex)).map item

variable {rows : List RegionRow} {item : RegionRow → RegionItem} {tmpgamelist : Games}

theorem isAt_iff {row : RegionRow} {p : Int × Int} :
    IsAt (Numeral.decimal p.1) (Numeral.decimal p.2) row = true ↔ row.place = p := by
  obtain ⟨g, r⟩ := p
  simp only [IsAt, decide_eq_true_eq, RegionRow.place, Prod.mk.injEq]
  constructor
  · rintro ⟨hgame, hregion⟩
    exact ⟨decimal_injective hgame, decimal_injective hregion⟩
  · rintro ⟨rfl, rfl⟩
    exact ⟨rfl, rfl⟩

theorem Joins.start : Joins [] newRegion [] where
  nodup := List.nodup_nil
  nodup_regions := fun entry hentry => by cases hentry
  headers := fun _ => rfl
  regions := fun _ _ => rfl

theorem findRegion_assign (gameindex gameindex' regionindex : String) (gameitem : GameItem) :
    findRegion (assign tmpgamelist gameindex gameitem) gameindex' regionindex =
      if gameindex' = gameindex then gameitem.regionlist.lookup regionindex
      else findRegion tmpgamelist gameindex' regionindex := by
  rw [findRegion, lookup_assign]
  by_cases h : gameindex' = gameindex
  · rw [if_pos h, if_pos h, Option.bind_some]
  · rw [if_neg h, if_neg h]
    rfl

theorem nodup_regions_assign
    (h : ∀ entry ∈ tmpgamelist, (entry.2.regionlist.map Prod.fst).Nodup)
    {gameindex : String} {gameitem : GameItem}
    (hitem : (gameitem.regionlist.map Prod.fst).Nodup) :
    ∀ entry ∈ assign tmpgamelist gameindex gameitem,
      (entry.2.regionlist.map Prod.fst).Nodup := by
  intro entry hentry
  rcases List.mem_append.mp hentry with hold | hnew
  · exact h entry (List.mem_filter.mp hold).1
  · rw [List.mem_singleton.mp hnew]
    exact hitem

/-- The item a row is added to. -/
theorem Joins.gameitem (h : Joins rows item tmpgamelist) (row : RegionRow) (regionindex : String) :
    let gameindex := Numeral.decimal row.gameId
    let gameitem := (tmpgamelist.lookup gameindex).getD (newGame row)
    (gameitem.regionlist.map Prod.fst).Nodup ∧
      gameitem.regionlist.lookup regionindex = findRegion tmpgamelist gameindex regionindex ∧
      header gameitem = ((rows.find? (IsIn gameindex)).map rowHeader).getD (rowHeader row) := by
  intro gameindex gameitem
  have hheader := h.headers gameindex
  cases hlookup : tmpgamelist.lookup gameindex with
  | none =>
    have hnew : gameitem = newGame row := by
      simp only [gameitem, hlookup, Option.getD_none]
    rw [hlookup, Option.map_none] at hheader
    rw [hnew, findRegion, hlookup, ← hheader]
    exact ⟨List.nodup_nil, rfl, rfl⟩
  | some old =>
    have hold : gameitem = old := by
      simp only [gameitem, hlookup, Option.getD_some]
    have hentry : (gameindex, old) ∈ tmpgamelist := (mem_iff_lookup h.nodup).mpr hlookup
    rw [hlookup, Option.map_some] at hheader
    rw [hold, findRegion, hlookup, ← hheader]
    exact ⟨h.nodup_regions _ hentry, rfl, rfl⟩

/-- A row of a new place adds its region. -/
theorem Joins.addRow (h : Joins rows newRegion tmpgamelist) {row : RegionRow}
    (hnew : ∀ other ∈ rows, other.place ≠ row.place) :
    Joins (rows ++ [row]) newRegion
      (Grouping.addRow (fun row => Numeral.decimal row.gameId) newGame addRegion
        tmpgamelist row) where
  nodup := nodup_keys_assign h.nodup _ _
  nodup_regions := by
    apply nodup_regions_assign h.nodup_regions
    exact nodup_keys_assign (h.gameitem row "").1 _ _
  headers := by
    intro gameindex
    have hitem := (h.gameitem row "").2.2
    rw [Grouping.addRow, lookup_assign, List.find?_append, List.find?_singleton]
    by_cases hgame : gameindex = Numeral.decimal row.gameId
    · subst hgame
      have hadded : ∀ gameitem : GameItem, header (addRegion gameitem row) = header gameitem :=
        fun _ => rfl
      have hin : IsIn (Numeral.decimal row.gameId) row = true := by simp [IsIn]
      rw [if_pos rfl, if_pos hin, Option.map_some, hadded, hitem]
      cases rows.find? (IsIn (Numeral.decimal row.gameId)) <;> rfl
    · have hin : ¬IsIn gameindex row = true := by
        simpa [IsIn] using Ne.symm hgame
      rw [if_neg hgame, if_neg hin, Option.or_none]
      exact h.headers gameindex
  regions := by
    intro gameindex regionindex
    have hitem := (h.gameitem row regionindex).2.1
    rw [Grouping.addRow, findRegion_assign, List.find?_append, List.find?_singleton, addRegion,
      lookup_assign, hitem, h.regions, h.regions]
    by_cases hgame : gameindex = Numeral.decimal row.gameId
    · subst hgame
      rw [if_pos rfl]
      by_cases hregion : regionindex = Numeral.decimal row.regionid
      · subst hregion
        have hnone : rows.find?
            (IsAt (Numeral.decimal row.gameId) (Numeral.decimal row.regionid)) = none := by
          apply List.find?_eq_none.mpr
          intro other hother hat
          exact hnew other hother (isAt_iff.mp hat)
        have hat : IsAt (Numeral.decimal row.gameId) (Numeral.decimal row.regionid) row = true :=
          isAt_iff.mpr rfl
        rw [if_pos rfl, if_pos hat, hnone]
        rfl
      · have hat : ¬IsAt (Numeral.decimal row.gameId) regionindex row = true := by
          simpa [IsAt] using Ne.symm hregion
        rw [if_neg hregion, if_neg hat, Option.or_none]
    · have hat : ¬IsAt gameindex regionindex row = true := by
        have hne : Numeral.decimal row.gameId ≠ gameindex := Ne.symm hgame
        simp [IsAt, hne]
      rw [if_neg hgame, if_neg hat, Option.or_none]

/-- The first pass. -/
theorem joins_getAllRegion (hdistinct : (rows.map RegionRow.place).Nodup) :
    Joins rows newRegion
      (rows.foldl (Grouping.addRow (fun row => Numeral.decimal row.gameId) newGame addRegion)
        []) := by
  induction rows using List.reverseRecOn with
  | nil => exact Joins.start
  | append_singleton rows row ih =>
    rw [List.map_append, List.nodup_append] at hdistinct
    obtain ⟨hrows, _, hapart⟩ := hdistinct
    rw [List.foldl_append, List.foldl_cons, List.foldl_nil]
    apply (ih hrows).addRow
    intro other hother
    exact hapart _ (List.mem_map_of_mem hother) _ (by simp)

/-- A change is made where the region is there, and nothing is done elsewhere. -/
theorem attach_cases (gameindex regionindex : String) (change : RegionItem → RegionItem)
    (tmpgamelist : Games) :
    (findRegion tmpgamelist gameindex regionindex = none ∧
      attach gameindex regionindex change tmpgamelist = tmpgamelist) ∨
    ∃ gameitem regionitem, tmpgamelist.lookup gameindex = some gameitem ∧
      gameitem.regionlist.lookup regionindex = some regionitem ∧
      attach gameindex regionindex change tmpgamelist =
        assign tmpgamelist gameindex
          { gameitem with
            regionlist := assign gameitem.regionlist regionindex (change regionitem) } := by
  cases hgame : tmpgamelist.lookup gameindex with
  | none =>
    refine .inl ⟨?_, ?_⟩
    · rw [findRegion, hgame, Option.bind_none]
    · simp only [attach, hgame]
  | some gameitem =>
    cases hregion : gameitem.regionlist.lookup regionindex with
    | none =>
      refine .inl ⟨?_, ?_⟩
      · rw [findRegion, hgame, Option.bind_some, hregion]
      · simp only [attach, hgame, hregion]
    | some regionitem =>
      refine .inr ⟨gameitem, regionitem, rfl, hregion, ?_⟩
      simp only [attach, hgame, hregion]

theorem findRegion_attach (gameindex regionindex : String) (change : RegionItem → RegionItem)
    (gameindex' regionindex' : String) :
    findRegion (attach gameindex regionindex change tmpgamelist) gameindex' regionindex' =
      if gameindex' = gameindex ∧ regionindex' = regionindex then
        (findRegion tmpgamelist gameindex' regionindex').map change
      else findRegion tmpgamelist gameindex' regionindex' := by
  rcases attach_cases gameindex regionindex change tmpgamelist with
    ⟨hnone, hattach⟩ | ⟨gameitem, regionitem, hgame, hregion, hattach⟩
  · rw [hattach]
    split
    · next h => rw [h.1, h.2, hnone, Option.map_none]
    · rfl
  · rw [hattach, findRegion_assign, lookup_assign]
    by_cases hg : gameindex' = gameindex
    · have hfind : findRegion tmpgamelist gameindex' regionindex' =
          gameitem.regionlist.lookup regionindex' := by
        rw [hg, findRegion, hgame, Option.bind_some]
      rw [if_pos hg, hfind]
      by_cases hr : regionindex' = regionindex
      · rw [if_pos hr, if_pos ⟨hg, hr⟩, hr, hregion, Option.map_some]
      · rw [if_neg hr, if_neg (fun h => hr h.2)]
    · rw [if_neg hg, if_neg (fun h => hg h.1)]

/-- A row is added to the item of its place and to no other. -/
theorem Joins.attachRow {Row : Type} (h : Joins rows item tmpgamelist)
    (place : Row → Int × Int) (insert : RegionItem → Row → RegionItem) (row : Row) :
    Joins rows (fun r => if place row = r.place then insert (item r) row else item r)
      (GameBriefInfo.attachRow place insert tmpgamelist row) := by
  have hfind := @findRegion_attach tmpgamelist (Numeral.decimal (place row).1)
    (Numeral.decimal (place row).2) (fun regionitem => insert regionitem row)
  have hregions : ∀ gameindex regionindex,
      findRegion (GameBriefInfo.attachRow place insert tmpgamelist row) gameindex regionindex =
        (rows.find? (IsAt gameindex regionindex)).map
          (fun r => if place row = r.place then insert (item r) row else item r) := by
    intro gameindex regionindex
    rw [GameBriefInfo.attachRow, hfind, h.regions]
    cases hrow : rows.find? (IsAt gameindex regionindex) with
    | none => simp
    | some r =>
      have hat := List.find?_some hrow
      simp only [IsAt, decide_eq_true_eq] at hat
      obtain ⟨rfl, rfl⟩ := hat
      have hplace : (Numeral.decimal r.gameId = Numeral.decimal (place row).1 ∧
          Numeral.decimal r.regionid = Numeral.decimal (place row).2) ↔ place row = r.place := by
        have hiff := @isAt_iff r (place row)
        simp only [IsAt, decide_eq_true_eq] at hiff
        exact hiff.trans eq_comm
      simp only [hplace, Option.map_some]
      split <;> rfl
  rcases attach_cases (Numeral.decimal (place row).1) (Numeral.decimal (place row).2)
      (fun regionitem => insert regionitem row) tmpgamelist with
    ⟨_, hattach⟩ | ⟨gameitem, regionitem, hgame, _, hattach⟩
  · have hrow : GameBriefInfo.attachRow place insert tmpgamelist row = tmpgamelist := hattach
    rw [hrow] at hregions ⊢
    exact ⟨h.nodup, h.nodup_regions, h.headers, hregions⟩
  · have hentry := (mem_iff_lookup h.nodup).mpr hgame
    refine ⟨?_, ?_, ?_, hregions⟩
    · rw [GameBriefInfo.attachRow, hattach]
      exact nodup_keys_assign h.nodup _ _
    · rw [GameBriefInfo.attachRow, hattach]
      exact nodup_regions_assign h.nodup_regions
        (nodup_keys_assign (h.nodup_regions _ hentry) _ _)
    · intro gameindex
      rw [GameBriefInfo.attachRow, hattach, lookup_assign, ← h.headers]
      split
      · next heq =>
        rw [heq, hgame]
        rfl
      · rfl

/-- The second and the third pass. -/
theorem Joins.attachRows {Row : Type} (h : Joins rows item tmpgamelist)
    (place : Row → Int × Int) (insert : RegionItem → Row → RegionItem) (res : List Row) :
    Joins rows (fun r => (res.filter (fun row => place row = r.place)).foldl insert (item r))
      (res.foldl (GameBriefInfo.attachRow place insert) tmpgamelist) := by
  induction res generalizing item tmpgamelist with
  | nil => exact h
  | cons row rest ih =>
    have hstep := ih (h.attachRow place insert row)
    have hitem : (fun r : RegionRow =>
        (rest.filter (fun row => place row = r.place)).foldl insert
          (if place row = r.place then insert (item r) row else item r)) =
        fun r => ((row :: rest).filter (fun row => place row = r.place)).foldl insert
          (item r) := by
      funext r
      by_cases hplace : place row = r.place
      · rw [if_pos hplace, List.filter_cons_of_pos (by simpa using hplace), List.foldl_cons]
      · rw [if_neg hplace, List.filter_cons_of_neg (by simpa using hplace)]
    rw [← hitem]
    exact hstep

theorem foldl_insertBrief (res : List BriefRow) (regionitem : RegionItem) :
    res.foldl insertBrief regionitem =
      { regionitem with
        briefIpList := regionitem.briefIpList ++ res.map BriefRow.ipitem } := by
  induction res generalizing regionitem with
  | nil => simp
  | cons row rest ih => simp [ih, insertBrief]

theorem foldl_insertDetect (res : List DetectRow) (regionitem : RegionItem) :
    res.foldl insertDetect regionitem =
      { regionitem with
        detectIpList := regionitem.detectIpList ++ res.map DetectRow.ipitem } := by
  induction res generalizing regionitem with
  | nil => simp
  | cons row rest ih => simp [ih, insertDetect]

/-- The three passes give every region its addresses. -/
theorem joins_process (hdistinct : (rows.map RegionRow.place).Nodup) (briefs : List BriefRow)
    (detects : List DetectRow) :
    ∃ tmpgamelist, process (some rows) (some briefs) (some detects) = .ok tmpgamelist ∧
      Joins rows (regionOf briefs detects) tmpgamelist := by
  refine ⟨_, rfl, ?_⟩
  have hjoins := ((joins_getAllRegion hdistinct).attachRows BriefRow.place insertBrief
    briefs).attachRows DetectRow.place insertDetect detects
  have hitem : (fun r : RegionRow => (detects.filter (fun row => row.place = r.place)).foldl
      insertDetect ((briefs.filter (fun row => row.place = r.place)).foldl insertBrief
        (newRegion r))) = regionOf briefs detects := by
    funext r
    rw [foldl_insertDetect, foldl_insertBrief]
    rfl
  rwa [hitem] at hjoins

end Join

section Exact

variable (rows : List RegionRow) (briefs : List BriefRow) (detects : List DetectRow)

/-- The row of an address has its game and region in the first selection. -/
def Placed (p : Int × Int) : Bool := rows.any (fun row => row.place = p)

/-- One game for each id, with the name of its first row, and in it one region
for each row of the game, with the addresses of this place in their order. No
other address is anywhere. -/
structure ExactJoin (gamelist : List Game) : Prop where
  games : (gamelist.map Game.gameId).Perm (rows.map RegionRow.gameId).dedup
  names : ∀ game ∈ gamelist, ∃ row, rows.find? (fun row => row.gameId = game.gameId) = some row ∧
    game.gameName = row.gameName ∧ game.gameIconUrl = row.gameIconUrl
  regions : ∀ game ∈ gamelist, game.gameRegionlist.Perm
    ((rows.filter (fun row => row.gameId = game.gameId)).map (regionOf briefs detects))
  briefs_once : (gamelist.flatMap (fun game =>
      game.gameRegionlist.flatMap RegionItem.briefIpList)).Perm
    ((briefs.filter (fun brief => Placed rows brief.place)).map BriefRow.ipitem)
  detects_once : (gamelist.flatMap (fun game =>
      game.gameRegionlist.flatMap RegionItem.detectIpList)).Perm
    ((detects.filter (fun detect => Placed rows detect.place)).map DetectRow.ipitem)

variable {rows briefs detects} {item : RegionRow → RegionItem} {tmpgamelist : Games}

/-- A game's entry and the row its name comes from. -/
theorem Joins.entry (h : Joins rows item tmpgamelist) {key : String} {gameitem : GameItem}
    (hentry : (key, gameitem) ∈ tmpgamelist) :
    key = Numeral.decimal gameitem.gameId ∧
      ∃ row, rows.find? (fun row => row.gameId = gameitem.gameId) = some row ∧
        gameitem.gameName = row.gameName ∧ gameitem.gameIconUrl = row.gameIconUrl := by
  have hheader := h.headers key
  rw [(mem_iff_lookup h.nodup).mp hentry, Option.map_some] at hheader
  obtain ⟨row, hfind, hrow⟩ := Option.map_eq_some_iff.mp hheader.symm
  simp only [rowHeader, header, Prod.mk.injEq] at hrow
  obtain ⟨hgame, hname, hicon⟩ := hrow
  have hin := List.find?_some hfind
  simp only [IsIn, decide_eq_true_eq] at hin
  have hkey : key = Numeral.decimal gameitem.gameId := by rw [← hgame, hin]
  refine ⟨hkey, row, ?_, hname.symm, hicon.symm⟩
  rw [← hfind, hkey]
  congr 1
  funext other
  simp only [IsIn, decide_eq_decide]
  exact ⟨fun heq => by rw [heq], fun heq => decimal_injective heq⟩

theorem Joins.games (h : Joins rows item tmpgamelist) :
    (tmpgamelist.map (fun entry => entry.2.gameId)).Perm (rows.map RegionRow.gameId).dedup := by
  have hkeys : tmpgamelist.map Prod.fst =
      (tmpgamelist.map (fun entry => entry.2.gameId)).map Numeral.decimal := by
    rw [List.map_map]
    apply List.map_congr_left
    intro entry hentry
    exact (h.entry hentry).1
  have hnodup : (tmpgamelist.map (fun entry => entry.2.gameId)).Nodup := by
    apply List.Nodup.of_map Numeral.decimal
    rw [← hkeys]
    exact h.nodup
  apply (List.perm_ext_iff_of_nodup hnodup (List.nodup_dedup _)).mpr
  intro gameId
  rw [List.mem_dedup, List.mem_map, List.mem_map]
  constructor
  · rintro ⟨entry, hentry, rfl⟩
    obtain ⟨_, row, hfind, _⟩ := h.entry hentry
    have hgame := List.find?_some hfind
    exact ⟨row, List.mem_of_find?_eq_some hfind, by simpa using hgame⟩
  · rintro ⟨row, hrow, rfl⟩
    have hsome : (rows.find? (IsIn (Numeral.decimal row.gameId))).isSome := by
      rw [List.find?_isSome]
      exact ⟨row, hrow, by simp [IsIn]⟩
    have hheader := h.headers (Numeral.decimal row.gameId)
    obtain ⟨first, hfirst⟩ := Option.isSome_iff_exists.mp hsome
    rw [hfirst, Option.map_some] at hheader
    obtain ⟨gameitem, hlookup, _⟩ := Option.map_eq_some_iff.mp hheader
    have hentry := (mem_iff_lookup h.nodup).mpr hlookup
    refine ⟨_, hentry, ?_⟩
    exact decimal_injective (h.entry hentry).1.symm

theorem find?_isAt (hdistinct : (rows.map RegionRow.place).Nodup) {row : RegionRow}
    {gameindex regionindex : String} :
    rows.find? (IsAt gameindex regionindex) = some row ↔
      row ∈ rows ∧ IsAt gameindex regionindex row = true := by
  constructor
  · intro h
    exact ⟨List.mem_of_find?_eq_some h, List.find?_some h⟩
  · rintro ⟨hrow, hat⟩
    have hsome : (rows.find? (IsAt gameindex regionindex)).isSome := by
      rw [List.find?_isSome]
      exact ⟨row, hrow, hat⟩
    obtain ⟨first, hfirst⟩ := Option.isSome_iff_exists.mp hsome
    have hplace : first.place = row.place := by
      simp only [IsAt, decide_eq_true_eq] at hat
      obtain ⟨rfl, rfl⟩ := hat
      exact isAt_iff.mp (List.find?_some hfirst)
    have hsame := List.inj_on_of_nodup_map hdistinct
      (List.mem_of_find?_eq_some hfirst) hrow hplace
    rw [hfirst, hsame]

/-- The regions of a game are the items of its rows. -/
theorem Joins.regionlist (h : Joins rows item tmpgamelist)
    (hdistinct : (rows.map RegionRow.place).Nodup) {key : String} {gameitem : GameItem}
    (hentry : (key, gameitem) ∈ tmpgamelist) :
    (gameitem.regionlist.map Prod.snd).Perm
      ((rows.filter (fun row => row.gameId = gameitem.gameId)).map item) := by
  let keyed : RegionRow → String × RegionItem :=
    fun row => (Numeral.decimal row.regionid, item row)
  have hkeyed : ((rows.filter (fun row => row.gameId = gameitem.gameId)).map keyed).Nodup := by
    apply List.Nodup.map_on _ (hdistinct.of_map.filter _)
    intro row hrow row' hrow' heq
    obtain ⟨hmem, hgame⟩ := List.mem_filter.mp hrow
    obtain ⟨hmem', hgame'⟩ := List.mem_filter.mp hrow'
    apply List.inj_on_of_nodup_map hdistinct hmem hmem'
    have hregion : row.regionid = row'.regionid :=
      decimal_injective (congrArg Prod.fst heq)
    rw [decide_eq_true_eq] at hgame hgame'
    rw [RegionRow.place, RegionRow.place, hgame, hgame', hregion]
  have hperm : gameitem.regionlist.Perm
      ((rows.filter (fun row => row.gameId = gameitem.gameId)).map keyed) := by
    have hnodup := h.nodup_regions _ hentry
    apply (List.perm_ext_iff_of_nodup hnodup.of_map hkeyed).mpr
    rintro ⟨regionindex, regionitem⟩
    have hfind : gameitem.regionlist.lookup regionindex =
        (rows.find? (IsAt key regionindex)).map item := by
      rw [← h.regions, findRegion, (mem_iff_lookup h.nodup).mp hentry, Option.bind_some]
    rw [mem_iff_lookup hnodup, hfind, Option.map_eq_some_iff, List.mem_map]
    simp only [find?_isAt hdistinct, List.mem_filter, decide_eq_true_eq, IsAt, keyed,
      Prod.mk.injEq, (h.entry hentry).1]
    constructor
    · rintro ⟨row, ⟨hrow, hgame, hregion⟩, hitem⟩
      exact ⟨row, ⟨hrow, decimal_injective hgame⟩, hregion, hitem⟩
    · rintro ⟨row, ⟨hrow, hgame⟩, hregion, hitem⟩
      exact ⟨row, ⟨hrow, by rw [hgame], hregion⟩, hitem⟩
  have hsnd := hperm.map Prod.snd
  rwa [List.map_map] at hsnd

/-- The addresses of all regions of all games are those whose place has a row. -/
theorem collected {gamelist : List Game} (hdistinct : (rows.map RegionRow.place).Nodup)
    (hgames : (gamelist.map Game.gameId).Perm (rows.map RegionRow.gameId).dedup)
    (hregions : ∀ game ∈ gamelist, game.gameRegionlist.Perm
      ((rows.filter (fun row => row.gameId = game.gameId)).map item))
    {Row Out : Type} (place : Row → Int × Int) (out : Row → Out) (res : List Row)
    (list : RegionItem → List Out)
    (hlist : ∀ row, list (item row) =
      (res.filter (fun r => place r = row.place)).map out) :
    (gamelist.flatMap (fun game => game.gameRegionlist.flatMap list)).Perm
      ((res.filter (fun r => Placed rows (place r))).map out) := by
  have hall : rows.filter (fun row => (rows.map RegionRow.gameId).dedup.any
      (fun gameId => row.gameId = gameId)) = rows := by
    apply List.filter_eq_self.mpr
    intro row hrow
    apply List.any_eq_true.mpr
    exact ⟨row.gameId, List.mem_dedup.mpr (List.mem_map_of_mem hrow), by simp⟩
  have hrows := flatMap_filter_perm (List.nodup_dedup (rows.map RegionRow.gameId))
    RegionRow.gameId rows
  have hres := (flatMap_filter_perm hdistinct place res).map out
  rw [hall] at hrows
  calc gamelist.flatMap (fun game => game.gameRegionlist.flatMap list)
      ~ gamelist.flatMap (fun game =>
        (rows.filter (fun row => row.gameId = game.gameId)).flatMap (fun row =>
          list (item row))) := by
        apply List.Perm.flatMap_left
        intro game hgame
        have hperm := (hregions game hgame).flatMap_right list
        rwa [List.flatMap_map] at hperm
    _ = (gamelist.map Game.gameId).flatMap (fun gameId =>
        (rows.filter (fun row => row.gameId = gameId)).flatMap (fun row =>
          list (item row))) := by
        rw [List.flatMap_map]
    _ ~ (rows.map RegionRow.gameId).dedup.flatMap (fun gameId =>
        (rows.filter (fun row => row.gameId = gameId)).flatMap (fun row =>
          list (item row))) := hgames.flatMap_right _
    _ = ((rows.map RegionRow.gameId).dedup.flatMap (fun gameId =>
        rows.filter (fun row => row.gameId = gameId))).flatMap (fun row =>
          list (item row)) := by
        rw [List.flatMap_assoc]
    _ ~ rows.flatMap (fun row => list (item row)) := hrows.flatMap_right _
    _ = ((rows.map RegionRow.place).flatMap (fun p =>
        res.filter (fun r => place r = p))).map out := by
        rw [List.flatMap_map, List.map_flatMap]
        exact List.flatMap_congr (fun row _ => hlist row)
    _ ~ (res.filter (fun r => Placed rows (place r))).map out := by
        refine hres.trans (List.Perm.of_eq ?_)
        congr 1
        apply List.filter_congr
        intro r _
        rw [List.any_map, Placed]
        simp only [Function.comp_def, eq_comm]

theorem filtered_games {entries : Games} {gamelist : List Game}
    (h : List.Forall₂ (fun entry game => entry.2.Filtered game) entries gamelist) :
    gamelist.map Game.gameId = entries.map (fun entry => entry.2.gameId) ∧
      ∀ game ∈ gamelist, ∃ entry ∈ entries, entry.2.Filtered game := by
  induction h with
  | nil => exact ⟨rfl, fun game hgame => by cases hgame⟩
  | @cons entry game entries gamelist hfirst _ ih =>
    obtain ⟨hids, hall⟩ := ih
    refine ⟨by rw [List.map_cons, List.map_cons, hids, hfirst.gameId], ?_⟩
    intro other hother
    rcases List.mem_cons.mp hother with rfl | hrest
    · exact ⟨entry, List.mem_cons_self, hfirst⟩
    · obtain ⟨entry', hmem, hfiltered⟩ := hall other hrest
      exact ⟨entry', List.mem_cons_of_mem entry hmem, hfiltered⟩

/-- The tables turned into a list, in whatever order they are visited. -/
theorem Joins.exactJoin (h : Joins rows (regionOf briefs detects) tmpgamelist)
    (hdistinct : (rows.map RegionRow.place).Nodup) {gamelist : List Game}
    (hgamelist : Filtergamelist tmpgamelist gamelist) :
    ExactJoin rows briefs detects gamelist := by
  obtain ⟨entries, hperm, hfiltered⟩ := hgamelist
  obtain ⟨hids, hall⟩ := filtered_games hfiltered
  have hentry : ∀ game ∈ gamelist, ∃ entry ∈ tmpgamelist, entry.2.Filtered game := by
    intro game hgame
    obtain ⟨entry, hmem, hfilter⟩ := hall game hgame
    exact ⟨entry, hperm.mem_iff.mp hmem, hfilter⟩
  have hgames : (gamelist.map Game.gameId).Perm (rows.map RegionRow.gameId).dedup := by
    rw [hids]
    exact (hperm.map _).trans h.games
  have hregions : ∀ game ∈ gamelist, game.gameRegionlist.Perm
      ((rows.filter (fun row => row.gameId = game.gameId)).map (regionOf briefs detects)) := by
    intro game hgame
    obtain ⟨entry, hmem, hfilter⟩ := hentry game hgame
    rw [hfilter.gameId]
    exact hfilter.regions.trans (h.regionlist hdistinct hmem)
  refine ⟨hgames, ?_, hregions, ?_, ?_⟩
  · intro game hgame
    obtain ⟨entry, hmem, hfilter⟩ := hentry game hgame
    obtain ⟨_, row, hfind, hname, hicon⟩ := h.entry hmem
    refine ⟨row, ?_, hfilter.gameName.trans hname, hfilter.gameIconUrl.trans hicon⟩
    rw [hfilter.gameId]
    exact hfind
  · exact collected hdistinct hgames hregions BriefRow.place BriefRow.ipitem briefs
      RegionItem.briefIpList (fun _ => rfl)
  · exact collected hdistinct hgames hregions DetectRow.place DetectRow.ipitem detects
      RegionItem.detectIpList (fun _ => rfl)

/-- For selections of any length and order whose first one has distinct places:
whatever order the tables are visited in, the list is the exact join. -/
theorem exact_join (rows : List RegionRow) (briefs : List BriefRow) (detects : List DetectRow)
    (hdistinct : (rows.map RegionRow.place).Nodup) :
    ∃ tmpgamelist, process (some rows) (some briefs) (some detects) = .ok tmpgamelist ∧
      (∃ gamelist, Filtergamelist tmpgamelist gamelist) ∧
      ∀ gamelist, Filtergamelist tmpgamelist gamelist →
        ExactJoin rows briefs detects gamelist := by
  obtain ⟨tmpgamelist, hprocess, hjoins⟩ := joins_process hdistinct briefs detects
  exact ⟨tmpgamelist, hprocess, ⟨_, filtergamelist_filtered tmpgamelist⟩,
    fun _ hgamelist => hjoins.exactJoin hdistinct hgamelist⟩

end Exact

section Example

/-- Two games, one of them with two regions, in no order. -/
def twoGames : List RegionRow :=
  [⟨5, .str "g5", .null, 1, .str "r1", .null⟩, ⟨7, .str "g7", .null, 1, .str "r1", .null⟩,
    ⟨5, .str "g5", .null, 2, .str "r2", .null⟩]

/-- An address of a region that is there, and one of a region that is not. -/
def twoBriefs : List BriefRow :=
  [⟨5, 2, .str "10.0.0.2", .num 32⟩, ⟨7, 9, .str "10.0.0.3", .num 32⟩]

theorem exact_join_twoGames :
    ∃ tmpgamelist, process (some twoGames) (some twoBriefs) (some []) = .ok tmpgamelist ∧
      ExactJoin twoGames twoBriefs [] (filtergamelist tmpgamelist) := by
  have hdistinct : (twoGames.map RegionRow.place).Nodup := by
    decide
  obtain ⟨tmpgamelist, hprocess, _, hall⟩ :=
    exact_join twoGames twoBriefs [] hdistinct
  exact ⟨tmpgamelist, hprocess, hall _ (filtergamelist_filtered tmpgamelist)⟩

end Example

end GameAcc.Lua.GameBriefInfo
