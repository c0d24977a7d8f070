import GameAcc.Lua.Value
import GameAcc.Writer.Records

/-!
`detect_getgamelistport.lua`: the addresses a VPN node is asked to measure, one
list for each region. The node reports the entries back with a round trip time
behind each of them.
-/

namespace GameAcc.Lua.DetectGameListPort

open GameAcc.Redis GameAcc.Mysql GameAcc.Writer GameAcc.Text

def MOD_ERR_BASE : Int := -20100

def MOD_ERR_INVALID_PARAM : Int := MOD_ERR_BASE - 1

def MOD_ERR_PARAM_TYPE : Int := MOD_ERR_BASE - 2

/-- The `data` of a request. -/
structure ReqParam where
  gameid : Value
  regionid : Value

/-- What `checkparm` leaves in the handler. -/
structure Self where
  gameid : Double
  regionid : Double

def checkparm (data : Option ReqParam) : Except Int Self :=
  match data with
  | none => .error MOD_ERR_INVALID_PARAM
  | some reqParam =>
    if reqParam.gameid = .nil ∨ reqParam.regionid = .nil then
      .error MOD_ERR_INVALID_PARAM
    else
      match reqParam.gameid.tonumber, reqParam.regionid.tonumber with
      | some gameid, some regionid => .ok { gameid, regionid }
      | _, _ => .error MOD_ERR_PARAM_TYPE

structure RegionItem where
  regionid : Int
  tmpiplst : List String

/-- `ip/port/mask`, the form in which an address is measured. -/
def detectText (a : Address) : String :=
  a.gameip.val ++ "/" ++ Numeral.decimal a.gameport ++ "/" ++ Numeral.decimal a.gamemask

/-- One pass of the loop over the rows. The table `regionlst` is a list of keys
and items; Lua visits it in no particular order. -/
def addRow (regionlst : List (String × RegionItem)) (row : GameServer) :
    List (String × RegionItem) :=
  let regionid := Numeral.decimal row.gameregionid
  let regionitem := (regionlst.lookup regionid).getD
    { regionid := row.gameregionid, tmpiplst := [] }
  regionlst.filter (fun entry => entry.1 ≠ regionid) ++
    [(regionid, { regionitem with
      tmpiplst := regionitem.tmpiplst ++ [detectText row.address] })]

structure DetectRegion where
  regionid : Int
  iplist : String

variable (self : Self) (db : Database)

def selectRows : List GameServer :=
  db.gameServerTbl.filter (fun row => SelectsId self.gameid row.gameid ∧
    (self.regionid.rat ≠ some 0 → SelectsId self.regionid row.gameregionid))

def getDetectIpPortList : List DetectRegion :=
  ((selectRows self db).foldl addRow []).map (fun entry =>
    { regionid := entry.2.regionid
      iplist := (String.singleton ',').intercalate entry.2.tmpiplst })

section Regions

/-- The entries of a region, in the order of the rows. -/
def regionEntries (rows : List GameServer) (regionid : Int) : List String :=
  (rows.filter (fun row => row.gameregionid = regionid)).map
    (fun row => detectText row.address)

theorem regionEntries_snoc_self (rows : List GameServer) (row : GameServer) :
    regionEntries (rows ++ [row]) row.gameregionid =
      regionEntries rows row.gameregionid ++ [detectText row.address] := by
  simp [regionEntries]

theorem regionEntries_snoc_ne (rows : List GameServer) {row : GameServer} {regionid : Int}
    (h : row.gameregionid ≠ regionid) :
    regionEntries (rows ++ [row]) regionid = regionEntries rows regionid := by
  simp [regionEntries, h]

theorem regionEntries_ne_nil {rows : List GameServer} {regionid : Int} :
    regionEntries rows regionid ≠ [] ↔ ∃ row ∈ rows, row.gameregionid = regionid := by
  simp [regionEntries, List.filter_eq_nil_iff]

/-- The item a row is added to, when the table has the items of the rows before. -/
theorem regionItem_eq {rows : List GameServer} {regionlst : List (String × RegionItem)}
    (row : GameServer)
    (h : ∀ entry : String × RegionItem, entry ∈ regionlst ↔
      entry.1 = Numeral.decimal entry.2.regionid ∧
        entry.2.tmpiplst = regionEntries rows entry.2.regionid ∧ entry.2.tmpiplst ≠ []) :
    (regionlst.lookup (Numeral.decimal row.gameregionid)).getD
        { regionid := row.gameregionid, tmpiplst := [] } =
      { regionid := row.gameregionid, tmpiplst := regionEntries rows row.gameregionid } := by
  cases hlookup : regionlst.lookup (Numeral.decimal row.gameregionid) with
  | none =>
    have hnone : regionEntries rows row.gameregionid = [] := by
      by_contra hne
      have hmem := (h (Numeral.decimal row.gameregionid, ⟨row.gameregionid,
        regionEntries rows row.gameregionid⟩)).mpr ⟨rfl, rfl, hne⟩
      have habsent := List.lookup_eq_none_iff.mp hlookup _ hmem
      simp at habsent
    rw [hnone]
    rfl
  | some item =>
    obtain ⟨before, after, hsplit, _⟩ := List.lookup_eq_some_iff.mp hlookup
    have hmem : (Numeral.decimal row.gameregionid, item) ∈ regionlst := by
      rw [hsplit]
      simp
    obtain ⟨hkey, hentries, _⟩ := (h _).mp hmem
    obtain ⟨regionid, tmpiplst⟩ := item
    obtain rfl : row.gameregionid = regionid := decimal_injective hkey
    rw [Option.getD_some]
    exact congrArg _ hentries

/-- What the table holds after the rows: an item with all entries of its region
for each region of a row. -/
theorem mem_foldl_addRow (rows : List GameServer) {entry : String × RegionItem} :
    entry ∈ rows.foldl addRow [] ↔
      entry.1 = Numeral.decimal entry.2.regionid ∧
        entry.2.tmpiplst = regionEntries rows entry.2.regionid ∧ entry.2.tmpiplst ≠ [] := by
  induction rows using List.reverseRecOn generalizing entry with
  | nil => simp [regionEntries]
  | append_singleton rows row ih =>
    rw [List.foldl_append, List.foldl_cons, List.foldl_nil]
    have hitem := regionItem_eq row (fun _ => ih)
    generalize rows.foldl addRow [] = regionlst at ih hitem ⊢
    rw [addRow, hitem, List.mem_append, List.mem_filter, ih, List.mem_singleton]
    constructor
    · rintro (⟨⟨hkey, hentries, hne⟩, hother⟩ | rfl)
      · have hregion : row.gameregionid ≠ entry.2.regionid := by
          intro hsame
          rw [hsame] at hother
          exact of_decide_eq_true hother hkey
        exact ⟨hkey, by rw [regionEntries_snoc_ne rows hregion, hentries], hne⟩
      · refine ⟨rfl, (regionEntries_snoc_self rows row).symm, ?_⟩
        simp
    · rintro ⟨hkey, hentries, hne⟩
      by_cases hregion : row.gameregionid = entry.2.regionid
      · right
        obtain ⟨key, regionid, tmpiplst⟩ := entry
        simp only at hkey hentries hregion
        subst hregion
        rw [hkey, hentries, regionEntries_snoc_self]
      · left
        rw [regionEntries_snoc_ne rows hregion] at hentries
        refine ⟨⟨hkey, hentries, hne⟩, ?_⟩
        apply decide_eq_true
        rw [hkey]
        exact fun h => hregion (decimal_injective h).symm

theorem mem_getDetectIpPortList {item : DetectRegion} :
    item ∈ getDetectIpPortList self db ↔
      (∃ row ∈ selectRows self db, row.gameregionid = item.regionid) ∧
        item.iplist = (String.singleton ',').intercalate
          (regionEntries (selectRows self db) item.regionid) := by
  rw [getDetectIpPortList, List.mem_map]
  constructor
  · rintro ⟨entry, hentry, rfl⟩
    obtain ⟨_, hentries, hne⟩ := (mem_foldl_addRow _).mp hentry
    rw [hentries] at hne ⊢
    exact ⟨regionEntries_ne_nil.mp hne, rfl⟩
  · rintro ⟨hrow, hiplist⟩
    refine ⟨(Numeral.decimal item.regionid, ⟨item.regionid,
      regionEntries (selectRows self db) item.regionid⟩), ?_, ?_⟩
    · exact (mem_foldl_addRow _).mpr ⟨rfl, rfl, regionEntries_ne_nil.mpr hrow⟩
    · simp only [← hiplist]

theorem detectText_free (a : Address) : Free ',' (detectText a) := by
  have hslash : Free ',' "/" := by decide
  have hport : Free ',' (Numeral.decimal a.gameport) :=
    free_decimal _ (by decide) (by decide)
  have hmask : Free ',' (Numeral.decimal a.gamemask) :=
    free_decimal _ (by decide) (by decide)
  unfold detectText
  exact free_append (free_append (free_append (free_append a.gameip.property.1
    hslash) hport) hslash) hmask

/-- The entries of a served list are those of rows the query selected. -/
theorem mem_split_iplist {item : DetectRegion} (h : item ∈ getDetectIpPortList self db)
    {entry : String} :
    entry ∈ split ',' item.iplist ↔ ∃ row ∈ selectRows self db,
      row.gameregionid = item.regionid ∧ detectText row.address = entry := by
  obtain ⟨hrow, hiplist⟩ := (mem_getDetectIpPortList self db).mp h
  rw [hiplist, split_intercalate _ (regionEntries_ne_nil.mpr hrow)]
  · simp [regionEntries, and_assoc]
  · intro part hpart
    obtain ⟨row, _, rfl⟩ := List.mem_map.mp hpart
    exact detectText_free row.address

end Regions

section Reports

/-- The report is about a list that was served: the node sends the same game and
region to both services, and each record is an entry of the list with the
results behind it. -/
def ServedReport (db : Database) (report : Report) : Prop :=
  ∃ reqParam self detectstr, checkparm (some reqParam) = .ok self ∧
    report.gameid.text = .ok reqParam.gameid.tostring ∧
    report.regionid.text = .ok reqParam.regionid.tostring ∧
    report.detectdata = .str detectstr ∧
    ∀ record ∈ split ',' detectstr, ∃ item ∈ getDetectIpPortList self db,
      ∃ entry ∈ split ',' item.iplist, ∃ results, record = entry ++ "/" ++ results

theorem checkparm_eq_ok {reqParam : ReqParam} {self : Self}
    (h : checkparm (some reqParam) = .ok self) :
    reqParam.gameid.tonumber = some self.gameid ∧
      reqParam.regionid.tonumber = some self.regionid := by
  unfold checkparm at h
  simp only at h
  split at h
  · cases h
  · split at h
    · next gameid regionid hgame hregion =>
      obtain rfl := Except.ok.inj h
      exact ⟨hgame, hregion⟩
    · cases h

/-- The number of a value that is written as an integer is that integer. -/
theorem selectsId_of_tostring {value : Value} {d : Double} {n column : Int}
    (hnumber : value.tonumber = some d) (htext : value.tostring = Numeral.decimal n)
    (hn : n.natAbs < 10 ^ 14) : SelectsId d column ↔ column = n := by
  cases value with
  | num x =>
    obtain rfl := Option.some.inj hnumber
    exact selectsId_iff htext
  | str text =>
    have htext : text = Numeral.decimal n := htext
    have hrat := Value.rat_decimal_self n (by omega)
    rw [← htext, Value.rat, hnumber] at hrat
    exact selectsId_of_rat hrat hn
  | _ => cases hnumber

theorem rat_zero_of_tostring {value : Value} {d : Double} {n : Int}
    (hnumber : value.tonumber = some d) (htext : value.tostring = Numeral.decimal n) :
    d.rat = some 0 ↔ n = 0 := by
  cases value with
  | num x =>
    obtain rfl := Option.some.inj hnumber
    exact Double.rat_zero_iff htext
  | str text =>
    have htext : text = Numeral.decimal n := htext
    have hrat := Value.rat_decimal (n := n) (m := 0) (by decide)
    rwa [← htext, Value.rat, hnumber, Int.cast_zero] at hrat
  | _ => cases hnumber

/-- A record that was made from an entry: its member is the address's text. -/
theorem readDetect_detectText (a : Address) (results : String) {d : Detect}
    (h : readDetect (detectText a ++ "/" ++ results) = some d) : d.member = a.text := by
  have htext : detectText a ++ "/" ++ results = a.gameip.val ++ String.singleton '/' ++
      Numeral.decimal a.gameport ++ String.singleton '/' ++ Numeral.decimal a.gamemask ++
        String.singleton '/' ++ results := rfl
  have hport : Free '/' (Numeral.decimal a.gameport) :=
    free_decimal _ (by decide) (by decide)
  have hmask : Free '/' (Numeral.decimal a.gamemask) :=
    free_decimal _ (by decide) (by decide)
  have hsplit : split '/' (detectText a ++ "/" ++ results) =
      a.gameip.val :: Numeral.decimal a.gameport :: Numeral.decimal a.gamemask ::
        split '/' results := by
    rw [htext, split_append, split_append, split_append, split_free a.gameip.property.2,
      split_free hport, split_free hmask]
    rfl
  obtain ⟨rtt, rest, hresults⟩ := List.exists_cons_of_ne_nil (split_ne_nil '/' results)
  rw [readDetect, hsplit, hresults] at h
  simp only at h
  split at h
  · obtain rfl := Option.some.inj h
    rfl
  · cases h

/-- The members of a served report are addresses of its game and region. -/
theorem ServedReport.member {db : Database} {report : Report} {detects : List Detect}
    {g r : Int} (h : ServedReport db report)
    (hgame : report.gameid.text = .ok (Numeral.decimal g))
    (hregion : report.regionid.text = .ok (Numeral.decimal r)) (hg : g.natAbs < 10 ^ 14)
    (hr : r.natAbs < 10 ^ 14) (hdetects : report.detects = some detects) {d : Detect}
    (hd : d ∈ detects) :
    ∃ row ∈ db.gameServerTbl, row.gameid = g ∧ (r ≠ 0 → row.gameregionid = r) ∧
      d.member = row.address.text := by
  obtain ⟨reqParam, self, detectstr, hself, hgameid, hregionid, hstr, hrecords⟩ := h
  obtain ⟨hgnumber, hrnumber⟩ := checkparm_eq_ok hself
  have hgtext := Except.ok.inj (hgameid.symm.trans hgame)
  have hrtext := Except.ok.inj (hregionid.symm.trans hregion)
  obtain ⟨detectstr', hstr', detectdata, hmem, hread⟩ := report.mem_detects hdetects hd
  obtain rfl := PyVal.str.inj (hstr.symm.trans hstr')
  obtain ⟨item, hitem, entry, hentry, results, rfl⟩ := hrecords detectdata hmem
  obtain ⟨row, hrow, _, rfl⟩ := (mem_split_iplist _ _ hitem).mp hentry
  obtain ⟨hrow, hselected⟩ := List.mem_filter.mp hrow
  obtain ⟨hrowgame, hrowregion⟩ := of_decide_eq_true hselected
  refine ⟨row, hrow, (selectsId_of_tostring hgnumber hgtext hg).mp hrowgame, ?_,
    readDetect_detectText _ _ hread⟩
  intro hne
  apply (selectsId_of_tostring hrnumber hrtext hr).mp
  apply hrowregion
  rwa [Ne, rat_zero_of_tostring hrnumber hrtext]

end Reports

end GameAcc.Lua.DetectGameListPort
