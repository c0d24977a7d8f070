import GameAcc.Agent.Detect
import GameAcc.Lua.DetectGameListPort
import GameAcc.Lua.GameListStatic
import GameAcc.Writer.Publishing

/-!
The way of an address from the table to the accelerated list: the list
`detect_getgamelistport.lua` serves, the dictionary the workers fill, the
records the agent joins and the buffer `deal_report` fills from them. The
dictionary is keyed by the address alone, so of the rows of a region that share
an address and differ in port or mask one is left.
-/

namespace GameAcc.Agent

open GameAcc.Mysql GameAcc.Text GameAcc.Writer GameAcc.Command
open GameAcc.Lua.DetectGameListPort

/-- `regionreport` joins the values of a dictionary; an empty one is not
reported. -/
structure Sent (resultdict : Dict) (detectdata : String) : Prop where
  nonempty : resultdict.entries ≠ []
  joined : ∃ resultlist, resultdict.IsValues resultlist ∧
    detectdata = (String.singleton ',').intercalate resultlist

/-- The rows of an item's list. -/
def itemAddresses (self : Self) (db : Database) (item : DetectRegion) : List Address :=
  ((selectRows self db).filter (fun row => row.gameregionid = item.regionid)).map
    GameServer.address

/-- A text with five parts, of which the first three are the address's. -/
def IsRecordOf (a : Address) (record : String) : Bool :=
  (split '/' record).take 3 =
      [a.gameip.val, Numeral.decimal a.gameport, Numeral.decimal a.gamemask] ∧
    (split '/' record).length = 5

/-- Every distinct address has exactly one record in the report and exactly one
member in the buffer that is filled from it, and nothing else is in either. -/
structure Covers (addresses : List Address) (detectdata : String) : Prop where
  once : ∀ a ∈ addresses, (split ',' detectdata).countP (IsRecordOf a) = 1
  only : ∀ record ∈ split ',' detectdata, ∃ a ∈ addresses, IsRecordOf a record
  buffer : ∀ {report : Report} {s : Redis.Store} (d : Draft report s),
    d.detectstr = detectdata → ∃ t z,
      run redis ((split ',' detectdata).foldlM (addDetectdata d.key) Tally.zero)
        (d.store .empty) = (.ok t, d.store z) ∧
      ∀ member, member ∈ z.entries.map Prod.fst ↔ ∃ a ∈ addresses, a.text = member

section Record

variable {known : Dict}

/-- The record a worker makes for an address. -/
def recordText (a : Address) (ava loss : Int) : String :=
  detectText a ++ "/" ++ Numeral.decimal ava ++ "/" ++ Numeral.decimal loss

theorem split_detectText (a : Address) : split '/' (detectText a) =
    [a.gameip.val, Numeral.decimal a.gameport, Numeral.decimal a.gamemask] := by
  have htext : detectText a = a.gameip.val ++ String.singleton '/' ++
      Numeral.decimal a.gameport ++ String.singleton '/' ++ Numeral.decimal a.gamemask := rfl
  rw [htext, split_append, split_append, split_free a.gameip.property.2,
    split_free (free_decimal _ (by decide) (by decide)),
    split_free (free_decimal _ (by decide) (by decide))]
  rfl

theorem split_recordText (a : Address) (ava loss : Int) : split '/' (recordText a ava loss) =
    [a.gameip.val, Numeral.decimal a.gameport, Numeral.decimal a.gamemask,
      Numeral.decimal ava, Numeral.decimal loss] :=
  split_record (split_detectText a) ava loss

/-- The three parts determine the address. -/
theorem isRecordOf_recordText {a b : Address} {ava loss : Int} :
    IsRecordOf a (recordText b ava loss) = true ↔ a = b := by
  rw [IsRecordOf, split_recordText]
  constructor
  · intro h
    obtain ⟨hip, hport, hmask⟩ : b.gameip.val = a.gameip.val ∧
        Numeral.decimal b.gameport = Numeral.decimal a.gameport ∧
        Numeral.decimal b.gamemask = Numeral.decimal a.gamemask := by simpa using h
    obtain ⟨aip, amask, aport⟩ := a
    obtain ⟨bip, bmask, bport⟩ := b
    exact Address.mk.injEq .. ▸ ⟨(Subtype.ext hip).symm, (decimal_injective hmask).symm,
      (decimal_injective hport).symm⟩
  · rintro rfl
    simp

theorem recordText_free (a : Address) (ava loss : Int) : Free ',' (recordText a ava loss) := by
  have hslash : Free ',' "/" := by decide
  have hava : Free ',' (Numeral.decimal ava) := free_decimal _ (by decide) (by decide)
  have hloss : Free ',' (Numeral.decimal loss) := free_decimal _ (by decide) (by decide)
  exact free_append (free_append (free_append (free_append (detectText_free a) hslash) hava)
    hslash) hloss

theorem readDetect_recordText (a : Address) {ava : Int} (h : Rounding.isDouble ava = true)
    (loss : Int) : readDetect (recordText a ava loss) = some ⟨a.text, .fin ava, ava⟩ := by
  rw [readDetect, split_recordText]
  simp only [Redis.readScore_of_isDouble h, int_decimal]
  rfl

/-- A worker makes a record of its address and puts it under the address's ip. -/
theorem dodetect_detectText (info : LocalVpnInfo) (measure : String → Outcome)
    (hknown : Recorded known) (a : Address) :
    ∃ ava loss, Rounding.isDouble ava = true ∧ dodetect info known measure (detectText a) =
      some (a.gameip.val, recordText a ava loss) := by
  have hintegral : (detect info known measure a.gameip.val
      (Numeral.decimal a.gameport)).Integral := hknown.detect _ _
  obtain ⟨ava, loss, hdouble, hava, hloss⟩ := hintegral
  refine ⟨ava, loss, hdouble, ?_⟩
  simp only [dodetect, split_detectText, hava, hloss]
  rfl

end Record

section Dictionary

variable {info : LocalVpnInfo} {known : Dict}

/-- A dictionary with one record for each ip of the addresses: a record of one
of the addresses that have this ip. -/
structure Keyed (addresses : List Address) (resultdict : Dict) : Prop where
  record : ∀ ip record, resultdict.lookup ip = some record →
    ∃ a ∈ addresses, a.gameip.val = ip ∧
      ∃ ava loss, Rounding.isDouble ava = true ∧ record = recordText a ava loss
  key : ∀ a ∈ addresses, a.gameip.val ∈ resultdict

theorem mem_puts {measures : Nat → String → Outcome} {iplst : List String}
    {put : String × String} :
    put ∈ puts info known measures iplst ↔
      ∃ ipstr i, iplst[i]? = some ipstr ∧ dodetect info known (measures i) ipstr = some put := by
  simp only [puts, List.mem_filterMap, Prod.exists, List.mem_zipIdx_iff_getElem?]

theorem keyed_merge (hknown : Recorded known) {measures : Nat → String → Outcome}
    {addresses : List Address} {queue : List (String × String)}
    (order : queue.Perm (puts info known measures (addresses.map detectText))) :
    Keyed addresses (merge queue) := by
  constructor
  · intro ip record hlookup
    have hput := order.mem_iff.mp (put_of_lookup_merge hlookup)
    obtain ⟨ipstr, i, hi, hdodetect⟩ := mem_puts.mp hput
    obtain ⟨a, ha, rfl⟩ := List.mem_map.mp (List.mem_of_getElem? hi)
    obtain ⟨ava, loss, hdouble, hput⟩ := dodetect_detectText info (measures i) hknown a
    obtain ⟨rfl, rfl⟩ := Prod.mk.inj (Option.some.inj (hdodetect.symm.trans hput))
    exact ⟨a, ha, rfl, ava, loss, hdouble, rfl⟩
  · intro a ha
    obtain ⟨i, hi⟩ := List.mem_iff_getElem?.mp (List.mem_map_of_mem (f := detectText) ha)
    obtain ⟨ava, loss, hdouble, hput⟩ := dodetect_detectText info (measures i) hknown a
    apply mem_merge.mpr
    exact ⟨_, order.mem_iff.mpr (mem_puts.mpr ⟨_, i, hi, hput⟩)⟩

variable {addresses : List Address} {resultdict : Dict} {detectdata : String}

/-- The records of a keyed dictionary are the pieces of what is sent. -/
theorem Keyed.split_detectdata (h : Keyed addresses resultdict)
    (hsent : Sent resultdict detectdata) :
    resultdict.IsValues (split ',' detectdata) := by
  obtain ⟨resultlist, hvalues, rfl⟩ := hsent.joined
  have hsplit : split ',' ((String.singleton ',').intercalate resultlist) = resultlist := by
    apply split_intercalate
    · intro record hrecord
      obtain ⟨entry, hentry, rfl⟩ := List.mem_map.mp (hvalues.mem_iff.mp hrecord)
      have hlookup := AList.mem_lookup_iff.mpr hentry
      obtain ⟨a, _, _, ava, loss, _, htext⟩ := h.record entry.1 entry.2 hlookup
      rw [htext]
      exact recordText_free a ava loss
    · intro hnil
      rw [hnil] at hvalues
      apply hsent.nonempty
      exact List.map_eq_nil_iff.mp hvalues.nil_eq.symm
  rwa [hsplit]

/-- Where the ips are distinct, a dictionary's record of an ip is the record of
its address. -/
theorem Keyed.countP_eq_one (h : Keyed addresses resultdict)
    (hdistinct : ∀ a ∈ addresses, ∀ b ∈ addresses, a.gameip = b.gameip → a = b)
    {a : Address} (ha : a ∈ addresses) :
    (resultdict.entries.map (fun entry => entry.2)).countP (IsRecordOf a) = 1 := by
  have hkeys : resultdict.entries.countP (fun entry => entry.1 == a.gameip.val) =
      resultdict.keys.count a.gameip.val := by
    rw [AList.keys, List.keys, List.count, List.countP_map]
    rfl
  have hsame : resultdict.entries.countP (fun entry => IsRecordOf a entry.2) =
      resultdict.entries.countP (fun entry => entry.1 == a.gameip.val) := by
    apply List.countP_congr
    intro entry hentry
    obtain ⟨b, hb, hip, ava, loss, _, htext⟩ :=
      h.record entry.1 entry.2 (AList.mem_lookup_iff.mpr hentry)
    rw [htext, isRecordOf_recordText, ← hip, beq_iff_eq]
    constructor
    · rintro rfl
      rfl
    · intro hsameip
      exact hdistinct a ha b hb (Subtype.ext hsameip.symm)
  rw [List.countP_map]
  calc resultdict.entries.countP (fun entry => IsRecordOf a entry.2)
      = resultdict.keys.count a.gameip.val := hsame.trans hkeys
    _ = 1 := List.count_eq_one_of_mem resultdict.keys_nodup (AList.mem_keys.mp (h.key a ha))

/-- Two addresses that both have a record do not share their ip. -/
theorem Keyed.eq_of_records (h : Keyed addresses resultdict) {a b : Address}
    (hip : a.gameip = b.gameip) {records : List String} (hvalues : resultdict.IsValues records)
    (ha : records.countP (IsRecordOf a) = 1) (hb : records.countP (IsRecordOf b) = 1) :
    a = b := by
  have hentry : ∀ c : Address, records.countP (IsRecordOf c) = 1 →
      ∃ ava loss, resultdict.lookup c.gameip.val = some (recordText c ava loss) := by
    intro c hc
    obtain ⟨record, hrecord, hof⟩ := List.countP_pos_iff.mp (by omega : 0 < records.countP
      (IsRecordOf c))
    obtain ⟨entry, hentry, rfl⟩ := List.mem_map.mp (hvalues.mem_iff.mp hrecord)
    have hlookup := AList.mem_lookup_iff.mpr hentry
    obtain ⟨d, _, hip, ava, loss, _, htext⟩ := h.record entry.1 entry.2 hlookup
    rw [htext, isRecordOf_recordText] at hof
    subst hof
    refine ⟨ava, loss, ?_⟩
    rw [hip, ← htext]
    exact hlookup
  obtain ⟨ava, loss, hrecorda⟩ := hentry a ha
  obtain ⟨ava', loss', hrecordb⟩ := hentry b hb
  rw [← hip, hrecorda] at hrecordb
  have hof : IsRecordOf b (recordText a ava loss) = true := by
    rw [Option.some.inj hrecordb, isRecordOf_recordText]
  exact (isRecordOf_recordText.mp hof).symm

/-- What a keyed dictionary sends has records of the addresses only. -/
theorem Keyed.records (h : Keyed addresses resultdict) {records : List String}
    (hvalues : resultdict.IsValues records) {record : String} (hrecord : record ∈ records) :
    ∃ a ∈ addresses, ∃ ava loss, Rounding.isDouble ava = true ∧
      record = recordText a ava loss := by
  obtain ⟨entry, hentry, rfl⟩ := List.mem_map.mp (hvalues.mem_iff.mp hrecord)
  obtain ⟨a, ha, _, ava, loss, hdouble, htext⟩ :=
    h.record entry.1 entry.2 (AList.mem_lookup_iff.mpr hentry)
  exact ⟨a, ha, ava, loss, hdouble, htext⟩

/-- The buffer that is filled from the records. -/
theorem Keyed.buffer (h : Keyed addresses resultdict) {records : List String}
    (hvalues : resultdict.IsValues records)
    (honce : ∀ a ∈ addresses, records.countP (IsRecordOf a) = 1)
    {report : Report} {s : Redis.Store} (d : Draft report s) :
    ∃ t z, run redis (records.foldlM (addDetectdata d.key) Tally.zero) (d.store .empty) =
        (.ok t, d.store z) ∧
      ∀ member, member ∈ z.entries.map Prod.fst ↔ ∃ a ∈ addresses, a.text = member := by
  have hreads : ∀ record ∈ records, ∃ x, readDetect record = some x := by
    intro record hrecord
    obtain ⟨a, _, ava, loss, hdouble, rfl⟩ := h.records hvalues hrecord
    exact ⟨_, readDetect_recordText a hdouble loss⟩
  obtain ⟨detects, hread, hmap⟩ := exists_readDetects hreads
  refine ⟨_, _, d.run_fill hread, ?_⟩
  have hmem : ∀ x, x ∈ detects ↔ ∃ record ∈ records, readDetect record = some x := by
    intro x
    have hsome : some x ∈ detects.map some ↔ some x ∈ records.map readDetect := by rw [hmap]
    simpa using hsome
  intro member
  rw [member_contents]
  constructor
  · rintro ⟨x, hx, rfl⟩
    obtain ⟨record, hrecord, hreadx⟩ := (hmem x).mp hx
    obtain ⟨a, ha, ava, loss, hdouble, rfl⟩ := h.records hvalues hrecord
    rw [readDetect_recordText a hdouble] at hreadx
    obtain rfl := Option.some.inj hreadx
    exact ⟨a, ha, rfl⟩
  · rintro ⟨a, ha, rfl⟩
    have hpos : 0 < records.countP (IsRecordOf a) := by
      have hone := honce a ha
      omega
    obtain ⟨record, hrecord, hof⟩ := List.countP_pos_iff.mp hpos
    obtain ⟨b, _, ava, loss, hdouble, rfl⟩ := h.records hvalues hrecord
    obtain rfl := isRecordOf_recordText.mp hof
    exact ⟨_, (hmem _).mpr ⟨_, hrecord, readDetect_recordText a hdouble loss⟩, rfl⟩

/-- A report covers the addresses when each has one record in it. -/
theorem Keyed.covers (h : Keyed addresses resultdict) (hsent : Sent resultdict detectdata)
    (honce : ∀ a ∈ addresses, (split ',' detectdata).countP (IsRecordOf a) = 1) :
    Covers addresses detectdata := by
  have hvalues := h.split_detectdata hsent
  refine ⟨honce, ?_, fun d _ => h.buffer hvalues honce d⟩
  intro record hrecord
  obtain ⟨a, ha, ava, loss, _, rfl⟩ := h.records hvalues hrecord
  exact ⟨a, ha, isRecordOf_recordText.mpr rfl⟩

end Dictionary

/-- The entries of a served list are those of its rows. -/
theorem split_iplist {self : Self} {db : Database} {item : DetectRegion}
    (h : item ∈ getDetectIpPortList self db) :
    split ',' item.iplist = (itemAddresses self db item).map detectText ∧
      itemAddresses self db item ≠ [] := by
  obtain ⟨hrow, hiplist⟩ := (mem_getDetectIpPortList self db).mp h
  have hentries : regionEntries (selectRows self db) item.regionid =
      (itemAddresses self db item).map detectText := by
    rw [regionEntries, itemAddresses, List.map_map]
    rfl
  have hne := regionEntries_ne_nil.mpr hrow
  rw [hiplist, hentries]
  rw [hentries] at hne
  refine ⟨split_intercalate ?_ hne, by simpa using hne⟩
  intro part hpart
  obtain ⟨a, _, rfl⟩ := List.mem_map.mp hpart
  exact detectText_free a

theorem Keyed.entries_ne_nil {addresses : List Address} {resultdict : Dict}
    (h : Keyed addresses resultdict) (hne : addresses ≠ []) : resultdict.entries ≠ [] := by
  intro hempty
  obtain ⟨a, ha⟩ := List.exists_mem_of_ne_nil _ hne
  have hkey := AList.mem_keys.mp (h.key a ha)
  simp [AList.keys, List.keys, hempty] at hkey

/-- What was measured for a served list is keyed by the ips of its rows. -/
theorem keyed_getDetectValue {self : Self} {db : Database} {item : DetectRegion}
    (hitem : item ∈ getDetectIpPortList self db) {info : LocalVpnInfo} {known : Dict}
    (hknown : Recorded known) {r : Int} {resultdict : Dict}
    (hresult : GetDetectValue info known (Numeral.decimal r) item.iplist resultdict) :
    Keyed (itemAddresses self db item) resultdict := by
  cases hresult with
  | raised h => simp [Numeral.readInt_trim_decimal] at h
  | finished order _ =>
    rw [(split_iplist hitem).1] at order
    exact keyed_merge hknown order

/-- Whatever the workers measure and however they finish: something is sent, and
it covers the rows of the list exactly when no two of them share an ip and
differ in port or mask. -/
theorem covers_iff_distinct_ips {self : Self} {db : Database} {item : DetectRegion}
    (hitem : item ∈ getDetectIpPortList self db) {info : LocalVpnInfo} {known : Dict}
    (hknown : Reached info known) {r : Int} {resultdict : Dict}
    (hresult : GetDetectValue info known (Numeral.decimal r) item.iplist resultdict) :
    resultdict.entries ≠ [] ∧ ∀ detectdata, Sent resultdict detectdata →
      (Covers (itemAddresses self db item) detectdata ↔
        ∀ a ∈ itemAddresses self db item, ∀ b ∈ itemAddresses self db item,
          a.gameip = b.gameip → a = b) := by
  have hkeyed := keyed_getDetectValue hitem hknown.recorded hresult
  refine ⟨hkeyed.entries_ne_nil (split_iplist hitem).2, ?_⟩
  intro detectdata hsent
  have hvalues := hkeyed.split_detectdata hsent
  constructor
  · intro hcovers a ha b hb hip
    exact hkeyed.eq_of_records hip hvalues (hcovers.once a ha) (hcovers.once b hb)
  · intro hdistinct
    apply hkeyed.covers hsent
    intro a ha
    rw [hvalues.countP_eq]
    exact hkeyed.countP_eq_one hdistinct ha

section Example

open GameAcc.Lua.GameListPortText (firstServer secondServer twoServers)

theorem isDouble_forty : Rounding.isDouble 40 = true := Rounding.isDouble_small (by decide)

/-- A node that can ping, and pings that all take 40 ms. -/
def onePing : LocalVpnInfo := ⟨some ["10.0.0.9"], some ["eth0"]⟩

def fortyMs : Nat → String → Outcome := fun _ _ => ⟨40, 0, isDouble_forty⟩

/-- What the workers for a list put, taken in the order of the list. -/
def inOrder (iplist : String) : Dict := merge (puts onePing ∅ fortyMs (split ',' iplist))

theorem getDetectValue_inOrder (r : Int) (iplist : String) :
    GetDetectValue onePing ∅ (Numeral.decimal r) iplist (inOrder iplist) :=
  .finished (List.Perm.refl _) (by rw [Numeral.readInt_trim_decimal]; rfl)

/-- What is sent when the values are listed in the order of the dictionary. -/
def joinValues (resultdict : Dict) : String :=
  (String.singleton ',').intercalate (resultdict.entries.map (fun entry => entry.2))

theorem sent_joinValues {resultdict : Dict} (h : resultdict.entries ≠ []) :
    Sent resultdict (joinValues resultdict) :=
  ⟨h, _, List.Perm.refl _, rfl⟩

/-- A database whose only region has the given addresses. -/
def oneRegion (addresses : List Address) : Database :=
  { twoServers 100 with
    gameServerTbl := addresses.map (fun address =>
      { gameid := 5, gameregionid := 1, address }) }

theorem oneRegion_selected (addresses : List Address) :
    selectRows ⟨5, 1⟩ (oneRegion addresses) = (oneRegion addresses).gameServerTbl := by
  apply List.filter_eq_self.mpr
  intro row hrow
  obtain ⟨a, _, rfl⟩ := List.mem_map.mp hrow
  have hselects : Lua.SelectsId 5 5 ∧ ((1 : Double).rat ≠ some 0 → Lua.SelectsId 1 1) := by
    decide +kernel
  exact decide_eq_true hselects

/-- The list of that region. -/
def oneRegionItem (addresses : List Address) : DetectRegion where
  regionid := 1
  iplist := (String.singleton ',').intercalate (addresses.map detectText)

theorem oneRegion_addresses (addresses : List Address) :
    itemAddresses ⟨5, 1⟩ (oneRegion addresses) (oneRegionItem addresses) = addresses := by
  rw [itemAddresses, oneRegion_selected]
  simp [oneRegion, oneRegionItem, List.filter_map, Function.comp_def]

theorem oneRegionItem_mem {addresses : List Address} (hne : addresses ≠ []) :
    oneRegionItem addresses ∈ getDetectIpPortList ⟨5, 1⟩ (oneRegion addresses) := by
  apply (mem_getDetectIpPortList _ _).mpr
  have haddresses := oneRegion_addresses addresses
  have hentries : regionEntries (selectRows ⟨5, 1⟩ (oneRegion addresses)) 1 =
      (itemAddresses ⟨5, 1⟩ (oneRegion addresses) (oneRegionItem addresses)).map
        detectText := by
    rw [regionEntries, itemAddresses, List.map_map]
    rfl
  rw [haddresses] at hentries
  constructor
  · apply regionEntries_ne_nil.mp
    simpa [oneRegionItem, hentries] using hne
  · simp only [oneRegionItem, hentries]

theorem covers_two_servers :
    Covers [firstServer, secondServer]
      (joinValues (inOrder (oneRegionItem [firstServer, secondServer]).iplist)) := by
  obtain ⟨hne, hiff⟩ := covers_iff_distinct_ips
    (oneRegionItem_mem (List.cons_ne_nil firstServer [secondServer])) .start
    (getDetectValue_inOrder 1 _)
  have hcovers := (hiff _ (sent_joinValues hne)).mpr (by
    rw [oneRegion_addresses]
    decide)
  rwa [oneRegion_addresses] at hcovers

/-- Two rows that differ in their ports only: one of them is lost. -/
def otherPort : Address := { firstServer with gameport := 443 }

theorem shared_ip_lost :
    ∃ item ∈ getDetectIpPortList ⟨5, 1⟩ (oneRegion [firstServer, otherPort]),
      ∃ resultdict detectdata,
        GetDetectValue onePing ∅ (Numeral.decimal 1) item.iplist resultdict ∧
          Sent resultdict detectdata ∧
            ¬Covers (itemAddresses ⟨5, 1⟩ (oneRegion [firstServer, otherPort]) item)
              detectdata := by
  have hitem := oneRegionItem_mem (List.cons_ne_nil firstServer [otherPort])
  have hresult := getDetectValue_inOrder 1 (oneRegionItem [firstServer, otherPort]).iplist
  have hkeyed := keyed_getDetectValue hitem Recorded.empty hresult
  rw [oneRegion_addresses] at hkeyed
  have hsent := sent_joinValues (hkeyed.entries_ne_nil (List.cons_ne_nil _ _))
  refine ⟨_, hitem, _, _, hresult, hsent, ?_⟩
  rw [oneRegion_addresses]
  intro hcovers
  have hip : firstServer.gameip = otherPort.gameip := rfl
  have hsame := hkeyed.eq_of_records hip (hkeyed.split_detectdata hsent)
    (hcovers.once firstServer (by simp)) (hcovers.once otherPort (by simp))
  exact absurd hsame (by decide)

end Example

end GameAcc.Agent
