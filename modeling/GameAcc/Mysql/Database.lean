import GameAcc.Foundations.Text
import Mathlib.Data.List.Dedup
import Mathlib.Data.List.Sort

/-!
The MySQL tables the programs select from, and the selections. A table is the
list of its rows in the order the server returns them. Columns that no modelled
query reads are left out.
-/

namespace GameAcc.Mysql

open GameAcc.Text

/-- The text of a game server's address. It is put into lists separated by
commas and into records separated by slashes. -/
def IpText : Type := {s : String // Free ',' s ∧ Free '/' s}

instance : DecidableEq IpText := inferInstanceAs (DecidableEq (Subtype _))

structure VpnNode where
  nodeid : Int
  enabled : Int

structure VpnNodeIp where
  vpnip : String
  nodeid : Int

structure GameName where
  gameId : Int
  adminEnable : Int
  gameListPercent : Int

structure GameRegion where
  gameid : Int
  regionid : Int

/-- The columns `gameip`, `gamemask` and `gameport`. -/
structure Address where
  gameip : IpText
  gamemask : Int
  gameport : Int
  deriving DecidableEq

structure GameServer where
  gameid : Int
  gameregionid : Int
  address : Address

structure SpecUserVpn where
  username : String
  vpnip : String

structure Database where
  vpnNodeTbl : List VpnNode
  vpnNodeIpTbl : List VpnNodeIp
  gameNameTbl : List GameName
  gameRegionTbl : List GameRegion
  gameServerTbl : List GameServer
  gameSpecUserVpnTbl : List SpecUserVpn

namespace Database

variable (db : Database)

/-- The addresses of the enabled nodes, with the node's id. -/
def enabledVpnIps : List (String × Int) :=
  db.vpnNodeIpTbl.flatMap (fun ip =>
    (db.vpnNodeTbl.filter (fun node => node.nodeid = ip.nodeid ∧ node.enabled = 1)).map
      (fun node => (ip.vpnip, node.nodeid)))

def nodeids : List Int :=
  (db.vpnNodeTbl.map VpnNode.nodeid).insertionSort (· ≤ ·)

def regionGameids : List Int :=
  (db.gameRegionTbl.map GameRegion.gameid).dedup.insertionSort (· ≤ ·)

def regionids (gameid : Int) : List Int :=
  (db.gameRegionTbl.filter (fun row => row.gameid = gameid)).map GameRegion.regionid

def addresses (gameid regionid : Int) : List Address :=
  (db.gameServerTbl.filter (fun row =>
    row.gameid = gameid ∧ row.gameregionid = regionid)).map GameServer.address

/-- A game that `game_name_tbl` knows. -/
def Known (gameid : Int) : Prop := ∃ row ∈ db.gameNameTbl, row.gameId = gameid

def Enabled (gameid : Int) : Prop :=
  ∃ row ∈ db.gameNameTbl, row.gameId = gameid ∧ row.adminEnable = 1

/-- The triples a report can be about: a node, and a region of a game. -/
structure Registered (vpnid gameid regionid : Int) : Prop where
  node : vpnid ∈ db.nodeids
  region : regionid ∈ db.regionids gameid

theorem Enabled.known {db : Database} {gameid : Int} (h : db.Enabled gameid) :
    db.Known gameid := by
  obtain ⟨row, hrow, hid, _⟩ := h
  exact ⟨row, hrow, hid⟩

theorem mem_enabledVpnIps {ip : String} {vpnid : Int} :
    (ip, vpnid) ∈ db.enabledVpnIps ↔
      (∃ row ∈ db.vpnNodeIpTbl, row.vpnip = ip ∧ row.nodeid = vpnid) ∧
        ∃ node ∈ db.vpnNodeTbl, node.nodeid = vpnid ∧ node.enabled = 1 := by
  rw [enabledVpnIps, List.mem_flatMap]
  constructor
  · rintro ⟨row, hrow, hmem⟩
    obtain ⟨node, hnode, heq⟩ := List.mem_map.mp hmem
    obtain ⟨hnode, hid, henabled⟩ := by simpa using hnode
    obtain ⟨rfl, rfl⟩ := Prod.mk.inj heq
    exact ⟨⟨row, hrow, rfl, hid.symm⟩, node, hnode, rfl, henabled⟩
  · rintro ⟨⟨row, hrow, rfl, hid⟩, node, hnode, rfl, henabled⟩
    refine ⟨row, hrow, List.mem_map.mpr ⟨node, ?_, rfl⟩⟩
    simpa using ⟨hnode, hid.symm, henabled⟩

theorem mem_nodeids {vpnid : Int} :
    vpnid ∈ db.nodeids ↔ ∃ node ∈ db.vpnNodeTbl, node.nodeid = vpnid := by
  rw [nodeids, List.mem_insertionSort, List.mem_map]

theorem mem_regionids {gameid regionid : Int} :
    regionid ∈ db.regionids gameid ↔
      ∃ row ∈ db.gameRegionTbl, row.gameid = gameid ∧ row.regionid = regionid := by
  simp [regionids, and_assoc]

theorem mem_regionGameids {gameid : Int} :
    gameid ∈ db.regionGameids ↔ ∃ regionid, regionid ∈ db.regionids gameid := by
  rw [regionGameids, List.mem_insertionSort, List.mem_dedup, List.mem_map]
  constructor
  · rintro ⟨row, hrow, hid⟩
    exact ⟨row.regionid, db.mem_regionids.mpr ⟨row, hrow, hid, rfl⟩⟩
  · rintro ⟨regionid, hmem⟩
    obtain ⟨row, hrow, hid, _⟩ := db.mem_regionids.mp hmem
    exact ⟨row, hrow, hid⟩

theorem mem_addresses {gameid regionid : Int} {address : Address} :
    address ∈ db.addresses gameid regionid ↔
      ∃ row ∈ db.gameServerTbl, row.gameid = gameid ∧
        row.gameregionid = regionid ∧ row.address = address := by
  simp [addresses, and_assoc]

/-- A node that owns an enabled address is a node. -/
theorem node_of_enabledVpnIps {ip : String} {vpnid : Int}
    (h : (ip, vpnid) ∈ db.enabledVpnIps) : vpnid ∈ db.nodeids := by
  obtain ⟨_, node, hnode, hid, _⟩ := db.mem_enabledVpnIps.mp h
  exact db.mem_nodeids.mpr ⟨node, hnode, hid⟩

end Database

/-- `ip:port/mask`, the form in which an address is stored and returned. -/
def Address.text (a : Address) : String :=
  a.gameip.val ++ ":" ++ Numeral.decimal a.gameport ++ "/" ++
    Numeral.decimal a.gamemask

/-- The last colon and the only slash separate the three texts. -/
theorem Address.text_injective : Function.Injective Address.text := by
  intro a b h
  have hslash : ∀ x : Address, split '/' x.text =
      split '/' (x.gameip.val ++ String.singleton ':' ++ Numeral.decimal x.gameport) ++
        [Numeral.decimal x.gamemask] := by
    intro x
    have htext : x.text = (x.gameip.val ++ String.singleton ':' ++
        Numeral.decimal x.gameport) ++ String.singleton '/' ++
          Numeral.decimal x.gamemask := rfl
    rw [htext, split_append, split_free (free_decimal _ (by decide) (by decide))]
  have hcolon : ∀ x : Address,
      split ':' (x.gameip.val ++ String.singleton ':' ++ Numeral.decimal x.gameport) =
        split ':' x.gameip.val ++ [Numeral.decimal x.gameport] := by
    intro x
    rw [split_append, split_free (free_decimal _ (by decide) (by decide))]
  have hparts := congrArg (split '/') h
  rw [hslash, hslash] at hparts
  obtain ⟨hfront, hmask⟩ := List.append_inj' hparts rfl
  have hipport := congrArg (split ':') (split_injective '/' hfront)
  rw [hcolon, hcolon] at hipport
  obtain ⟨hip, hport⟩ := List.append_inj' hipport rfl
  have hgameip : a.gameip = b.gameip := Subtype.ext (split_injective ':' hip)
  have hgameport : a.gameport = b.gameport :=
    decimal_injective (List.head_eq_of_cons_eq hport)
  have hgamemask : a.gamemask = b.gamemask :=
    decimal_injective (List.head_eq_of_cons_eq hmask)
  obtain ⟨aip, amask, aport⟩ := a
  obtain ⟨bip, bmask, bport⟩ := b
  exact Address.mk.injEq .. ▸ ⟨hgameip, hgamemask, hgameport⟩

theorem Address.text_free (a : Address) : Free ',' a.text := by
  have hcolon : Free ',' ":" := by decide
  have hslash : Free ',' "/" := by decide
  have hport : Free ',' (Numeral.decimal a.gameport) :=
    free_decimal _ (by decide) (by decide)
  have hmask : Free ',' (Numeral.decimal a.gamemask) :=
    free_decimal _ (by decide) (by decide)
  unfold Address.text
  exact free_append (free_append (free_append (free_append a.gameip.property.1
    hcolon) hport) hslash) hmask

theorem Address.text_ne_empty (a : Address) : a.text ≠ "" := by
  intro h
  have hlist := congrArg String.toList h
  simp [Address.text] at hlist

/-- The addresses of a list are read back from its text. -/
theorem fields_texts (addresses : List Address) :
    fields ',' ((String.singleton ',').intercalate (addresses.map Address.text)) =
      addresses.map Address.text := by
  apply fields_intercalate
  · intro part hpart
    obtain ⟨a, _, rfl⟩ := List.mem_map.mp hpart
    exact a.text_free
  · intro part hpart
    obtain ⟨a, _, rfl⟩ := List.mem_map.mp hpart
    exact a.text_ne_empty

end GameAcc.Mysql
