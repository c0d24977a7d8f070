import GameAcc.Lua.Value
import GameAcc.Writer.History

/-!
What the requests look up, in the stores that calls reach from the loaded one:
the active nodes, the active games and their regions are those of MySQL.
-/

namespace GameAcc.Lua

open GameAcc.Redis GameAcc.Mysql GameAcc.Writer GameAcc.Text

variable {db : Database} {s : Store}

/-- An active node's id is a node's. -/
theorem active_node (hs : Sound db s) {ip vpnid : String}
    (h : s.hash VPN_ACTIVE_IP_TO_ID_DIC ip = some vpnid) :
    ∃ v, (ip, v) ∈ db.enabledVpnIps ∧ vpnid = Numeral.decimal v := by
  rw [hs.vpnIps] at h
  exact load_vpnIp_eq db h

theorem active_game (hs : Sound db s) {game : String}
    (h : game ∈ s.set ACTIVE_GAMEID_SET) :
    ∃ g, db.Enabled g ∧ game = Numeral.decimal g := by
  rw [hs.activeGameids] at h
  exact (mem_activeGameids db).mp h

theorem active_region (hs : Sound db s) {g : Int} (hg : db.Enabled g) {region : String}
    (h : region ∈ s.set (gameRegionKey (Numeral.decimal g))) :
    ∃ r ∈ db.regionids g, region = Numeral.decimal r := by
  rw [hs.gameRegions] at h
  exact (mem_gameRegions_known db hg.known).mp h

/-- The games and regions a request can name. -/
theorem accepts_iff (hs : Sound db s) {gameid regionid : Double} :
    Accepts s gameid regionid ↔ ∃ g, db.Enabled g ∧ numberText gameid = Numeral.decimal g ∧
      (regionid.rat = some 0 ∨ ∃ r ∈ db.regionids g, numberText regionid = Numeral.decimal r) := by
  constructor
  · rintro ⟨hgame, hregion⟩
    obtain ⟨g, hg, htext⟩ := active_game hs hgame
    refine ⟨g, hg, htext, ?_⟩
    by_cases hzero : regionid.rat = some 0
    · exact .inl hzero
    · have hmem := hregion hzero
      rw [htext] at hmem
      exact .inr (active_region hs hg hmem)
  · rintro ⟨g, hg, hgame, hregion⟩
    constructor
    · rw [hgame, hs.activeGameids]
      exact (mem_activeGameids db).mpr ⟨g, hg, rfl⟩
    · intro hne
      rcases hregion with hzero | ⟨r, hr, htext⟩
      · exact absurd hzero hne
      · rw [hgame, htext, hs.gameRegions]
        exact (mem_gameRegions_known db hg.known).mpr ⟨r, hr, rfl⟩

end GameAcc.Lua
