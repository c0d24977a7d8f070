import GameAcc.Redis.Store

/-!
The keys and fields of the Redis database, as the loader, the aggregator and
the two Lua services put them together from ids. All four programs write the
same texts, so each text is defined once, under the name its builder has in
the aggregator or the loader.

Separation is argued on the words between the underscores. An id is *plain*
when it has no underscore; the text of a key over plain ids then determines the
kind of the key and all its ids. Keys whose ids come from a report need not be
plain, and for them the last two words still tell the kinds apart.
-/

namespace GameAcc.Redis

open GameAcc.Text

def VPN_ACTIVE_IP_TO_ID_DIC : String := "vpn_active_ip_to_id"
def ACTIVE_GAMEID_SET : String := "active_game_id"
def SPEC_USER_TO_SPEC_VPNIP : String := "spec_user_to_spec_vpnip"
def GAME_REDIS_OPTIONS : String := "game_redis_options"

def avaRegionKey (vpnid : String) : String := "vpn_" ++ vpnid ++ "_ava_rtt"

def activeidKey (vpnid : String) : String := "vpn_" ++ vpnid ++ "_detect_activeid"

def gameRegionKey (gameid : String) : String := "game_" ++ gameid ++ "_region"

def gameIplstKey (gameid : String) : String := "game_" ++ gameid ++ "_iplst"

def gameIplstActiveidKey (gameid : String) : String :=
  "game_" ++ gameid ++ "_iplst_activeid"

def detectDataKey (vpnid gameid regionid activeid : String) : String :=
  "vpn_" ++ vpnid ++ "_game_" ++ gameid ++ "_region_" ++ regionid ++
    "_detect_data_" ++ activeid

def regionRttField (gameid regionid : String) : String :=
  "game_" ++ gameid ++ "_region_" ++ regionid ++ "_rtt"

def regionRttCntField (gameid regionid : String) : String :=
  "game_" ++ gameid ++ "_region_" ++ regionid ++ "_rtt_cnt"

def activeidField (gameid regionid : String) : String :=
  "game_" ++ gameid ++ "_region_" ++ regionid ++ "_activeid"

def gameIplstKeyField (regionid activeid : String) : String :=
  "region_" ++ regionid ++ "_iplst_" ++ activeid

def gameIplstActiveidKeyField (regionid : String) : String :=
  "region_" ++ regionid ++ "_activeid"

/-- The words of a key or field. -/
def words (s : String) : List String := split '_' s

abbrev Plain (s : String) : Prop := Free '_' s

theorem words_plain {s : String} (h : Plain s) : words s = [s] := split_free h

theorem plain_decimal (n : Int) : Plain (Numeral.decimal n) :=
  free_decimal n (by decide) (by decide)

/-- Words joined by underscores. -/
def underscored (parts : List String) : String :=
  (String.singleton '_').intercalate parts

theorem words_underscored {parts : List String} (hne : parts ≠ []) :
    words (underscored parts) = parts.flatMap words :=
  split_intercalate_flatMap '_' hne

/-- The words of a key that is put together with underscores. -/
theorem words_of (parts : List String) {key : String} (hne : parts ≠ [])
    (hkey : key.toList = (underscored parts).toList) : words key = parts.flatMap words := by
  rw [String.ext hkey, words_underscored hne]

section Words

variable (vpnid gameid regionid activeid : String)

theorem words_avaRegionKey :
    words (avaRegionKey vpnid) = ["vpn"] ++ words vpnid ++ ["ava", "rtt"] := by
  rw [words_of ["vpn", vpnid, "ava", "rtt"] (by simp) (by simp [avaRegionKey, underscored])]
  simp (disch := decide) [words_plain]

theorem words_activeidKey :
    words (activeidKey vpnid) =
      ["vpn"] ++ words vpnid ++ ["detect", "activeid"] := by
  rw [words_of ["vpn", vpnid, "detect", "activeid"] (by simp) (by simp [activeidKey, underscored])]
  simp (disch := decide) [words_plain]

theorem words_gameRegionKey :
    words (gameRegionKey gameid) = ["game"] ++ words gameid ++ ["region"] := by
  rw [words_of ["game", gameid, "region"] (by simp) (by simp [gameRegionKey, underscored])]
  simp (disch := decide) [words_plain]

theorem words_gameIplstKey :
    words (gameIplstKey gameid) = ["game"] ++ words gameid ++ ["iplst"] := by
  rw [words_of ["game", gameid, "iplst"] (by simp) (by simp [gameIplstKey, underscored])]
  simp (disch := decide) [words_plain]

theorem words_gameIplstActiveidKey :
    words (gameIplstActiveidKey gameid) =
      ["game"] ++ words gameid ++ ["iplst", "activeid"] := by
  rw [words_of ["game", gameid, "iplst", "activeid"]
    (by simp) (by simp [gameIplstActiveidKey, underscored])]
  simp (disch := decide) [words_plain]

theorem words_detectDataKey :
    words (detectDataKey vpnid gameid regionid activeid) =
      ["vpn"] ++ words vpnid ++ ["game"] ++ words gameid ++ ["region"] ++
        words regionid ++ ["detect", "data"] ++ words activeid := by
  rw [words_of ["vpn", vpnid, "game", gameid, "region", regionid, "detect", "data", activeid]
    (by simp) (by simp [detectDataKey, underscored])]
  simp (disch := decide) [words_plain]

theorem words_regionRttField :
    words (regionRttField gameid regionid) =
      ["game"] ++ words gameid ++ ["region"] ++ words regionid ++ ["rtt"] := by
  rw [words_of ["game", gameid, "region", regionid, "rtt"]
    (by simp) (by simp [regionRttField, underscored])]
  simp (disch := decide) [words_plain]

theorem words_regionRttCntField :
    words (regionRttCntField gameid regionid) =
      ["game"] ++ words gameid ++ ["region"] ++ words regionid ++
        ["rtt", "cnt"] := by
  rw [words_of ["game", gameid, "region", regionid, "rtt", "cnt"]
    (by simp) (by simp [regionRttCntField, underscored])]
  simp (disch := decide) [words_plain]

theorem words_activeidField :
    words (activeidField gameid regionid) =
      ["game"] ++ words gameid ++ ["region"] ++ words regionid ++
        ["activeid"] := by
  rw [words_of ["game", gameid, "region", regionid, "activeid"]
    (by simp) (by simp [activeidField, underscored])]
  simp (disch := decide) [words_plain]

end Words

/-- The last two words, last one first. -/
def ending (s : String) : List String := (words s).reverse.take 2

theorem ne_of_ending {a b : String} (h : ending a ≠ ending b) : a ≠ b :=
  fun heq => h (congrArg ending heq)

section Endings

variable (vpnid gameid regionid : String)

@[simp] theorem ending_avaRegionKey :
    ending (avaRegionKey vpnid) = ["rtt", "ava"] := by
  simp [ending, words_avaRegionKey]

@[simp] theorem ending_activeidKey :
    ending (activeidKey vpnid) = ["activeid", "detect"] := by
  simp [ending, words_activeidKey]

@[simp] theorem ending_gameIplstActiveidKey :
    ending (gameIplstActiveidKey gameid) = ["activeid", "iplst"] := by
  simp [ending, words_gameIplstActiveidKey]

@[simp] theorem ending_detectDataKey {activeid : String} (h : Plain activeid) :
    ending (detectDataKey vpnid gameid regionid activeid) = [activeid, "data"] := by
  simp [ending, words_detectDataKey, words_plain h]

theorem ending_gameRegionKey : (ending (gameRegionKey gameid)).head? = some "region" := by
  simp [ending, words_gameRegionKey]

theorem ending_gameIplstKey : (ending (gameIplstKey gameid)).head? = some "iplst" := by
  simp [ending, words_gameIplstKey]

end Endings

/-- The texts an activeid of a buffer in use can have. -/
def IsBufferId (activeid : String) : Prop := activeid = "0" ∨ activeid = "1"

theorem IsBufferId.plain {activeid : String} (h : IsBufferId activeid) :
    Plain activeid := by
  rcases h with rfl | rfl <;> decide

section Buffers

variable {vpnid gameid regionid activeid : String}

/-- The key of a buffer is not the key of anything else. -/
theorem detectDataKey_ne (hid : IsBufferId activeid) {key : String}
    (hkey : ending key ≠ ["0", "data"] ∧ ending key ≠ ["1", "data"]) :
    key ≠ detectDataKey vpnid gameid regionid activeid := by
  apply ne_of_ending
  rw [ending_detectDataKey _ _ _ hid.plain]
  rcases hid with rfl | rfl
  · exact hkey.1
  · exact hkey.2

theorem avaRegionKey_ne_detectDataKey (hid : IsBufferId activeid) (v : String) :
    avaRegionKey v ≠ detectDataKey vpnid gameid regionid activeid :=
  detectDataKey_ne hid (by simp)

theorem activeidKey_ne_detectDataKey (hid : IsBufferId activeid) (v : String) :
    activeidKey v ≠ detectDataKey vpnid gameid regionid activeid :=
  detectDataKey_ne hid (by simp)

theorem gameRegionKey_ne_detectDataKey (hid : IsBufferId activeid) (g : String) :
    gameRegionKey g ≠ detectDataKey vpnid gameid regionid activeid := by
  apply detectDataKey_ne hid
  have h := ending_gameRegionKey g
  constructor <;> intro heq <;> simp [heq] at h

theorem gameIplstKey_ne_detectDataKey (hid : IsBufferId activeid) (g : String) :
    gameIplstKey g ≠ detectDataKey vpnid gameid regionid activeid := by
  apply detectDataKey_ne hid
  have h := ending_gameIplstKey g
  constructor <;> intro heq <;> simp [heq] at h

theorem gameIplstActiveidKey_ne_detectDataKey (hid : IsBufferId activeid)
    (g : String) :
    gameIplstActiveidKey g ≠ detectDataKey vpnid gameid regionid activeid :=
  detectDataKey_ne hid (by simp)

theorem activeGameidSet_ne_detectDataKey (hid : IsBufferId activeid) :
    ACTIVE_GAMEID_SET ≠ detectDataKey vpnid gameid regionid activeid :=
  detectDataKey_ne hid (by decide)

theorem vpnActiveIp_ne_detectDataKey (hid : IsBufferId activeid) :
    VPN_ACTIVE_IP_TO_ID_DIC ≠ detectDataKey vpnid gameid regionid activeid :=
  detectDataKey_ne hid (by decide)

end Buffers

theorem vpnActiveIp_ne_avaRegionKey (v : String) :
    VPN_ACTIVE_IP_TO_ID_DIC ≠ avaRegionKey v :=
  ne_of_ending (by rw [ending_avaRegionKey]; decide)

theorem vpnActiveIp_ne_activeidKey (v : String) :
    VPN_ACTIVE_IP_TO_ID_DIC ≠ activeidKey v :=
  ne_of_ending (by rw [ending_activeidKey]; decide)

theorem vpnActiveIp_ne_gameIplstKey (g : String) :
    VPN_ACTIVE_IP_TO_ID_DIC ≠ gameIplstKey g := by
  apply ne_of_ending
  have h := ending_gameIplstKey g
  intro heq
  have hconst : (ending VPN_ACTIVE_IP_TO_ID_DIC).head? = some "id" := by decide
  rw [← heq, hconst] at h
  simp at h

theorem vpnActiveIp_ne_gameIplstActiveidKey (g : String) :
    VPN_ACTIVE_IP_TO_ID_DIC ≠ gameIplstActiveidKey g :=
  ne_of_ending (by rw [ending_gameIplstActiveidKey]; decide)

theorem gameIplstKey_ne_avaRegionKey (g v : String) :
    gameIplstKey g ≠ avaRegionKey v := by
  apply ne_of_ending
  have h := ending_gameIplstKey g
  intro heq
  simp [heq] at h

theorem gameIplstKey_ne_activeidKey (g v : String) :
    gameIplstKey g ≠ activeidKey v := by
  apply ne_of_ending
  have h := ending_gameIplstKey g
  intro heq
  simp [heq] at h

theorem gameIplstActiveidKey_ne_avaRegionKey (g v : String) :
    gameIplstActiveidKey g ≠ avaRegionKey v :=
  ne_of_ending (by simp)

theorem gameIplstActiveidKey_ne_activeidKey (g v : String) :
    gameIplstActiveidKey g ≠ activeidKey v :=
  ne_of_ending (by simp)

theorem gameRegionKey_ne_activeGameidSet (g : String) :
    gameRegionKey g ≠ ACTIVE_GAMEID_SET := by
  intro h
  have hhead := ending_gameRegionKey g
  have hconst : (ending ACTIVE_GAMEID_SET).head? = some "id" := by decide
  rw [h, hconst] at hhead
  simp at hhead

theorem avaRegionKey_ne_activeidKey (a b : String) :
    avaRegionKey a ≠ activeidKey b :=
  ne_of_ending (by simp)

theorem activeidKey_injective : Function.Injective activeidKey := by
  intro a b h
  have hlist := congrArg String.toList h
  simpa [activeidKey, String.toList_inj] using hlist

theorem avaRegionKey_injective : Function.Injective avaRegionKey := by
  intro a b h
  have hlist := congrArg String.toList h
  simpa [avaRegionKey, String.toList_inj] using hlist

theorem gameRegionKey_injective : Function.Injective gameRegionKey := by
  intro a b h
  have hlist := congrArg String.toList h
  simpa [gameRegionKey, String.toList_inj] using hlist

theorem gameIplstKey_injective : Function.Injective gameIplstKey := by
  intro a b h
  have hlist := congrArg String.toList h
  simpa [gameIplstKey, String.toList_inj] using hlist

theorem gameIplstActiveidKey_injective : Function.Injective gameIplstActiveidKey := by
  intro a b h
  have hlist := congrArg String.toList h
  simpa [gameIplstActiveidKey, String.toList_inj] using hlist

theorem gameIplstKeyField_injective (activeid : String) :
    Function.Injective (fun regionid => gameIplstKeyField regionid activeid) := by
  intro a b h
  have hlist := congrArg String.toList h
  simpa [gameIplstKeyField, String.toList_inj] using hlist

theorem gameIplstActiveidKeyField_injective :
    Function.Injective gameIplstActiveidKeyField := by
  intro a b h
  have hlist := congrArg String.toList h
  simpa [gameIplstActiveidKeyField, String.toList_inj] using hlist

theorem gameIplstKey_ne_gameIplstActiveidKey (a b : String) :
    gameIplstKey a ≠ gameIplstActiveidKey b := by
  apply ne_of_ending
  have h := ending_gameIplstKey a
  intro heq
  simp [heq] at h

/-- A field over arbitrary ids that equals one over plain ids has these ids:
the plain one has five words, and every id contributes at least one. -/
theorem activeidField_eq {gameid regionid game region : String}
    (hgame : Plain game) (hregion : Plain region)
    (h : activeidField gameid regionid = activeidField game region) :
    gameid = game ∧ regionid = region := by
  have hwords := congrArg words h
  rw [words_activeidField, words_activeidField, words_plain hgame,
    words_plain hregion] at hwords
  obtain ⟨g, gs, hg⟩ := List.exists_cons_of_ne_nil (split_ne_nil '_' gameid)
  obtain ⟨r, rs, hr⟩ := List.exists_cons_of_ne_nil (split_ne_nil '_' regionid)
  have hg' : words gameid = g :: gs := hg
  have hr' : words regionid = r :: rs := hr
  have hlength := congrArg List.length hwords
  simp only [hg', hr', List.length_append, List.length_cons, List.length_nil] at hlength
  have hgs : gs = [] := List.length_eq_zero_iff.mp (by omega)
  have hrs : rs = [] := List.length_eq_zero_iff.mp (by omega)
  subst hgs hrs
  rw [hg', hr'] at hwords
  have hids : g = game ∧ r = region := by simpa using hwords
  exact ⟨(eq_of_split_singleton hg).trans hids.1,
    (eq_of_split_singleton hr).trans hids.2⟩

section PlainIds

variable {g r g' r' : String} (hg : Plain g) (hr : Plain r) (hg' : Plain g')
  (hr' : Plain r')

include hg hr hg' hr'

theorem regionRttField_eq (h : regionRttField g r = regionRttField g' r') :
    g = g' ∧ r = r' := by
  have hwords := congrArg words h
  simpa [words_regionRttField, words_plain hg, words_plain hr, words_plain hg',
    words_plain hr'] using hwords

theorem regionRttCntField_eq (h : regionRttCntField g r = regionRttCntField g' r') :
    g = g' ∧ r = r' := by
  have hwords := congrArg words h
  simpa [words_regionRttCntField, words_plain hg, words_plain hr, words_plain hg',
    words_plain hr'] using hwords

theorem detectDataKey_eq {v v' a a' : String} (hv : Plain v) (hv' : Plain v')
    (ha : Plain a) (ha' : Plain a')
    (h : detectDataKey v g r a = detectDataKey v' g' r' a') :
    v = v' ∧ g = g' ∧ r = r' ∧ a = a' := by
  have hwords := congrArg words h
  simpa [words_detectDataKey, words_plain hg, words_plain hr, words_plain hg',
    words_plain hr', words_plain hv, words_plain hv', words_plain ha,
    words_plain ha'] using hwords

end PlainIds

theorem regionRttField_ne_regionRttCntField (g r g' r' : String) :
    regionRttField g r ≠ regionRttCntField g' r' := by
  intro h
  have hwords := congrArg (fun s => (words s).reverse.head?) h
  simp [words_regionRttField, words_regionRttCntField] at hwords

end GameAcc.Redis
