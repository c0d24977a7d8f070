import GameAcc.Lua.Entry
import GameAcc.Lua.GameListAccelerated
import GameAcc.Lua.Process

/-!
`cc_getgamelistporttext.lua` on a decoded request of any shape. `checkparm` turns
down a game or a region that is no number, and indexes `svpninfo` without a test
of its type; its time is taken for a number later, and only on some paths, one of
which sends it to Redis as a bound.
-/

namespace GameAcc.Lua.GameListRequest

open GameAcc.Redis GameAcc.Mysql GameAcc.Command Entry
open GameListPortText (Self SvpnInfo MOD_ERR_BASE MOD_ERR_INVALID_PARAM)

def MOD_ERR_PARAM_TYPE : Int := MOD_ERR_BASE - 2

section Check

/-- `svpninfo` is kept when it has both members. -/
def keepSvpnInfo (ip rtt : Value) : Option SvpnInfo :=
  if hip : ip = .nil then none
  else if hrtt : rtt = .nil then none
  else some ⟨ip, rtt, hip, hrtt⟩

def checkparmSvpnInfo (gameid regionid : Double) : Option Json → Except Stop Self
  | none => .ok ⟨gameid, regionid, none⟩
  | some svpninfo => do
    let ip ← member svpninfo "ip"
    let rtt ← member svpninfo "rtt"
    .ok ⟨gameid, regionid, keepSvpnInfo ip rtt⟩

def checkparmTypes (reqParam : Json) : Except Stop Self := do
  let gameid ← member reqParam "gameid"
  let regionid ← member reqParam "regionid"
  match gameid.tonumber, regionid.tonumber with
  | some gameid, some regionid => do
    let svpninfo ← reqParam.index "svpninfo"
    checkparmSvpnInfo gameid regionid svpninfo
  | _, _ => .error (.exit MOD_ERR_PARAM_TYPE)

def checkparmData : Option Json → Except Stop Self
  | none => .error (.exit MOD_ERR_INVALID_PARAM)
  | some reqParam => do
    let missing ← anyNil reqParam ["gameid", "regionid"]
    if missing = true then .error (.exit MOD_ERR_INVALID_PARAM)
    else checkparmTypes reqParam

def checkparm (userreq : Json) : Except Stop Self := do
  let data ← userreq.index "data"
  checkparmData data

def process (userreq : Json) (db : Database) : Handler String := do
  let self ← evaluate (checkparm userreq)
  GameListPortText.process self db

end Check

section Returns

variable {α β : Type} {s : Store}

/-- On the store the handler ends with the value, whatever it is part of. -/
def Returns (p : Handler β) (s : Store) (b : β) : Prop :=
  ∀ {α : Type} (f : β → Handler α), answer (p >>= f) s = answer (f b) s

theorem returns_done (b : β) : Returns (.done b) s b := fun _ => rfl

theorem Returns.bind {p : Handler β} {b : β} {f : β → Handler α} {a : α}
    (hp : Returns p s b) (hf : Returns (f b) s a) : Returns (p >>= f) s a := by
  intro γ g
  rw [Program.bind_assoc, hp, hf]

theorem returns_redisHashGet (hashname key : String) :
    Returns (redisHashGet hashname key) s (Value.ofReply (s.hash hashname key)) :=
  answer_redisHashGet s hashname key

theorem returns_zrangebyscore (key min max : String) :
    Returns (zrangebyscore key min max) s ((s.zset key).rangeByBounds min max) :=
  answer_zrangebyscore s key min max

end Returns

section Lists

variable {s : Store} {self : Self}

/-- A list, or no list. -/
def TextOrNil (value : Value) : Prop := value = .nil ∨ ∃ text, value = .str text

theorem textOrNil_ofReply (reply : Option String) : TextOrNil (Value.ofReply reply) := by
  cases reply with
  | none => exact .inl rfl
  | some text => exact .inr ⟨text, rfl⟩

/-- The handler ends with a list or with no list. -/
def Lists (p : Handler Value) (s : Store) : Prop := ∃ value, TextOrNil value ∧ Returns p s value

theorem lists_nil : Lists (.done .nil) s := ⟨.nil, .inl rfl, returns_done _⟩

theorem lists_text (text : String) : Lists (.done (.str text)) s :=
  ⟨.str text, .inr ⟨text, rfl⟩, returns_done _⟩

theorem Lists.bind {β : Type} {p : Handler β} {b : β} {f : β → Handler Value}
    (hp : Returns p s b) (hf : Lists (f b) s) : Lists (p >>= f) s := by
  obtain ⟨value, hvalue, hreturns⟩ := hf
  exact ⟨value, hvalue, hp.bind hreturns⟩

/-- An activeid that passes the test is a text. -/
theorem activeid_text {reply : Option String}
    (h : ¬GameListPortText.noActiveid (Value.ofReply reply) = true) :
    ∃ text, Value.ofReply reply = .str text := by
  cases reply with
  | none => simp [GameListPortText.noActiveid, Value.ofReply] at h
  | some text => exact ⟨text, rfl⟩

/-- A bound that is a number is read by Redis. -/
theorem rangeByBounds_of_extended {rtt : Double} (h : rtt.extended ≠ none) (z : SortedSet) :
    ∃ members, z.rangeByBounds (numberText 0)
      (numberText (GameListPortText.MAXTRANSRTT - rtt)) = some members := by
  obtain ⟨x, hx⟩ := Option.ne_none_iff_exists'.mp h
  have hzero : readBound (numberText 0) = some (.fin 0) := by
    decide +kernel
  obtain ⟨t, _, ht, _, _⟩ :=
    GameListPortText.threshold_antitone ((Double.le_iff hx hx).mpr le_rfl)
  unfold GameListPortText.threshold at ht
  exact ⟨z.rangeByScore (.fin 0) t, by simp [SortedSet.rangeByBounds, hzero, ht]⟩

/-- A bound that is `nan` is refused. -/
theorem rangeByBounds_of_nan {rtt : Double} (h : rtt.extended = none) (z : SortedSet) :
    z.rangeByBounds (numberText 0)
      (numberText (GameListPortText.MAXTRANSRTT - rtt)) = none := by
  have hnan : readBound (numberText (GameListPortText.MAXTRANSRTT - .nan)) = none := by
    decide +kernel
  cases rtt with
  | nan => simp [SortedSet.rangeByBounds, hnan]
  | infinity negative => cases h
  | finite negative magnitude => cases h

theorem lists_fetchDetectData {svpninfo : SvpnInfo} (hrtt : (svpninfo.rtt.tonumber).isSome)
    (vpn : String) (regionid : Double) {reply : Option String}
    (hrange : svpninfo.rtt.extended = none →
      GameListPortText.noActiveid (Value.ofReply reply) = true) :
    Lists (GameListPortText.fetchDetectData self svpninfo vpn regionid
      (Value.ofReply reply)) s := by
  obtain ⟨rtt, hrtt⟩ := Option.isSome_iff_exists.mp hrtt
  unfold GameListPortText.fetchDetectData
  split
  · exact lists_nil
  · rename_i hid
    obtain ⟨text, htext⟩ := activeid_text hid
    have hbound : rtt.extended ≠ none := by
      intro hnone
      apply hid
      apply hrange
      rw [Value.extended, hrtt]
      exact hnone
    simp only [hrtt, htext]
    apply Lists.bind (returns_done text)
    apply Lists.bind (returns_zrangebyscore _ _ _)
    obtain ⟨members, hmembers⟩ := rangeByBounds_of_extended hbound
      (s.zset (detectDataKey vpn (numberText self.gameid) (numberText regionid) text))
    rw [hmembers, GameListPortText.rangeReply_some]
    exact lists_text _

/-- The range is asked for with a bound that is no number: the time is `nan`, and
the node has an activeid for the game. -/
def RangeRefused (s : Store) (self : Self) : Prop :=
  ∃ svpninfo vpn, self.svpninfo = some svpninfo ∧ svpninfo.rtt.extended = none ∧
    s.hash VPN_ACTIVE_IP_TO_ID_DIC svpninfo.ip.tostring = some vpn ∧
    GameListPortText.noActiveid
      (Value.ofReply (GameListPortText.lookedAt s vpn self.gameid)) = false

theorem lists_getGameIpListBySvpnInfo {svpninfo : SvpnInfo}
    (haccepts : Accepts s self.gameid self.regionid) (hself : self.svpninfo = some svpninfo)
    (hrtt : (svpninfo.rtt.tonumber).isSome) (hrange : ¬RangeRefused s self) :
    Lists (GameListPortText.getGameIpListBySvpnInfo self svpninfo) s := by
  apply Lists.bind (b := ()) (GameListPortText.answer_validateGameRegion haccepts)
  apply Lists.bind (returns_redisHashGet _ _)
  cases hvpn : s.hash VPN_ACTIVE_IP_TO_ID_DIC svpninfo.ip.tostring with
  | none => exact lists_nil
  | some vpn =>
    obtain ⟨rtt, hsome⟩ := Option.isSome_iff_exists.mp hrtt
    rw [if_neg (by simp [Value.ofReply]), hsome]
    apply Lists.bind (returns_done (decide (rtt < GameListPortText.MINVPNRTT)))
    split
    · exact lists_text ""
    · apply Lists.bind (returns_done vpn)
      apply Lists.bind (returns_redisHashGet _ _)
      apply lists_fetchDetectData hrtt
      intro hnan
      by_contra hid
      refine hrange ⟨svpninfo, vpn, hself, hnan, hvpn, ?_⟩
      rw [GameListPortText.lookedAt, ← GameListPortText.numberText_one]
      exact Bool.eq_false_iff.mpr hid

theorem lists_getGameIpListWithoutSvpnInfo (haccepts : Accepts s self.gameid self.regionid) :
    Lists (GameListPortText.getGameIpListWithoutSvpnInfo self) s := by
  apply Lists.bind (b := ()) (GameListPortText.answer_validateGameRegion haccepts)
  apply Lists.bind (returns_redisHashGet _ _)
  split
  · exact lists_nil
  · rename_i hid
    obtain ⟨text, htext⟩ := activeid_text hid
    rw [htext]
    apply Lists.bind (returns_done text)
    exact ⟨_, textOrNil_ofReply _, returns_redisHashGet _ _⟩

/-- The `svpninfo` that was kept has a time that is a number. -/
def Timed (self : Self) : Prop :=
  ∀ svpninfo, self.svpninfo = some svpninfo → (svpninfo.rtt.tonumber).isSome

theorem lists_getGameIpListRedis (haccepts : Accepts s self.gameid self.regionid)
    (htimed : Timed self) (hrange : ¬RangeRefused s self) :
    Lists (GameListPortText.getGameIpListRedis self) s := by
  have hwithout : ∀ value, TextOrNil value → Lists (if value = .nil then
      GameListPortText.getGameIpListWithoutSvpnInfo self else .done value) s := by
    rintro value (rfl | ⟨text, rfl⟩)
    · rw [if_pos rfl]
      exact lists_getGameIpListWithoutSvpnInfo haccepts
    · rw [if_neg (by simp)]
      exact lists_text text
  unfold GameListPortText.getGameIpListRedis
  cases hsvpn : self.svpninfo with
  | none => exact Lists.bind (returns_done _) (hwithout .nil (.inl rfl))
  | some svpninfo =>
    obtain ⟨value, hvalue, hreturns⟩ :=
      lists_getGameIpListBySvpnInfo haccepts hsvpn (htimed svpninfo hsvpn) hrange
    exact Lists.bind hreturns (hwithout value hvalue)

/-- A request of an accepted game, and any request without Redis, gets a list. -/
theorem process_sends (db : Database) (htimed : Timed self)
    (haccepts : RedisOn s → Accepts s self.gameid self.regionid)
    (hrange : RedisOn s → ¬RangeRefused s self) :
    ∃ text, answer (GameListPortText.process self db) s = .ok text := by
  rw [GameListPortText.process, answer_redisEnable]
  by_cases hon : RedisOn s
  · obtain ⟨value, hvalue, hreturns⟩ := lists_getGameIpListRedis (haccepts hon) htimed (hrange hon)
    unfold RedisOn at hon
    rw [if_pos hon, hreturns]
    rcases hvalue with rfl | ⟨text, rfl⟩
    · exact ⟨_, rfl⟩
    · exact ⟨_, rfl⟩
  · unfold RedisOn at hon
    rw [if_neg hon]
    exact ⟨_, rfl⟩

end Lists

/-- Whatever is sent stands between quotation marks. -/
theorem process_quoted (self : Self) (db : Database) :
    Ends (fun text => ∃ gameiplist, text = GameListPortText.quoted gameiplist)
      (GameListPortText.process self db) := by
  apply Ends.bind
  intro switchRedisOn
  split
  · apply Ends.bind
    intro gameiplist
    split
    · exact ⟨_, rfl⟩
    · exact Ends.bind (fun text => ⟨text, rfl⟩)
  · exact ⟨_, rfl⟩

section Rejection

variable {s : Store} {self : Self}

theorem redis_rejected {α : Type} (hrejects : ¬Accepts s self.gameid self.regionid)
    (f : Value → Handler α) :
    answer (GameListPortText.getGameIpListRedis self >>= f) s =
      .error (.exit MOD_ERR_INVALID_PARAM) := by
  cases hsvpn : self.svpninfo with
  | none =>
    have hwithout : GameListPortText.getGameIpListRedis self =
        GameListPortText.getGameIpListWithoutSvpnInfo self := by
      simp only [GameListPortText.getGameIpListRedis, hsvpn]
      rfl
    rw [hwithout, GameListPortText.getGameIpListWithoutSvpnInfo, Program.bind_assoc]
    exact GameListPortText.answer_validateGameRegion_rejects hrejects _
  | some svpninfo =>
    simp only [GameListPortText.getGameIpListRedis, hsvpn,
      GameListPortText.getGameIpListBySvpnInfo, Program.bind_assoc]
    exact GameListPortText.answer_validateGameRegion_rejects hrejects _

theorem process_rejected (db : Database) (hon : RedisOn s)
    (hrejects : ¬Accepts s self.gameid self.regionid) :
    answer (GameListPortText.process self db) s = .error (.exit MOD_ERR_INVALID_PARAM) := by
  unfold RedisOn at hon
  rw [GameListPortText.process, answer_redisEnable, if_pos hon]
  exact redis_rejected hrejects _

theorem bySvpnInfo_isError (svpninfo : SvpnInfo)
    (haccepts : Accepts s self.gameid self.regionid) {e : Stop}
    (h : answer (GameListPortText.getGameIpListBySvpnInfo self svpninfo) s = .error e) :
    e.IsError := by
  rw [GameListPortText.getGameIpListBySvpnInfo,
    GameListPortText.answer_validateGameRegion haccepts] at h
  refine answer_isError ?_ h
  apply (stops_redisHashGet _ _).bind
  intro vpnid
  split
  · trivial
  apply (stops_less _ _).bind
  intro near
  split
  · trivial
  apply (stops_concatText vpnid).bind
  intro vpn
  apply (stops_redisHashGet _ _).bind
  intro activeid
  unfold GameListPortText.fetchDetectData
  split
  · trivial
  split
  · trivial
  · apply (stops_concatText activeid).bind
    intro id gameiplsttbl
    simp only [Program.bind]
    rcases gameiplsttbl with _ | _ | ⟨member, rest⟩ <;> trivial

/-- Any other request gets a list, or ends in an error of Lua. -/
theorem process_isError (db : Database)
    (haccepts : RedisOn s → Accepts s self.gameid self.regionid) {e : Stop}
    (h : answer (GameListPortText.process self db) s = .error e) : e.IsError := by
  cases hsvpn : self.svpninfo with
  | none =>
    have htimed : Timed self := fun svpninfo hsome => by cases hsvpn.symm.trans hsome
    have hrange : ¬RangeRefused s self := by
      rintro ⟨svpninfo, _, hsome, _⟩
      cases hsvpn.symm.trans hsome
    obtain ⟨text, htext⟩ := process_sends db htimed haccepts (fun _ => hrange)
    rw [htext] at h
    cases h
  | some svpninfo =>
    by_cases hon : RedisOn s
    · have hon' := hon
      unfold RedisOn at hon'
      rw [GameListPortText.process, answer_redisEnable, if_pos hon'] at h
      simp only [GameListPortText.getGameIpListRedis, hsvpn, Program.bind_assoc] at h
      rw [answer_bind _ _ s (GameListPortText.only_getGameIpListBySvpnInfo self svpninfo)] at h
      cases hnear : answer (GameListPortText.getGameIpListBySvpnInfo self svpninfo) s with
      | error e' =>
        simp only [hnear, Except.error.injEq] at h
        obtain rfl := h
        exact bySvpnInfo_isError svpninfo (haccepts hon) hnear
      | ok value =>
        simp only [hnear] at h
        split at h
        · obtain ⟨value', hvalue, hreturns⟩ :=
            lists_getGameIpListWithoutSvpnInfo (haccepts hon)
          rw [hreturns] at h
          rcases hvalue with rfl | ⟨text, rfl⟩ <;> cases h
        · refine answer_isError ?_ h
          rw [Program.done_bind]
          split
          · trivial
          · exact (stops_concatText value).bind (fun _ => trivial)
    · unfold RedisOn at hon
      rw [GameListPortText.process, answer_redisEnable, if_neg hon] at h
      cases h

/-- A bound that Redis refuses ends an accepted request in an error of Lua. -/
theorem process_refused (db : Database) (hon : RedisOn s)
    (haccepts : Accepts s self.gameid self.regionid) (htimed : Timed self)
    (h : RangeRefused s self) :
    ∃ message, answer (GameListPortText.process self db) s = .error (.error message) := by
  obtain ⟨svpninfo, vpn, hsvpn, hnan, hvpn, hid⟩ := h
  obtain ⟨rtt, hrtt⟩ := Option.isSome_iff_exists.mp (htimed svpninfo hsvpn)
  have hextended : rtt.extended = none := by
    rw [Value.extended, hrtt] at hnan
    exact hnan
  have hnear : ¬rtt < GameListPortText.MINVPNRTT := by
    rintro ⟨x, hx, _⟩
    cases hextended.symm.trans hx
  have htext : ∃ activeid, GameListPortText.lookedAt s vpn self.gameid = some activeid := by
    cases hreply : GameListPortText.lookedAt s vpn self.gameid with
    | none => simp [hreply, Value.ofReply, GameListPortText.noActiveid] at hid
    | some activeid => exact ⟨activeid, rfl⟩
  obtain ⟨activeid, hactive⟩ := htext
  rw [hactive] at hid
  have hby := GameListPortText.answer_getGameIpListBySvpnInfo svpninfo haccepts
  rw [GameListPortText.lookedAt] at hactive
  simp only [hvpn, hrtt, if_neg hnear, GameListPortText.numberText_one, hactive,
    Value.ofReply] at hby hid
  have hfetch : answer (GameListPortText.fetchDetectData self svpninfo vpn 1 (.str activeid)) s =
      .error (.error "bad argument #1 to 'getn' (table expected, got boolean)") := by
    simp only [GameListPortText.fetchDetectData, hid, Bool.false_eq_true, if_false, hrtt,
      concatText, Program.done_bind, answer_zrangebyscore, rangeByBounds_of_nan hextended]
    rfl
  have hon' := hon
  unfold RedisOn at hon'
  refine ⟨"bad argument #1 to 'getn' (table expected, got boolean)", ?_⟩
  rw [GameListPortText.process, answer_redisEnable, if_pos hon']
  simp only [GameListPortText.getGameIpListRedis, hsvpn, Program.bind_assoc]
  rw [answer_bind _ _ s (GameListPortText.only_getGameIpListBySvpnInfo self svpninfo), hby, hfetch]

end Rejection

section Shapes

variable {userreq data svpninfo : Json}

/-- `svpninfo` is an object, and its time is a number when it has one. -/
structure WellShapedNode (svpninfo : Json) : Prop where
  object : svpninfo.isObject = true
  rtt : ∀ rtt, svpninfo.get? "rtt" = some rtt → (rtt.value.tonumber).isSome

/-- `data` is an object, and so is a `svpninfo` in it. -/
def WellShaped (userreq : Json) : Prop :=
  ∃ data, userreq.get? "data" = some data ∧ data.isObject = true ∧
    ∀ svpninfo, data.get? "svpninfo" = some svpninfo → WellShapedNode svpninfo

/-- The game and the region, when both are numbers. -/
def placeOf (data : Json) : Option (Double × Double) :=
  match (Json.ofMember (data.get? "gameid")).tonumber,
    (Json.ofMember (data.get? "regionid")).tonumber with
  | some gameid, some regionid => some (gameid, regionid)
  | _, _ => none

def selfOf (place : Double × Double) (svpninfo : Option Json) : Self :=
  ⟨place.1, place.2, svpninfo.bind (fun svpninfo =>
    keepSvpnInfo (Json.ofMember (svpninfo.get? "ip")) (Json.ofMember (svpninfo.get? "rtt")))⟩

/-- A request without a game or a region is turned down. -/
theorem checkparm_no_place (hdata : data.indexable = true) (hplace : placeOf data = none) :
    checkparmData (some data) = .error (.exit MOD_ERR_INVALID_PARAM) ∨
      checkparmData (some data) = .error (.exit MOD_ERR_PARAM_TYPE) := by
  have htypes : ∀ gameid regionid, data.get? "gameid" = some gameid →
      data.get? "regionid" = some regionid →
      checkparmTypes data = .error (.exit MOD_ERR_PARAM_TYPE) := by
    intro gameid regionid hgame hregion
    simp only [placeOf, hgame, hregion] at hplace
    simp only [checkparmTypes, member_of_indexable hdata, hgame, hregion]
    cases hg : (Json.ofMember (some gameid)).tonumber with
    | none => simp only [bind, Except.bind, hg]
    | some g =>
      cases hr : (Json.ofMember (some regionid)).tonumber with
      | none => simp only [bind, Except.bind, hg, hr]
      | some r =>
        simp only [hg, hr] at hplace
        cases hplace
  simp only [checkparmData, anyNil, Json.index_of_indexable hdata]
  cases hgame : data.get? "gameid" with
  | none => exact .inl rfl
  | some gameid =>
    cases hregion : data.get? "regionid" with
    | none => exact .inl rfl
    | some regionid => exact .inr (htypes gameid regionid hgame hregion)

theorem checkparm_place (hdata : data.indexable = true) {place : Double × Double}
    (hplace : placeOf data = some place) :
    checkparmData (some data) =
      checkparmSvpnInfo place.1 place.2 (data.get? "svpninfo") := by
  unfold placeOf at hplace
  cases hgame : data.get? "gameid" with
  | none =>
    rw [hgame] at hplace
    cases hplace
  | some gameid =>
    cases hregion : data.get? "regionid" with
    | none =>
      rw [hgame, hregion] at hplace
      cases hg : (Json.ofMember (some gameid)).tonumber with
      | none => simp only [hg] at hplace; cases hplace
      | some g => simp only [hg] at hplace; cases hplace
    | some regionid =>
      rw [hgame, hregion] at hplace
      cases hg : (Json.ofMember (some gameid)).tonumber with
      | none => simp only [hg] at hplace; cases hplace
      | some g =>
        cases hr : (Json.ofMember (some regionid)).tonumber with
        | none => simp only [hg, hr] at hplace; cases hplace
        | some r =>
          simp only [hg, hr, Option.some.injEq] at hplace
          obtain rfl := hplace
          simp only [checkparmData, anyNil, checkparmTypes, Json.index_of_indexable hdata,
            member_of_indexable hdata, hgame, hregion, bind, Except.bind, hg, hr]
          rfl

/-- `svpninfo` as it is kept, where it can be indexed. -/
theorem checkparmSvpnInfo_indexable (place : Double × Double) {svpninfo : Option Json}
    (h : ∀ v, svpninfo = some v → v.indexable = true) :
    checkparmSvpnInfo place.1 place.2 svpninfo = .ok (selfOf place svpninfo) := by
  cases svpninfo with
  | none => rfl
  | some v =>
    simp only [checkparmSvpnInfo, member_of_indexable (h v rfl)]
    rfl

theorem timed_of_wellShaped {place : Double × Double} {svpninfo : Option Json}
    (h : ∀ v, svpninfo = some v → WellShapedNode v) : Timed (selfOf place svpninfo) := by
  intro kept hkept
  obtain ⟨v, hv, hkeep⟩ := Option.bind_eq_some_iff.mp hkept
  unfold keepSvpnInfo at hkeep
  split at hkeep
  · cases hkeep
  split at hkeep
  · cases hkeep
  · rename_i hrtt
    have htime : ((Json.ofMember (v.get? "rtt")).tonumber).isSome := by
      cases hget : v.get? "rtt" with
      | none => simp [hget, Json.ofMember] at hrtt
      | some rtt => exact (h v hv).rtt rtt hget
    obtain rfl := Option.some.inj hkeep
    exact htime

variable {s : Store}

/-- What a request of command 7 needs: a node that can be indexed, and one of the
right shape whose time is no `nan` for Redis, unless the game or the region is
turned down before it. -/
def Answered (s : Store) (userreq : Json) : Prop :=
  ∀ data, userreq.get? "data" = some data → data.indexable = true ∧
    ∀ place, placeOf data = some place → ∀ svpninfo, data.get? "svpninfo" = some svpninfo →
      svpninfo.indexable = true ∧
        (WellShapedNode svpninfo ∧
            (RedisOn s → ¬RangeRefused s (selfOf place (some svpninfo))) ∨
          RedisOn s ∧ ¬Accepts s place.1 place.2)

theorem process_of_checkparm {userreq : Json} {data : Option Json} (db : Database)
    (hindex : userreq.indexable = true) (hdata : userreq.get? "data" = data) :
    process userreq db = evaluate (checkparmData data) >>= fun self =>
      GameListPortText.process self db := by
  rw [process, checkparm, Json.index_of_indexable hindex, hdata]
  rfl

theorem not_indexable_node (place : Double × Double) (h : svpninfo.indexable = false) :
    ∃ message, checkparmSvpnInfo place.1 place.2 (some svpninfo) =
      .error (.error message) := by
  obtain ⟨message, hindex⟩ := Json.index_of_not_indexable h
  refine ⟨message, ?_⟩
  simp only [checkparmSvpnInfo, member, hindex]
  rfl

theorem guarantee_timed {self : Self} (db : Database) (htimed : Timed self)
    (hrange : RedisOn s → ¬RangeRefused s self) {wrong : Prop} (hright : ¬wrong) :
    Guarantee (answer (GameListPortText.process self db) s) wrong False := by
  by_cases hrejected : RedisOn s ∧ ¬Accepts s self.gameid self.regionid
  · exact guarantee_exit (process_rejected db hrejected.1 hrejected.2) (by decide) not_false
  · have haccepts : RedisOn s → Accepts s self.gameid self.regionid :=
      fun hon => not_not.mp (fun hrejects => hrejected ⟨hon, hrejects⟩)
    obtain ⟨text, htext⟩ := process_sends db htimed haccepts hrange
    exact guarantee_ok htext hright

theorem isObject_of_placeOf {place : Double × Double} (h : placeOf data = some place) :
    data.isObject = true := by
  by_contra hnot
  have hnone := Json.get?_of_not_object (Bool.eq_false_iff.mpr hnot)
  rw [placeOf, hnone, hnone] at h
  cases h

/-- A game, a region and a node: the node has the right shape and a time that
Redis takes, or the place is turned down before it is looked at. -/
theorem guarantee_node_iff {place : Double × Double} (db : Database)
    {wrong : Prop} (hwrong : wrong ↔ ¬WellShapedNode svpninfo) :
    Guarantee (answer (GameListPortText.process (selfOf place (some svpninfo)) db) s)
        wrong False ↔
      WellShapedNode svpninfo ∧
          (RedisOn s → ¬RangeRefused s (selfOf place (some svpninfo))) ∨
        RedisOn s ∧ ¬Accepts s place.1 place.2 := by
  by_cases hrejected : RedisOn s ∧ ¬Accepts s place.1 place.2
  · obtain ⟨hon, hrejects⟩ := id hrejected
    refine iff_of_true ?_ (.inr hrejected)
    exact guarantee_exit (process_rejected db hon hrejects) (by decide) not_false
  rw [or_iff_left hrejected]
  have haccepts : RedisOn s → Accepts s place.1 place.2 :=
    fun hon => not_not.mp (fun hrejects => hrejected ⟨hon, hrejects⟩)
  by_cases hwell : WellShapedNode svpninfo
  · have htimed : Timed (selfOf place (some svpninfo)) := by
      apply timed_of_wellShaped
      intro v hv
      obtain rfl := Option.some.inj hv
      exact hwell
    rw [and_iff_right hwell]
    constructor
    · intro hguarantee hon hrefused
      obtain ⟨message, hraise⟩ := process_refused db hon (haccepts hon) htimed hrefused
      exact not_guarantee_error hraise hguarantee
    · exact fun hrange => guarantee_timed db htimed hrange (fun h => hwrong.mp h hwell)
  · refine iff_of_false ?_ (fun h => hwell h.1)
    exact not_guarantee_wrong (hwrong.mpr hwell) (fun e => process_isError db haccepts)

theorem guarantee_place_iff (db : Database) (hindex : userreq.indexable = true)
    (hdata : userreq.get? "data" = some data) {place : Double × Double}
    (hplace : placeOf data = some place) :
    Guarantee (answer (process userreq db) s) (¬WellShaped userreq) False ↔
      ∀ svpninfo, data.get? "svpninfo" = some svpninfo → svpninfo.indexable = true ∧
        (WellShapedNode svpninfo ∧
            (RedisOn s → ¬RangeRefused s (selfOf place (some svpninfo))) ∨
          RedisOn s ∧ ¬Accepts s place.1 place.2) := by
  have hobject := isObject_of_placeOf hplace
  have hshape : WellShaped userreq ↔ ∀ svpninfo, data.get? "svpninfo" = some svpninfo →
      WellShapedNode svpninfo := by
    simp [WellShaped, hdata, hobject]
  have hprocess := process_of_checkparm db hindex hdata
  rw [checkparm_place (Json.indexable_of_isObject hobject) hplace] at hprocess
  cases hnode : data.get? "svpninfo" with
  | none =>
    have hnever : ∀ {P : Json → Prop}, ∀ v, none = some v → P v :=
      fun v hv => by cases hv
    refine iff_of_true ?_ hnever
    rw [hprocess, hnode, checkparmSvpnInfo_indexable place hnever]
    apply guarantee_timed db (timed_of_wellShaped hnever)
    · rintro _ ⟨_, _, hkept, _⟩
      cases hkept
    · rw [hshape, hnode]
      exact not_not_intro hnever
  | some svpninfo =>
    have hwrong : ¬WellShaped userreq ↔ ¬WellShapedNode svpninfo := by
      rw [hshape, hnode]
      simp
    have hsome : ∀ {P : Json → Prop}, (∀ v, some svpninfo = some v → P v) ↔ P svpninfo := by
      simp
    rw [hnode] at hprocess
    rw [hsome]
    cases hnodeindex : svpninfo.indexable with
    | false =>
      obtain ⟨message, hraise⟩ := not_indexable_node place hnodeindex
      have hraised : answer (process userreq db) s = .error (.error message) := by
        rw [hprocess, hraise]
        rfl
      exact iff_of_false (not_guarantee_error hraised) (by simp)
    | true =>
      rw [hprocess, checkparmSvpnInfo_indexable place (hsome.mpr hnodeindex),
        and_iff_right rfl]
      exact guarantee_node_iff db hwrong

theorem guarantee_iff (db : Database) (hindex : userreq.indexable = true) :
    Guarantee (answer (process userreq db) s) (¬WellShaped userreq) False ↔
      Answered s userreq := by
  cases hdata : userreq.get? "data" with
  | none =>
    have hexit : answer (process userreq db) s = .error (.exit MOD_ERR_INVALID_PARAM) := by
      rw [process_of_checkparm db hindex hdata]
      rfl
    refine iff_of_true (guarantee_exit hexit (by decide) not_false) ?_
    intro data h
    cases hdata.symm.trans h
  | some data =>
    have hprocess := process_of_checkparm db hindex hdata
    have hanswered : Answered s userreq ↔ data.indexable = true ∧
        ∀ place, placeOf data = some place → ∀ svpninfo, data.get? "svpninfo" = some svpninfo →
          svpninfo.indexable = true ∧
            (WellShapedNode svpninfo ∧
                (RedisOn s → ¬RangeRefused s (selfOf place (some svpninfo))) ∨
              RedisOn s ∧ ¬Accepts s place.1 place.2) := by
      simp [Answered, hdata]
    rw [hanswered]
    cases hdataindex : data.indexable with
    | false =>
      obtain ⟨message, hraise⟩ := Json.index_of_not_indexable hdataindex
      have hraised : answer (process userreq db) s = .error (.error message) := by
        rw [hprocess, checkparmData]
        simp only [anyNil, hraise]
        rfl
      exact iff_of_false (not_guarantee_error hraised) (by simp)
    | true =>
      rw [and_iff_right rfl]
      cases hplace : placeOf data with
      | none =>
        refine iff_of_true ?_ (by simp)
        rcases checkparm_no_place hdataindex hplace with hexit | hexit
        · exact guarantee_exit (by rw [hprocess, hexit]; rfl) (by decide) not_false
        · exact guarantee_exit (by rw [hprocess, hexit]; rfl) (by decide) not_false
      | some place =>
        rw [guarantee_place_iff db hindex hdata hplace]
        simp

end Shapes

end GameAcc.Lua.GameListRequest
