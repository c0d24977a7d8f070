import GameAcc.Lua.Value
import GameAcc.Mysql.Database

/-!
`cc_getgamelistporttext.lua`: the answer to command 7, a game's list of
addresses. With Redis the list is the accelerated one of a VPN node, or the
static one the loader stored; without Redis it is selected from MySQL.
-/

namespace GameAcc.Lua.GameListPortText

open GameAcc.Redis GameAcc.Mysql GameAcc.Command

def MOD_ERR_BASE : Int := -20600

def MOD_ERR_INVALID_PARAM : Int := MOD_ERR_BASE - 1

def MINVPNRTT : Double := 30

def MAXTRANSRTT : Double := 100

/-- The `svpninfo` of a request, which `checkparm` keeps only when it has both
members. -/
structure SvpnInfo where
  ip : Value
  rtt : Value
  ip_present : ip ≠ .nil
  rtt_present : rtt ≠ .nil

/-- The node at 10.0.0.1, with this time to it. -/
def nodeInfo (rtt : Double) : SvpnInfo where
  ip := .str "10.0.0.1"
  rtt := .num rtt
  ip_present := Value.noConfusion
  rtt_present := Value.noConfusion

/-- What `checkparm` leaves in the handler. -/
structure Self where
  gameid : Double
  regionid : Double
  svpninfo : Option SvpnInfo

variable (self : Self)

def validateGameRegion : Handler Unit := do
  let active ← sismember ACTIVE_GAMEID_SET (numberText self.gameid)
  if active = false then
    returnwithcode MOD_ERR_INVALID_PARAM
  else if self.regionid.rat ≠ some 0 then
    let registered ← sismember (gameRegionKey (numberText self.gameid))
      (numberText self.regionid)
    if registered = false then
      returnwithcode MOD_ERR_INVALID_PARAM
    else
      .done ()
  else
    .done ()

/-- The test on an activeid that two of the functions make. -/
def noActiveid (activeid : Value) : Bool :=
  activeid = .nil || (activeid.rat ≠ some 0 && activeid.rat ≠ some 1)

/-- What `getgameiplistbysvpninfo` makes of the reply of the range; a command
that is refused has the reply `false`. -/
def rangeReply : Option (List String) → Handler Value
  | none => luaError "bad argument #1 to 'getn' (table expected, got boolean)"
  | some [] => .done (.str "")
  | some gameiplsttbl => .done (.str ((String.singleton ',').intercalate gameiplsttbl))

/-- The end of `getgameiplistbysvpninfo`, from the test of the activeid on. -/
def fetchDetectData (svpninfo : SvpnInfo) (vpn : String) (regionid : Double)
    (activeid : Value) : Handler Value :=
  if noActiveid activeid then
    .done .nil
  else
    match svpninfo.rtt.tonumber with
    | none => luaError "attempt to perform arithmetic on a nil value"
    | some rtt => do
      let threshold := MAXTRANSRTT - rtt
      let id ← concatText activeid
      let gameiplsttbl ← zrangebyscore
        (detectDataKey vpn (numberText self.gameid) (numberText regionid) id)
        (numberText 0) (numberText threshold)
      rangeReply gameiplsttbl

def getGameIpListBySvpnInfo (svpninfo : SvpnInfo) : Handler Value := do
  validateGameRegion self
  -- for current region 0 equals to region 1
  let regionid : Double := 1
  let vpnid ← redisHashGet VPN_ACTIVE_IP_TO_ID_DIC svpninfo.ip.tostring
  if vpnid = .nil then
    .done .nil
  else
    let near ← less svpninfo.rtt.tonumber (some MINVPNRTT)
    if near then
      .done (.str "")
    else
      let vpn ← concatText vpnid
      let activeid ← redisHashGet (activeidKey vpn)
        (activeidField (numberText self.gameid) (numberText regionid))
      fetchDetectData self svpninfo vpn regionid activeid

def getGameIpListWithoutSvpnInfo : Handler Value := do
  validateGameRegion self
  let game := numberText self.gameid
  let region := numberText self.regionid
  let activeid ← redisHashGet (gameIplstActiveidKey game) (gameIplstActiveidKeyField region)
  if noActiveid activeid then
    .done .nil
  else
    let id ← concatText activeid
    redisHashGet (gameIplstKey game) (gameIplstKeyField region id)

def getGameIpListRedis : Handler Value := do
  let gameiplist ←
    match self.svpninfo with
    | some svpninfo => getGameIpListBySvpnInfo self svpninfo
    | none => .done .nil
  if gameiplist = .nil then
    getGameIpListWithoutSvpnInfo self
  else
    .done gameiplist

/-- The loop over the selected rows: the counter is advanced and compared after
each row has been taken, so the first row is always taken. -/
def takeRows (maxreturn : ℚ) : Nat → List Address → List String
  | _, [] => []
  | counter, row :: rest =>
    row.text :: if ((counter + 1 : Nat) : ℚ) > maxreturn then []
      else takeRows maxreturn (counter + 1) rest

/-- The rows of the second query. -/
def selectAddresses (db : Database) : List Address :=
  ((db.gameServerTbl.filter (fun row => SelectsId self.gameid row.gameid ∧
    (self.regionid.rat ≠ some 0 → SelectsId self.regionid row.gameregionid))).map
      GameServer.address).eraseDups

def selectPercent (db : Database) : ℚ :=
  match db.gameNameTbl.filter (fun row => SelectsId self.gameid row.gameId) with
  | [] => 0
  | row :: _ => row.gameListPercent

/-- For queries that succeed. `maxreturn` is kept exact: as a double it is on the
same side of every integer. -/
def getGameIpList (db : Database) : String :=
  let percent := selectPercent self db
  if percent = 0 then ""
  else
    let res := selectAddresses self db
    let maxreturn := (res.length : ℚ) * percent / 100
    (String.singleton ',').intercalate (takeRows maxreturn 1 res)

section Reads

theorem only_validateGameRegion :
    Only Cmd.Reads (validateGameRegion self) := by
  refine ⟨.sismember _ _, ?_⟩
  intro active
  cases active with
  | false => trivial
  | true =>
    by_cases hregion : self.regionid.rat ≠ some 0
    · simp only [Program.bind, Bool.true_eq_false, if_false, if_pos hregion]
      refine ⟨.sismember _ _, ?_⟩
      intro registered
      cases registered <;> trivial
    · simp only [Program.bind, Bool.true_eq_false, if_false, if_neg hregion]
      trivial

theorem rangeReply_some (members : List String) :
    rangeReply (some members) = .done (.str ((String.singleton ',').intercalate members)) := by
  cases members <;> rfl

theorem only_rangeReply (reply : Option (List String)) :
    Only Cmd.Reads (rangeReply reply) := by
  rcases reply with _ | _ | ⟨member, rest⟩ <;> trivial

theorem only_fetchDetectData (svpninfo : SvpnInfo) (vpn : String)
    (regionid : Double) (activeid : Value) :
    Only Cmd.Reads (fetchDetectData self svpninfo vpn regionid activeid) := by
  unfold fetchDetectData
  by_cases hactive : noActiveid activeid
  · rw [if_pos hactive]
    trivial
  rw [if_neg hactive]
  cases svpninfo.rtt.tonumber with
  | none => trivial
  | some rtt =>
    apply (only_concatText _).bind
    intro id
    exact ⟨.zrangebyscore _ _ _, only_rangeReply⟩

theorem only_getGameIpListBySvpnInfo (svpninfo : SvpnInfo) :
    Only Cmd.Reads (getGameIpListBySvpnInfo self svpninfo) := by
  unfold getGameIpListBySvpnInfo
  apply (only_validateGameRegion self).bind
  intro _
  apply (only_redisHashGet _ _).bind
  intro vpnid
  by_cases hvpnid : vpnid = .nil
  · simp only [if_pos hvpnid]
    trivial
  simp only [if_neg hvpnid]
  apply (only_less _ _).bind
  intro near
  cases near with
  | true => trivial
  | false =>
    simp only [Bool.false_eq_true, if_false]
    apply (only_concatText _).bind
    intro vpn
    apply (only_redisHashGet _ _).bind
    intro activeid
    exact only_fetchDetectData self svpninfo vpn 1 activeid

end Reads

end GameAcc.Lua.GameListPortText
