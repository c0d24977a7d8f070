import GameAcc.Foundations.Window
import GameAcc.Lua.Value
import GameAcc.Mysql.Database

/-!
`cc_getvpnip.lua`: the answer to command 3, a VPN node for a list of measured
ones. With Redis the round trip times are raised by the averages the detection
stored and a random node of the best ones is taken; a client that sends no game
gets the same choice on its own times. Without Redis it is the enabled node with
the least time.
-/

namespace GameAcc.Lua.VpnIp

open GameAcc.Redis GameAcc.Mysql

def MOD_ERR_BASE : Int := -20300

def MOD_ERR_INVALID_PARAM : Int := MOD_ERR_BASE - 4

def AVA_INF : Double := 99999

def MAX_AVA_DIFF : Double := 5

/-- One measured node of a request. -/
structure Qos where
  ip : Value
  lose : Value
  rtt : Value
  deriving DecidableEq

/-- What `checkparm` leaves in the handler. -/
structure Self where
  gameid : Option Double
  regionid : Option Double
  qoslst : List Qos

/-- What `redis_hash_get` returns for a key that is nil. The client cannot send
such a command, and there is no text to return. -/
structure Keyless where
  reply : Value
  refused : reply = .nil ∨ reply = .null ∨ reply = .bool false

/-- The reply to a command that is refused. -/
def Keyless.refusal : Keyless := ⟨.bool false, .inr (.inr rfl)⟩

section Mysql

/-- The result of the query, when it succeeds. -/
def loadValidVpnIp : Option Database → List String
  | some db => db.enabledVpnIps.map Prod.fst
  | none => []

def validVpn (validvpn : List String) : Value → Bool
  | .str ip => decide (ip ∈ validvpn)
  | _ => false

structure Best where
  id : Nat
  rttmin : Value

/-- One pass of the loop of `getvpnip`. -/
def updateBest (validvpn : List String) (best : Best) (k : Nat) (v : Qos) : Handler Best :=
  if v.rtt = .nil ∨ v.lose = .nil ∨ v.ip = .nil then .done best
  else if validVpn validvpn v.ip = false then .done best
  else do
    let shorter ← less v.rtt.tonumber best.rttmin.tonumber
    if shorter = true ∧ v.lose.rat = some 0 then
      .done { id := k, rttmin := v.rtt }
    else
      .done best

def findBest (validvpn : List String) : Best → Nat → List Qos → Handler Best
  | best, _, [] => .done best
  | best, k, v :: rest => do
    let best' ← updateBest validvpn best k v
    findBest validvpn best' (k + 1) rest

def getVpnIp (self : Self) (db : Option Database) : Handler Value := do
  let validvpn := loadValidVpnIp db
  let best ← findBest validvpn { id := 0, rttmin := .num 99999 } 1 self.qoslst
  if best.id = 0 then .done (.str "")
  else
    match self.qoslst[best.id - 1]? with
    | none => luaError "attempt to index a nil value"
    | some item => do
      -- The comparison with 50 only guards a call that is commented out.
      let _ ← less (some 50) item.rtt.tonumber
      .done item.ip

end Mysql

section Redis

structure FilterItem where
  rtt : Value
  ip : Value
  vpnid : Value
  loss : Value
  valid : Nat
  deriving DecidableEq

/-- A measured node that is active. -/
def activeItem (v : Qos) (vpnid : Value) : FilterItem where
  rtt := v.rtt
  ip := v.ip
  vpnid := vpnid
  loss := v.lose
  valid := 1

variable (keyless : Keyless)

/-- `redis_hash_get(red, "vpn_active_ip_to_id", v['ip'])`. -/
def activeVpnid (ip : Value) : Handler Value :=
  if ip = .nil then .done keyless.reply
  else redisHashGet VPN_ACTIVE_IP_TO_ID_DIC ip.tostring

def filterActiveVpn : List Qos → Handler (List FilterItem)
  | [] => .done []
  | v :: rest =>
    if v.rtt = .nil ∨ v.lose = .nil then filterActiveVpn rest
    else do
      let vpnid ← activeVpnid keyless v.ip
      let filtervpnlst ← filterActiveVpn rest
      if vpnid = .nil then .done filtervpnlst
      else .done (activeItem v vpnid :: filtervpnlst)

variable (gameid regionid : Double)

def filterQosRedis (qoslst : List Qos) : Handler (List FilterItem) := do
  let active ← sismember ACTIVE_GAMEID_SET (numberText gameid)
  if active = false then
    returnwithcode MOD_ERR_INVALID_PARAM
  else if regionid.rat ≠ some 0 then
    let registered ← sismember (gameRegionKey (numberText gameid)) (numberText regionid)
    if registered = false then
      returnwithcode MOD_ERR_INVALID_PARAM
    else
      filterActiveVpn keyless qoslst
  else
    filterActiveVpn keyless qoslst

/-- The reply of `hget`: a missing field is `ngx.null`. -/
def ofHget : Option String → Value
  | some text => .str text
  | none => .null

def unmeasured (v : FilterItem) : FilterItem :=
  { v with rtt := .num AVA_INF, valid := 0 }

/-- One pass of the loop of `updateqosredis`. -/
def updateItem (v : FilterItem) : Handler FilterItem := do
  let vpn ← concatText v.vpnid
  let reply ← hget (avaRegionKey vpn)
    (regionRttField (numberText gameid) (numberText regionid))
  let avaRtt := ofHget reply
  if avaRtt.rat = some 0 ∨ avaRtt.rat = AVA_INF.rat then .done (unmeasured v)
  else
    match v.rtt.tonumber with
    | none => .done (unmeasured v)
    | some rtt =>
      match avaRtt.tonumber with
      | none => luaError "attempt to perform arithmetic on a nil value"
      | some ava => .done { v with rtt := .num (rtt + ava) }

def updateQosRedis : List FilterItem → Handler (List FilterItem)
  | [] => .done []
  | v :: rest => do
    let v' ← updateItem gameid regionid v
    let rest' ← updateQosRedis rest
    .done (v' :: rest')

/-- `table.sort` by `tonumber(a['rtt']) < tonumber(b['rtt'])`. A time that is
`nan` is no place in an order: then the elements may end up anywhere. -/
abbrev TableSort : Type := Window.Sorter (fun item : FilterItem => item.rtt.extended)

/-- With two elements or more every element is compared with another one. -/
def sortByRtt (sorter : TableSort) (filterqos : List FilterItem) :
    Handler (List FilterItem) :=
  if 2 ≤ filterqos.length ∧ ∃ item ∈ filterqos, item.rtt.tonumber = none then
    luaError "attempt to compare nil with number"
  else
    .done (sorter.sort filterqos)

/-- `table.insert(filtervpnip, v['ip'])`; inserting nil changes nothing. -/
def insertIp (ip : Value) (filtervpnip : List Value) : List Value :=
  if ip = .nil then filtervpnip else ip :: filtervpnip

def updateSortQosRedis : Double → List FilterItem → List Value
  | _, [] => []
  | minrtt, v :: rest =>
    if v.valid = 0 then updateSortQosRedis minrtt rest
    else if v.loss.rat ≠ some 0 then updateSortQosRedis minrtt rest
    else
      match v.rtt.tonumber with
      | none => updateSortQosRedis minrtt rest
      | some rtt =>
        if minrtt.rat = some 0 then insertIp v.ip (updateSortQosRedis rtt rest)
        else if rtt - minrtt ≤ MAX_AVA_DIFF then
          insertIp v.ip (updateSortQosRedis minrtt rest)
        else updateSortQosRedis minrtt rest

/-- `math.random(1, n)` for the positive `n`. -/
structure Random where
  random : Nat → Nat
  lower : ∀ n, 0 < n → 1 ≤ random n
  upper : ∀ n, 0 < n → random n ≤ n

def getRandomVpnIp (rng : Random) (filtervpnip : List Value) : Value :=
  filtervpnip.getD (rng.random filtervpnip.length - 1) .nil

/-- The candidates of one request, among which a random one is answered. -/
def candidates (self : Self) (sorter : TableSort) : Handler (List Value) :=
  match self.gameid, self.regionid with
  | some gameid, some regionid => do
    let filterqos ← filterQosRedis keyless gameid regionid self.qoslst
    let updated ← updateQosRedis gameid regionid filterqos
    let sorted ← sortByRtt sorter updated
    .done (updateSortQosRedis 0 sorted)
  | _, _ => do
    let filterqos ← filterActiveVpn keyless self.qoslst
    let sorted ← sortByRtt sorter filterqos
    .done (updateSortQosRedis 0 sorted)

def getVpnIpRedis (self : Self) (sorter : TableSort) (rng : Random) :
    Handler (Option Value) := do
  let filtervpnip ← candidates keyless self sorter
  if filtervpnip.length = 0 then .done none
  else .done (some (getRandomVpnIp rng filtervpnip))

end Redis

end GameAcc.Lua.VpnIp
