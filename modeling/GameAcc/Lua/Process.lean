import GameAcc.Lua.GameListPortText
import GameAcc.Lua.VpnIp

/-!
The handlers of commands 7 and 3 behind the check of their parameters. Both read
the switch `redis_enable` once, take everything else from Redis when it is on,
and from MySQL when it is off or Redis has no answer.
-/

namespace GameAcc.Lua

open GameAcc.Redis GameAcc.Mysql

def redisEnable : Handler Value := redisHashGet GAME_REDIS_OPTIONS "redis_enable"

/-- The switch is on. -/
def RedisOn (s : Store) : Prop :=
  (Value.ofReply (s.hash GAME_REDIS_OPTIONS "redis_enable")).rat = some 1

theorem answer_redisEnable {α : Type} (s : Store) (f : Value → Handler α) :
    answer (redisEnable >>= f) s =
      answer (f (Value.ofReply (s.hash GAME_REDIS_OPTIONS "redis_enable"))) s :=
  answer_redisHashGet s _ _ f

namespace GameListPortText

/-- The list between quotation marks, as it is sent. -/
def quoted (gameiplist : String) : String := "\"" ++ gameiplist ++ "\""

def process (self : Self) (db : Database) : Handler String := do
  let switchRedisOn ← redisEnable
  if switchRedisOn.rat = some 1 then do
    let gameiplist ← getGameIpListRedis self
    if gameiplist = .nil then
      .done (quoted (getGameIpList self db))
    else do
      let text ← concatText gameiplist
      .done (quoted text)
  else
    .done (quoted (getGameIpList self db))

end GameListPortText

namespace VpnIp

/-- The end of `process`: an answer without a node is logged before it is sent,
which is an error when it is a table, and so is an answer that cannot be
encoded. -/
def sendServerip (serverip : Option Value) : Handler (Option Value) :=
  if serverip = some (.str "") then
    luaError "bad argument to 'log' (expected table to have __tostring metamethod)"
  else if serverip.all Value.encodable = true then
    .done serverip
  else
    luaError "Cannot serialise number: must not be NaN or Inf"

def process (keyless : Keyless) (self : Self) (uid : Value) (db : Option Database)
    (sorter : TableSort) (rng : Random) : Handler (Option Value) := do
  let switchRedisOn ← redisEnable
  if switchRedisOn.rat = some 1 then do
    let tempServerip ← redisHashGet SPEC_USER_TO_SPEC_VPNIP uid.tostring
    if tempServerip = .nil then do
      let serverip ← getVpnIpRedis keyless self sorter rng
      sendServerip serverip
    else
      sendServerip (some tempServerip)
  else do
    let serverip ← getVpnIp self db
    sendServerip (some serverip)

end VpnIp

end GameAcc.Lua
