import GameAcc.Foundations.Text
import GameAcc.Foundations.Command
import GameAcc.Redis.Store
import GameAcc.Redis.Keys
import GameAcc.Mysql.Database
import GameAcc.Writer.RedisInit
import GameAcc.Agent.Ping
import GameAcc.Foundations.Decimal
import GameAcc.Foundations.Double
import GameAcc.Foundations.DoubleBuffer
import GameAcc.Foundations.DoubleText
import GameAcc.Foundations.Window
import GameAcc.Interleaving.Calls
import GameAcc.Interleaving.Reader
import GameAcc.Lua.Accepted
import GameAcc.Lua.DetectGameListPort
import GameAcc.Lua.GameListAccelerated
import GameAcc.Lua.GameListRegion
import GameAcc.Lua.VpnAverages
import GameAcc.Lua.VpnMeasured
import GameAcc.Lua.VpnOldClients
import GameAcc.Agent.Detect
import GameAcc.Agent.DetectGameLst
import GameAcc.Agent.RegionReport
import GameAcc.Foundations.Commute
import GameAcc.Lua.GameList
import GameAcc.Redis.Locality
import GameAcc.Writer.Interference
import GameAcc.Interleaving.Reload
import GameAcc.Lua.VpnMalformed
import GameAcc.Lua.Statements
import GameAcc.Lua.Answered
import GameAcc.Writer.RegionZero
import GameAcc.Lua.GameBriefInfo
import GameAcc.Agent.DetectRound
import GameAcc.Agent.Refresh
import GameAcc.Agent.Transcript
import GameAcc.Lua.UploadBilling
import GameAcc.Foundations.NumberedChannel
import GameAcc.L2tp.Losses
import GameAcc.Foundations.Exchange
import GameAcc.Ppp.Ipv6cpOpened
import GameAcc.L2tp.Carried
import GameAcc.L2tp.PayloadSequence
import GameAcc.Ppp.Authenticated
