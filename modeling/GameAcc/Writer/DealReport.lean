import GameAcc.Redis.Keys

/-!
`detecttoredis.py`: a detection report arrives as a JSON object over HTTP, is
queued when it has the four expected members, and is then dealt with. Dealing
with a report is a program of Redis commands that may raise at almost every
step, because nothing about the four members is checked beforehand.
-/

namespace GameAcc.Writer

open GameAcc.Redis GameAcc.Text GameAcc.Command

/-- A value `json.loads` returns. Of a number that is not an integer, an array
or an object only its `str` text is used. -/
inductive PyVal where
  | none
  | bool (value : Bool)
  | int (value : Int)
  | str (value : String)
  | other (text : String)
  deriving DecidableEq

inductive Exn where
  | attributeError
  | indexError
  | nameError (name : String)
  | typeError
  | unicodeEncodeError
  | valueError
  | responseError (message : String)
  deriving DecidableEq

/-- `str(value)`. A text from JSON is unicode and is encoded as ASCII. -/
def PyVal.text : PyVal → Except Exn String
  | .none => .ok "None"
  | .bool true => .ok "True"
  | .bool false => .ok "False"
  | .int n => .ok (Numeral.decimal n)
  | .str s => if s.toList.all (·.toNat < 128) then .ok s else .error .unicodeEncodeError
  | .other text => .ok text

/-- `int(text)`. -/
def int (text : String) : Except Exn Int :=
  match Numeral.readInt (Numeral.trim text.toList) with
  | some n => .ok n
  | none => .error .valueError

/-- Where the scan of a format stands: outside a conversion, or behind its
percent sign, width, precision or length modifier. -/
inductive Conversion where
  | outside | flags | width | precision | modifier

def Conversion.next : Conversion → Char → Option Conversion
  | .outside, c => some (if c = '%' then .flags else .outside)
  | .flags, c =>
    if c ∈ ['-', '+', ' ', '#', '0'] then some .flags
    else if c.isDigit then some .width
    else ending c
  | .width, c => if c.isDigit then some .width else ending c
  | .precision, c => if c.isDigit then some .precision else ending c
  | .modifier, c => if c = '%' then some .outside else none
where
  ending (c : Char) : Option Conversion :=
    if c = '.' then some .precision
    else if c ∈ ['h', 'l', 'L'] then some .modifier
    else if c = '%' then some .outside
    else none

/-- `fmt % ()`: without arguments only a percent sign can be converted. -/
def format (fmt : String) : Except Exn Unit :=
  match fmt.toList.foldlM Conversion.next .outside with
  | some .outside => .ok ()
  | some _ => .error .valueError
  | none => .error .typeError

abbrev Dealing := Client Exn

def raise {α : Type} (e : Exn) : Dealing α := .stop e

def attempt {α : Type} : Except Exn α → Dealing α
  | .ok a => .done a
  | .error e => .stop e

/-- `log_message.info(fmt % arg)` with no arguments. -/
def loginfo (fmt : String) : Dealing Unit := attempt (format fmt)

def logerr (fmt : String) : Dealing Unit := loginfo fmt

abbrev Object := List (String × PyVal)

def Object.hasKey (report : Object) (key : String) : Bool :=
  (report.lookup key).isSome

def checkReport (report : Object) : Nat :=
  if report.hasKey "vpnid" = false then 0
  else if report.hasKey "gameid" = false then 0
  else if report.hasKey "regionid" = false then 0
  else if report.hasKey "detectdata" = false then 0
  else 1

/-- What `deal_report` takes out of a report. -/
structure Report where
  vpnid : PyVal
  gameid : PyVal
  regionid : PyVal
  detectdata : PyVal
  deriving DecidableEq

def Report.ofObject (report : Object) : Option Report := do
  let vpnid ← report.lookup "vpnid"
  let gameid ← report.lookup "gameid"
  let regionid ← report.lookup "regionid"
  let detectdata ← report.lookup "detectdata"
  some { vpnid, gameid, regionid, detectdata }

theorem checkReport_eq_one {report : Object} :
    checkReport report = 1 ↔ ∃ r, Report.ofObject report = some r := by
  unfold checkReport Report.ofObject Object.hasKey
  cases report.lookup "vpnid" <;> cases report.lookup "gameid" <;>
    cases report.lookup "regionid" <;> cases report.lookup "detectdata" <;> simp

def AVA_INF : Int := 99999

/-- A counter of measured round trip times and their total. -/
structure Tally where
  counter : Int
  total : Int

def Tally.zero : Tally := ⟨0, 0⟩

/-- The floor of the mean, or `AVA_INF` when nothing was counted. -/
def Tally.average (t : Tally) : Int :=
  if t.counter ≠ 0 then t.total.fdiv t.counter else AVA_INF

/-- How `deal_report` returns. -/
inductive Exit where
  | skipped
  | published
  deriving DecidableEq

def readActiveid (vpnid gameid regionid : String) : Dealing Int := do
  let activeid ← hget (activeidKey vpnid) (activeidField gameid regionid)
  loginfo ("get activeid=" ++ activeid.getD "None")
  match activeid with
  | some text => attempt (int text)
  | none => raise .typeError

def nextActiveid (activeid : Int) : Int :=
  if activeid = -1 then 0 else if activeid = 0 then 1 else 0

def splitDetectdata : PyVal → Dealing (List String)
  | .str s => .done (split ',' s)
  | _ => raise .attributeError

def item (datalst : List String) (index : Nat) : Dealing String :=
  match datalst[index]? with
  | some part => .done part
  | none => raise .indexError

/-- One pass of the loop over the records: `ip/port/mask/rtt/loss`. -/
def addDetectdata (detectDataKey : String) (report : Tally) (detectdata : String) :
    Dealing Tally := do
  let datalst := split '/' detectdata
  let ip ← item datalst 0
  let port ← item datalst 1
  let mask ← item datalst 2
  let rtt ← item datalst 3
  zadd detectDataKey rtt (ip ++ ":" ++ port ++ "/" ++ mask)
  let avaValue ← attempt (int rtt)
  if avaValue ≠ AVA_INF then
    .done { counter := report.counter + 1, total := report.total + avaValue }
  else
    .done report

/-- The name `gameid` where the loop over the regions reads it. Neither
`deal_report` nor its module binds that name. -/
def unboundGameid : Dealing String := raise (.nameError "gameid")

/-- One pass of the loop over the regions of the game. -/
def addRegion (vpnid gameid : String) (rptRegionid : PyVal) (ava : Tally)
    (regionid : String) : Dealing Tally :=
  if rptRegionid = .str regionid then
    .done ava
  else do
    let avaRegionRttField := regionRttField gameid regionid
    let exist1 ← hexists (avaRegionKey vpnid) avaRegionRttField
    let unbound ← unboundGameid
    let avaRegionRttCntField := regionRttCntField unbound regionid
    let exist2 ← hexists (avaRegionKey vpnid) avaRegionRttCntField
    if exist1 = false ∨ exist2 = false then
      logerr (avaRegionRttField ++ " or " ++ avaRegionRttCntField ++ " not exist")
      .done ava
    else
      let _avaRttValue ← hget (avaRegionKey vpnid) avaRegionRttField
      let avaRttCnt ← hget (avaRegionKey vpnid) avaRegionRttCntField
      -- A text is greater than any number and `None` is less; adding a text
      -- to a number raises.
      match avaRttCnt with
      | none => .done ava
      | some _ => raise .typeError

def updateAverages (vpnid gameid regionid : String) (report ava : Tally) :
    Dealing Unit := do
  hset (avaRegionKey vpnid) (regionRttField gameid regionid)
    (Numeral.decimal report.average)
  hset (avaRegionKey vpnid) (regionRttCntField gameid regionid)
    (Numeral.decimal report.counter)
  hset (avaRegionKey vpnid) (regionRttField gameid "0")
    (Numeral.decimal ava.average)

/-- The part of `deal_report` behind the deletion of the buffer. -/
def refill (vpnid gameid regionid : String) (rptRegionid : PyVal)
    (detectDataKey : String) (detectlst : List String) (activeid : Int) :
    Dealing Exit := do
  let report ← detectlst.foldlM (addDetectdata detectDataKey) Tally.zero
  loginfo ("average report ava=" ++ Numeral.decimal report.average)
  let regionlst ← smembers (gameRegionKey gameid)
  let ava ← regionlst.foldlM (addRegion vpnid gameid rptRegionid) Tally.zero
  updateAverages vpnid gameid regionid report
    { counter := ava.counter + report.counter, total := ava.total + report.total }
  hset (activeidKey vpnid) (activeidField gameid regionid)
    (Numeral.decimal activeid)
  .done .published

/-- `deal_report` up to the deletion of the buffer, and then the rest. -/
def dealTriple (vpnid gameid regionid : String) (report : Report) :
    Dealing Exit := do
  loginfo ("deal request for vpn " ++ vpnid ++ ",game " ++ gameid ++ ",region " ++
    regionid)
  let exist ← hexists (activeidKey vpnid) (activeidField gameid regionid)
  if exist = false then
    logerr "vpnid,gameid or regionid may not correct,skip this record"
    .done .skipped
  else
    let old ← readActiveid vpnid gameid regionid
    let activeid := nextActiveid old
    loginfo ("activeid=" ++ Numeral.decimal activeid)
    let detectlst ← splitDetectdata report.detectdata
    if detectlst.length = 0 then
      .done .skipped
    else
      let key := detectDataKey vpnid gameid regionid (Numeral.decimal activeid)
      loginfo ("detect_data_key=" ++ key)
      del key
      refill vpnid gameid regionid report.regionid key detectlst activeid

def dealReport (report : Report) : Dealing Exit := do
  let vpnid ← attempt report.vpnid.text
  let gameid ← attempt report.gameid.text
  let regionid ← attempt report.regionid.text
  dealTriple vpnid gameid regionid report

end GameAcc.Writer
