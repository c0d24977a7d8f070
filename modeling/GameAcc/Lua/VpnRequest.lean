import GameAcc.Lua.Entry
import GameAcc.Lua.Process
import GameAcc.Lua.VpnAnswers

/-!
`cc_getvpnip.lua` on a decoded request of any shape: `checkparm` tests two
members for nil and nothing else, and the loops index whatever the list of the
request holds. Where every entry can be indexed they are the loops over
measurements; where one cannot, each of them raises.
-/

namespace GameAcc.Lua.VpnRequest

open GameAcc.Redis GameAcc.Mysql GameAcc.Command Entry
open VpnIp (Qos FilterItem TableSort Random Best Keyless MOD_ERR_INVALID_PARAM)

/-- What `checkparm` leaves in the handler: the list is any value. -/
structure Self where
  gameid : Option Double
  regionid : Option Double
  qoslst : Json

section Check

def checkparmInfo (reqParam : Json) : Option Json → Except Stop Self
  | none => .error (.exit MOD_ERR_INVALID_PARAM)
  | some info => do
    let gameid ← member reqParam "gameid"
    let regionid ← member reqParam "regionid"
    .ok ⟨gameid.tonumber, regionid.tonumber, info⟩

def checkparmData : Option Json → Except Stop Self
  | none => .error (.exit MOD_ERR_INVALID_PARAM)
  | some reqParam => do
    let info ← reqParam.index "info"
    checkparmInfo reqParam info

def checkparm (userreq : Json) : Except Stop Self := do
  let data ← userreq.index "data"
  checkparmData data

end Check

section Loops

/-- The members a loop reads of an entry. -/
def readQos (v : Json) : Except Stop Qos := do
  let rtt ← member v "rtt"
  let lose ← member v "lose"
  let ip ← member v "ip"
  .ok ⟨ip, lose, rtt⟩

def findBest (validvpn : List String) : Best → Nat → List Json → Handler Best
  | best, _, [] => .done best
  | best, k, v :: rest => do
    let qos ← evaluate (readQos v)
    let best' ← VpnIp.updateBest validvpn best k qos
    findBest validvpn best' (k + 1) rest

/-- The answer with the chosen entry. -/
def sendBest (items : List Json) (best : Best) : Handler Value :=
  if best.id = 0 then .done (.str "")
  else
    match items[best.id - 1]? with
    | none => luaError "attempt to index a nil value"
    | some v => do
      let item ← evaluate (readQos v)
      let _ ← less (some 50) item.rtt.tonumber
      .done item.ip

def getVpnIp (self : Self) (db : Database) : Handler Value := do
  let validvpn := VpnIp.loadValidVpnIp (some db)
  let items ← evaluate self.qoslst.pairs
  let best ← findBest validvpn { id := 0, rttmin := .num 99999 } 1 items
  sendBest items best

variable (keyless : Keyless)

/-- The loop of `filteractivevpn`. -/
def filterActive : List Json → Handler (List FilterItem)
  | [] => .done []
  | v :: rest => do
    let qos ← evaluate (readQos v)
    if qos.rtt = .nil ∨ qos.lose = .nil then filterActive rest
    else do
      let vpnid ← VpnIp.activeVpnid keyless qos.ip
      let filtervpnlst ← filterActive rest
      if vpnid = .nil then .done filtervpnlst
      else .done (VpnIp.activeItem qos vpnid :: filtervpnlst)

def filterActiveVpn (qoslst : Json) : Handler (List FilterItem) := do
  let items ← evaluate qoslst.pairs
  filterActive keyless items

def filterQosRedis (gameid regionid : Double) (qoslst : Json) : Handler (List FilterItem) := do
  let active ← sismember ACTIVE_GAMEID_SET (numberText gameid)
  if active = false then
    returnwithcode MOD_ERR_INVALID_PARAM
  else if regionid.rat ≠ some 0 then do
    let registered ← sismember (gameRegionKey (numberText gameid)) (numberText regionid)
    if registered = false then
      returnwithcode MOD_ERR_INVALID_PARAM
    else
      filterActiveVpn keyless qoslst
  else
    filterActiveVpn keyless qoslst

def candidates (self : Self) (sorter : TableSort) : Handler (List Value) :=
  match self.gameid, self.regionid with
  | some gameid, some regionid => do
    let filterqos ← filterQosRedis keyless gameid regionid self.qoslst
    let updated ← VpnIp.updateQosRedis gameid regionid filterqos
    let sorted ← VpnIp.sortByRtt sorter updated
    .done (VpnIp.updateSortQosRedis 0 sorted)
  | _, _ => do
    let filterqos ← filterActiveVpn keyless self.qoslst
    let sorted ← VpnIp.sortByRtt sorter filterqos
    .done (VpnIp.updateSortQosRedis 0 sorted)

def getVpnIpRedis (self : Self) (sorter : TableSort) (rng : Random) :
    Handler (Option Value) := do
  let filtervpnip ← candidates keyless self sorter
  if filtervpnip.length = 0 then .done none
  else .done (some (VpnIp.getRandomVpnIp rng filtervpnip))

/-- The choice behind `checkparm`, and the answer. -/
def processParm (self : Self) (uid : Value) (db : Database) (sorter : TableSort) (rng : Random) :
    Handler (Option Value) := do
  let switchRedisOn ← redisEnable
  if switchRedisOn.rat = some 1 then do
    let tempServerip ← redisHashGet SPEC_USER_TO_SPEC_VPNIP uid.tostring
    if tempServerip = .nil then do
      let serverip ← getVpnIpRedis keyless self sorter rng
      VpnIp.sendServerip serverip
    else
      VpnIp.sendServerip (some tempServerip)
  else do
    let serverip ← getVpnIp self db
    VpnIp.sendServerip (some serverip)

def process (userreq : Json) (db : Database) (sorter : TableSort) (rng : Random) :
    Handler (Option Value) := do
  let self ← evaluate (checkparm userreq)
  let uid ← evaluate (member userreq "uid")
  processParm keyless self uid db sorter rng

end Loops

section Typed

/-- The measurement that a loop reads of an entry. -/
def qosOf (v : Json) : Qos where
  ip := Json.ofMember (v.get? "ip")
  lose := Json.ofMember (v.get? "lose")
  rtt := Json.ofMember (v.get? "rtt")

def Self.typed (self : Self) : VpnIp.Self :=
  ⟨self.gameid, self.regionid, self.qoslst.entries.map qosOf⟩

/-- Every entry of the list can be indexed. -/
structure Readable (qoslst : Json) : Prop where
  table : qoslst.isTable = true
  entries : ∀ v ∈ qoslst.entries, v.indexable = true

theorem readQos_of_indexable {v : Json} (h : v.indexable = true) :
    readQos v = .ok (qosOf v) := by
  simp only [readQos, member_of_indexable h]
  rfl

theorem readQos_of_not_indexable {v : Json} (h : v.indexable = false) :
    ∃ message, readQos v = .error (.error message) := by
  obtain ⟨message, hindex⟩ := Json.index_of_not_indexable h
  refine ⟨message, ?_⟩
  simp only [readQos, member, hindex]
  rfl

theorem evaluate_readQos {α : Type} {v : Json} (h : v.indexable = true)
    (f : Qos → Handler α) : evaluate (readQos v) >>= f = f (qosOf v) := by
  rw [readQos_of_indexable h]
  rfl

theorem findBest_typed {validvpn : List String} {items : List Json}
    (h : ∀ v ∈ items, v.indexable = true) (best : Best) (k : Nat) :
    findBest validvpn best k items = VpnIp.findBest validvpn best k (items.map qosOf) := by
  induction items generalizing best k with
  | nil => rfl
  | cons v rest ih =>
    have hrest := ih (fun u hu => h u (List.mem_cons_of_mem v hu))
    simp only [findBest, List.map_cons, VpnIp.findBest,
      evaluate_readQos (h v List.mem_cons_self), hrest]

theorem filterActive_typed (keyless : Keyless) {items : List Json}
    (h : ∀ v ∈ items, v.indexable = true) :
    filterActive keyless items = VpnIp.filterActiveVpn keyless (items.map qosOf) := by
  induction items with
  | nil => rfl
  | cons v rest ih =>
    have hrest := ih (fun u hu => h u (List.mem_cons_of_mem v hu))
    simp only [filterActive, List.map_cons, VpnIp.filterActiveVpn,
      evaluate_readQos (h v List.mem_cons_self), hrest]

theorem evaluate_pairs {α : Type} {qoslst : Json} (h : qoslst.isTable = true)
    (f : List Json → Handler α) : evaluate qoslst.pairs >>= f = f qoslst.entries := by
  rw [Json.pairs_of_isTable h]
  rfl

variable {self : Self}

theorem getVpnIp_typed (h : Readable self.qoslst) (db : Database) :
    getVpnIp self db = VpnIp.getVpnIp self.typed (some db) := by
  simp only [getVpnIp, evaluate_pairs h.table, findBest_typed h.entries, VpnIp.getVpnIp,
    Self.typed]
  congr 1
  funext best
  unfold sendBest
  split
  · rfl
  rw [List.getElem?_map]
  cases hget : self.qoslst.entries[best.id - 1]? with
  | none => rfl
  | some v =>
    have hv := h.entries v (List.mem_of_getElem? hget)
    simp only [evaluate_readQos hv, Option.map_some]

theorem filterActiveVpn_typed (keyless : Keyless) {qoslst : Json} (h : Readable qoslst) :
    filterActiveVpn keyless qoslst =
      VpnIp.filterActiveVpn keyless (qoslst.entries.map qosOf) := by
  rw [filterActiveVpn, evaluate_pairs h.table, filterActive_typed keyless h.entries]

theorem candidates_typed (keyless : Keyless) (h : Readable self.qoslst) (sorter : TableSort) :
    candidates keyless self sorter = VpnIp.candidates keyless self.typed sorter := by
  have hactive := filterActiveVpn_typed keyless h
  obtain ⟨_ | gameid, _ | regionid, qoslst⟩ := self
  all_goals
    simp only [candidates, VpnIp.candidates, filterQosRedis, VpnIp.filterQosRedis, Self.typed,
      hactive]

/-- A list whose entries can be indexed is a list of measurements. -/
theorem processParm_typed (keyless : Keyless) (h : Readable self.qoslst) (uid : Value)
    (db : Database) (sorter : TableSort) (rng : Random) :
    processParm keyless self uid db sorter rng =
      VpnIp.process keyless self.typed uid (some db) sorter rng := by
  unfold processParm VpnIp.process getVpnIpRedis VpnIp.getVpnIpRedis
  rw [candidates_typed keyless h, getVpnIp_typed h]

end Typed

section Errors

variable (keyless : Keyless)

theorem stops_readQos (v : Json) : Stops Stop.IsError (evaluate (readQos v)) := by
  cases hv : v.indexable with
  | true =>
    rw [readQos_of_indexable hv]
    trivial
  | false =>
    obtain ⟨message, hread⟩ := readQos_of_not_indexable hv
    rw [hread]
    trivial

theorem stops_pairs (v : Json) : Stops Stop.IsError (evaluate v.pairs) := by
  cases v <;> trivial

theorem stops_findBest (validvpn : List String) (items : List Json) (best : Best) (k : Nat) :
    Stops Stop.IsError (findBest validvpn best k items) := by
  induction items generalizing best k with
  | nil => trivial
  | cons v rest ih =>
    apply (stops_readQos v).bind
    intro qos
    apply Stops.bind _ (fun best' => ih best' (k + 1))
    unfold VpnIp.updateBest
    split
    · trivial
    split
    · trivial
    · apply (stops_less _ _).bind
      intro shorter
      split <;> trivial

theorem stops_getVpnIp (self : Self) (db : Database) :
    Stops Stop.IsError (getVpnIp self db) := by
  apply (stops_pairs self.qoslst).bind
  intro items
  apply (stops_findBest _ items _ 1).bind
  intro best
  unfold sendBest
  split
  · trivial
  split
  · trivial
  · apply (stops_readQos _).bind
    intro item
    apply (stops_less _ _).bind
    intro _
    trivial

theorem stops_activeVpnid (ip : Value) :
    Stops Stop.IsError (VpnIp.activeVpnid keyless ip) := by
  unfold VpnIp.activeVpnid
  split
  · trivial
  · exact stops_redisHashGet _ _

theorem stops_filterActive (items : List Json) : Stops Stop.IsError (filterActive keyless items) := by
  induction items with
  | nil => trivial
  | cons v rest ih =>
    apply (stops_readQos v).bind
    intro qos
    split
    · exact ih
    · apply (stops_activeVpnid keyless _).bind
      intro vpnid
      apply ih.bind
      intro filtervpnlst
      split <;> trivial

theorem stops_filterActiveVpn (qoslst : Json) :
    Stops Stop.IsError (filterActiveVpn keyless qoslst) :=
  (stops_pairs qoslst).bind (stops_filterActive keyless)

theorem stops_updateItem (gameid regionid : Double) (v : FilterItem) :
    Stops Stop.IsError (VpnIp.updateItem gameid regionid v) := by
  apply (stops_concatText _).bind
  intro vpn reply
  simp only [Program.bind]
  split
  · trivial
  · cases v.rtt.tonumber with
    | none => trivial
    | some rtt => cases (VpnIp.ofHget reply).tonumber <;> trivial

theorem stops_updateQosRedis (gameid regionid : Double) (items : List FilterItem) :
    Stops Stop.IsError (VpnIp.updateQosRedis gameid regionid items) := by
  induction items with
  | nil => trivial
  | cons v rest ih =>
    apply (stops_updateItem gameid regionid v).bind
    intro v'
    apply ih.bind
    intro rest'
    trivial

theorem stops_sortByRtt (sorter : TableSort) (items : List FilterItem) :
    Stops Stop.IsError (VpnIp.sortByRtt sorter items) := by
  unfold VpnIp.sortByRtt
  split <;> trivial

theorem stops_sendServerip (serverip : Option Value) :
    Stops Stop.IsError (VpnIp.sendServerip serverip) := by
  unfold VpnIp.sendServerip
  split
  · trivial
  split <;> trivial

end Errors

section Routes

variable {keyless : Keyless} {s : Store} {self : Self} {uid : Value}
  {gameid regionid : Double}

/-- The game or the region of the request is turned down before the list is
looked at. -/
def Rejected (s : Store) (uid : Value) (gameid regionid : Option Double) : Prop :=
  RedisOn s ∧ s.hash SPEC_USER_TO_SPEC_VPNIP uid.tostring = none ∧
    ∃ g r, gameid = some g ∧ regionid = some r ∧ ¬Accepts s g r

theorem answer_filterQosRedis {α : Type} (qoslst : Json)
    (f : List FilterItem → Handler α) :
    (Accepts s gameid regionid → answer (filterQosRedis keyless gameid regionid qoslst >>= f) s =
      answer (filterActiveVpn keyless qoslst >>= f) s) ∧
    (¬Accepts s gameid regionid → answer (filterQosRedis keyless gameid regionid qoslst >>= f) s =
      .error (.exit MOD_ERR_INVALID_PARAM)) := by
  unfold Accepts
  by_cases hactive : numberText gameid ∈ s.set ACTIVE_GAMEID_SET
  · by_cases hzero : regionid.rat = some 0
    · simp [filterQosRedis, Command.Program.bind_assoc, hactive, hzero]
    · by_cases hregion : numberText regionid ∈ s.set (gameRegionKey (numberText gameid))
      · simp [filterQosRedis, Command.Program.bind_assoc, hactive, hzero, hregion]
      · simp [filterQosRedis, Command.Program.bind_assoc, hactive, hzero, hregion,
          returnwithcode]
  · simp [filterQosRedis, Command.Program.bind_assoc, hactive, returnwithcode]

variable (db : Database) (sorter : TableSort) (rng : Random)

theorem answer_special (hon : RedisOn s) {text : String}
    (hspec : s.hash SPEC_USER_TO_SPEC_VPNIP uid.tostring = some text) :
    answer (processParm keyless self uid db sorter rng) s =
      answer (VpnIp.sendServerip (some (.str text))) s := by
  unfold RedisOn at hon
  rw [processParm, answer_redisEnable, if_pos hon, answer_redisHashGet, hspec,
    if_neg (by simp [Value.ofReply])]
  rfl

theorem answer_redis (hon : RedisOn s)
    (hspec : s.hash SPEC_USER_TO_SPEC_VPNIP uid.tostring = none) :
    answer (processParm keyless self uid db sorter rng) s =
      answer (getVpnIpRedis keyless self sorter rng >>= VpnIp.sendServerip) s := by
  unfold RedisOn at hon
  rw [processParm, answer_redisEnable, if_pos hon, answer_redisHashGet, hspec,
    if_pos (by simp [Value.ofReply])]

theorem answer_mysql (hoff : ¬RedisOn s) :
    answer (processParm keyless self uid db sorter rng) s =
      answer (getVpnIp self db >>= fun serverip => VpnIp.sendServerip (some serverip)) s := by
  unfold RedisOn at hoff
  rw [processParm, answer_redisEnable, if_neg hoff]

theorem answer_rejected (h : Rejected s uid self.gameid self.regionid) :
    answer (processParm keyless self uid db sorter rng) s =
      .error (.exit MOD_ERR_INVALID_PARAM) := by
  obtain ⟨hon, hspec, g, r, hgame, hregion, hrejects⟩ := h
  rw [answer_redis db sorter rng hon hspec, getVpnIpRedis, candidates, hgame, hregion]
  simp only [Command.Program.bind_assoc]
  exact (answer_filterQosRedis self.qoslst _).2 hrejects

theorem candidates_isError {α : Type}
    (h : ∀ g r, self.gameid = some g → self.regionid = some r → Accepts s g r)
    {f : List Value → Handler α} (hf : ∀ ips, Stops Stop.IsError (f ips)) {e : Stop}
    (hanswer : answer (candidates keyless self sorter >>= f) s = .error e) : e.IsError := by
  have hsorted : ∀ items : List FilterItem, Stops Stop.IsError
      ((VpnIp.sortByRtt sorter items >>= fun sorted =>
        .done (VpnIp.updateSortQosRedis 0 sorted)) >>= f) := by
    intro items
    apply Stops.bind _ hf
    apply (stops_sortByRtt sorter items).bind
    intro sorted
    trivial
  have hold : Stops Stop.IsError ((filterActiveVpn keyless self.qoslst >>= fun filterqos =>
      VpnIp.sortByRtt sorter filterqos >>= fun sorted =>
        .done (VpnIp.updateSortQosRedis 0 sorted)) >>= f) := by
    rw [Program.bind_assoc]
    exact (stops_filterActiveVpn keyless _).bind hsorted
  unfold candidates at hanswer
  cases hgame : self.gameid with
  | none =>
    rw [hgame] at hanswer
    exact answer_isError hold hanswer
  | some g =>
    cases hregion : self.regionid with
    | none =>
      rw [hgame, hregion] at hanswer
      exact answer_isError hold hanswer
    | some r =>
      rw [hgame, hregion] at hanswer
      simp only [Program.bind_assoc] at hanswer
      rw [(answer_filterQosRedis self.qoslst _).1 (h g r hgame hregion)] at hanswer
      refine answer_isError ((stops_filterActiveVpn keyless _).bind ?_) hanswer
      intro filterqos
      apply (stops_updateQosRedis g r filterqos).bind
      intro updated
      rw [← Program.bind_assoc]
      exact hsorted updated

/-- Any other request ends with an answer, or with an error of Lua. -/
theorem isError_of_not_rejected (h : ¬Rejected s uid self.gameid self.regionid) {e : Stop}
    (hanswer : answer (processParm keyless self uid db sorter rng) s = .error e) : e.IsError := by
  by_cases hon : RedisOn s
  · cases hspec : s.hash SPEC_USER_TO_SPEC_VPNIP uid.tostring with
    | some text =>
      rw [answer_special db sorter rng hon hspec] at hanswer
      exact answer_isError (stops_sendServerip _) hanswer
    | none =>
      rw [answer_redis db sorter rng hon hspec, getVpnIpRedis, Program.bind_assoc] at hanswer
      refine candidates_isError sorter ?_ ?_ hanswer
      · intro g r hgame hregion
        by_contra hrejects
        exact h ⟨hon, hspec, g, r, hgame, hregion, hrejects⟩
      · intro filtervpnip
        apply Stops.bind _ stops_sendServerip
        split <;> trivial
  · rw [answer_mysql db sorter rng hon] at hanswer
    refine answer_isError ((stops_getVpnIp self db).bind ?_) hanswer
    exact fun serverip => stops_sendServerip (some serverip)

end Routes

end GameAcc.Lua.VpnRequest
