import GameAcc.Lua.Process
import GameAcc.Writer.Loaded

/-!
The loader runs again while a request is served. It flushes the database, turns
the switch off and fills the database; the request reads the switch once and
tests its game and region with later commands. A run interleaves the commands
of both.
-/

namespace GameAcc.Interleaving

open GameAcc.Redis GameAcc.Mysql GameAcc.Command GameAcc.Writer GameAcc.Lua

section Guarded

variable {α β : Type} {P : String → String → Prop} {code : Int}

/-- A request that only reads, that tests no other members than those of `P`,
and that stops with `code` at the first test that fails and nowhere else. -/
inductive Guarded (P : String → String → Prop) (code : Int) : Handler α → Prop
  | done (a : α) : Guarded P code (.done a)
  | stop {e : Stop} (h : e ≠ .exit code) : Guarded P code (.stop e)
  | test {key member : String} {next : Bool → Handler α} (h : P key member)
      (hno : next false = .stop (.exit code)) (hyes : Guarded P code (next true)) :
      Guarded P code (.issue (.sismember key member) next)
  | read {c : Cmd} {next : c.Reply → Handler α} (hreads : c.Reads)
      (htest : ∀ key member, c ≠ .sismember key member)
      (h : ∀ r, Guarded P code (next r)) : Guarded P code (.issue c next)

theorem Guarded.bind {p : Handler α} {f : α → Handler β} (hp : Guarded P code p)
    (hf : ∀ a, Guarded P code (f a)) : Guarded P code (p >>= f) := by
  induction hp with
  | done a => exact hf a
  | stop h => exact .stop h
  | @test key member next h hno _ ih =>
    refine .test h ?_ ih
    rw [hno]
    rfl
  | read hreads htest _ ih => exact .read hreads htest ih

theorem guarded_luaError (message : String) :
    Guarded P code (luaError message : Handler α) :=
  .stop (by simp)

theorem guarded_redisHashGet (hashname key : String) :
    Guarded P code (redisHashGet hashname key) := by
  refine .read (.hexists _ _) (by simp) fun exist => ?_
  cases exist with
  | false => exact .done _
  | true =>
    refine .read (.hget _ _) (by simp) fun retval => ?_
    cases retval <;> exact .done _

theorem guarded_concatText (value : Value) : Guarded P code (concatText value) := by
  cases value with
  | num q => exact .done _
  | str s => exact .done _
  | _ => exact guarded_luaError _

theorem guarded_less (a b : Option Double) : Guarded P code (less a b) := by
  unfold less
  split
  · exact .done _
  · exact guarded_luaError _

end Guarded

section Requests

variable {g r : Int}

/-- The two tests of a request: its game, and its region unless it is 0. -/
inductive Tested (g r : Int) : String → String → Prop
  | game : Tested g r ACTIVE_GAMEID_SET (Numeral.decimal g)
  | region (h : r ≠ 0) : Tested g r (gameRegionKey (Numeral.decimal g)) (Numeral.decimal r)

section GameList

open GameAcc.Lua.GameListPortText

variable {self : Self} (hgame : numberText self.gameid = Numeral.decimal g)
  (hregion : numberText self.regionid = Numeral.decimal r)

include hgame hregion

theorem guarded_validateGameRegion :
    Guarded (Tested g r) MOD_ERR_INVALID_PARAM (validateGameRegion self) := by
  unfold validateGameRegion
  rw [hgame, hregion]
  refine .test .game rfl ?_
  by_cases hzero : self.regionid.rat = some 0
  · simp only [Program.bind, Bool.true_eq_false, if_false, hzero, ne_eq, not_true_eq_false]
    exact .done ()
  · simp only [Program.bind, Bool.true_eq_false, if_false, if_pos hzero]
    exact .test (.region ((Double.rat_zero_iff hregion).not.mp hzero)) rfl (.done ())

omit hgame hregion in
theorem guarded_fetchDetectData {P : String → String → Prop} (svpninfo : SvpnInfo)
    (vpn : String) (regionid : Double) (activeid : Value) :
    Guarded P MOD_ERR_INVALID_PARAM (fetchDetectData self svpninfo vpn regionid activeid) := by
  unfold fetchDetectData
  split
  · exact .done _
  · split
    · exact guarded_luaError _
    · refine (guarded_concatText activeid).bind fun id => ?_
      refine .read (.zrangebyscore _ _ _) (by simp) fun gameiplsttbl => ?_
      simp only [Program.bind]
      rcases gameiplsttbl with _ | members
      · exact guarded_luaError _
      · rw [rangeReply_some]
        exact .done _

theorem guarded_getGameIpListBySvpnInfo (svpninfo : SvpnInfo) :
    Guarded (Tested g r) MOD_ERR_INVALID_PARAM (getGameIpListBySvpnInfo self svpninfo) := by
  unfold getGameIpListBySvpnInfo
  refine (guarded_validateGameRegion hgame hregion).bind fun _ => ?_
  refine (guarded_redisHashGet _ _).bind fun vpnid => ?_
  split
  · exact .done _
  · refine (guarded_less _ _).bind fun near => ?_
    split
    · exact .done _
    · refine (guarded_concatText vpnid).bind fun vpn => ?_
      refine (guarded_redisHashGet _ _).bind fun activeid => ?_
      exact guarded_fetchDetectData svpninfo vpn 1 activeid

theorem guarded_getGameIpListWithoutSvpnInfo :
    Guarded (Tested g r) MOD_ERR_INVALID_PARAM (getGameIpListWithoutSvpnInfo self) := by
  unfold getGameIpListWithoutSvpnInfo
  refine (guarded_validateGameRegion hgame hregion).bind fun _ => ?_
  refine (guarded_redisHashGet _ _).bind fun activeid => ?_
  split
  · exact .done _
  · refine (guarded_concatText activeid).bind fun id => ?_
    exact guarded_redisHashGet _ _

theorem guarded_getGameIpListRedis :
    Guarded (Tested g r) MOD_ERR_INVALID_PARAM (getGameIpListRedis self) := by
  have hwithout := guarded_getGameIpListWithoutSvpnInfo hgame hregion
  unfold getGameIpListRedis
  cases self.svpninfo with
  | none => exact hwithout
  | some svpninfo =>
    refine (guarded_getGameIpListBySvpnInfo hgame hregion svpninfo).bind fun gameiplist => ?_
    beta_reduce
    split
    · exact hwithout
    · exact .done _

theorem guarded_gameListProcess (db : Database) :
    Guarded (Tested g r) MOD_ERR_INVALID_PARAM (GameListPortText.process self db) := by
  unfold GameListPortText.process
  refine (guarded_redisHashGet _ _).bind fun switchRedisOn => ?_
  split
  · refine (guarded_getGameIpListRedis hgame hregion).bind fun gameiplist => ?_
    split
    · exact .done _
    · exact (guarded_concatText gameiplist).bind fun text => .done _
  · exact .done _

end GameList

section VpnList

open GameAcc.Lua.VpnIp

variable {P : String → String → Prop} {code : Int} (keyless : Keyless)

theorem guarded_filterActiveVpn (qoslst : List Qos) :
    Guarded P code (filterActiveVpn keyless qoslst) := by
  induction qoslst with
  | nil => exact .done _
  | cons v rest ih =>
    unfold filterActiveVpn
    split
    · exact ih
    · have hactive : Guarded P code (activeVpnid keyless v.ip) := by
        unfold activeVpnid
        split
        · exact .done _
        · exact guarded_redisHashGet _ _
      refine hactive.bind fun vpnid => ih.bind fun filtervpnlst => ?_
      split <;> exact .done _

theorem guarded_filterQosRedis {gameid regionid : Double}
    (hgame : numberText gameid = Numeral.decimal g)
    (hregion : numberText regionid = Numeral.decimal r) (qoslst : List Qos) :
    Guarded (Tested g r) MOD_ERR_INVALID_PARAM
      (filterQosRedis keyless gameid regionid qoslst) := by
  unfold filterQosRedis
  rw [hgame, hregion]
  refine .test .game rfl ?_
  by_cases hzero : regionid.rat = some 0
  · simp only [Program.bind, Bool.true_eq_false, if_false, hzero, ne_eq, not_true_eq_false]
    exact guarded_filterActiveVpn keyless qoslst
  · simp only [Program.bind, Bool.true_eq_false, if_false, if_pos hzero]
    exact .test (.region ((Double.rat_zero_iff hregion).not.mp hzero)) rfl
      (guarded_filterActiveVpn keyless qoslst)

theorem guarded_updateItem (gameid regionid : Double) (v : FilterItem) :
    Guarded P code (updateItem gameid regionid v) := by
  unfold updateItem
  refine (guarded_concatText v.vpnid).bind fun vpn => ?_
  refine .read (.hget _ _) (by simp) fun reply => ?_
  simp only [Program.bind]
  split
  · exact .done _
  · split
    · exact .done _
    · split
      · exact guarded_luaError _
      · exact .done _

theorem guarded_updateQosRedis (gameid regionid : Double) (filterqos : List FilterItem) :
    Guarded P code (updateQosRedis gameid regionid filterqos) := by
  induction filterqos with
  | nil => exact .done _
  | cons v rest ih =>
    unfold updateQosRedis
    exact (guarded_updateItem gameid regionid v).bind fun v' => ih.bind fun rest' => .done _

theorem guarded_sortByRtt (sorter : TableSort) (filterqos : List FilterItem) :
    Guarded P code (sortByRtt sorter filterqos) := by
  unfold sortByRtt
  split
  · exact guarded_luaError _
  · exact .done _

theorem guarded_getVpnIpRedis {gameid regionid : Double}
    (hgame : numberText gameid = Numeral.decimal g)
    (hregion : numberText regionid = Numeral.decimal r) (qoslst : List Qos)
    (sorter : TableSort) (rng : Random) :
    Guarded (Tested g r) MOD_ERR_INVALID_PARAM
      (getVpnIpRedis keyless ⟨some gameid, some regionid, qoslst⟩ sorter rng) := by
  unfold getVpnIpRedis candidates
  refine Guarded.bind ?_ fun filtervpnip => ?_
  · refine (guarded_filterQosRedis keyless hgame hregion qoslst).bind fun filterqos => ?_
    refine (guarded_updateQosRedis _ _ filterqos).bind fun updated => ?_
    exact (guarded_sortByRtt sorter updated).bind fun sorted => .done _
  · split <;> exact .done _

theorem guarded_findBest (validvpn : List String) (best : Best) (k : Nat) (qoslst : List Qos) :
    Guarded P code (findBest validvpn best k qoslst) := by
  induction qoslst generalizing best k with
  | nil => exact .done _
  | cons v rest ih =>
    unfold findBest
    refine Guarded.bind ?_ fun best' => ih best' (k + 1)
    unfold updateBest
    split
    · exact .done _
    · split
      · exact .done _
      · refine (guarded_less _ _).bind fun shorter => ?_
        split <;> exact .done _

theorem guarded_getVpnIp (self : Self) (db : Option Database) :
    Guarded P code (getVpnIp self db) := by
  unfold getVpnIp
  refine (guarded_findBest _ _ _ _).bind fun best => ?_
  split
  · exact .done _
  · split
    · exact guarded_luaError _
    · exact (guarded_less _ _).bind fun _ => .done _

theorem guarded_sendServerip (serverip : Option Value) :
    Guarded P code (sendServerip serverip) := by
  unfold sendServerip
  split
  · exact guarded_luaError _
  split
  · exact .done _
  · exact guarded_luaError _

theorem guarded_vpnProcess {gameid regionid : Double}
    (hgame : numberText gameid = Numeral.decimal g)
    (hregion : numberText regionid = Numeral.decimal r) (qoslst : List Qos) (uid : Value)
    (db : Option Database) (sorter : TableSort) (rng : Random) :
    Guarded (Tested g r) MOD_ERR_INVALID_PARAM
      (VpnIp.process keyless ⟨some gameid, some regionid, qoslst⟩ uid db sorter rng) := by
  unfold VpnIp.process
  refine (guarded_redisHashGet _ _).bind fun switchRedisOn => ?_
  split
  · refine (guarded_redisHashGet _ _).bind fun tempServerip => ?_
    split
    · exact (guarded_getVpnIpRedis keyless hgame hregion qoslst sorter rng).bind
        fun serverip => guarded_sendServerip serverip
    · exact guarded_sendServerip _
  · exact (guarded_getVpnIp _ db).bind fun serverip => guarded_sendServerip _

end VpnList

end Requests

section Runs

variable {α : Type}

/-- The loader's commands that were sent and those still to come, the store, and
what is left of the request. -/
structure Reload (α : Type) where
  sent : List Cmd
  pending : List Cmd
  store : Store
  request : Handler α

/-- A command of either side. The commands of the request are noted with what
the loader had sent before. -/
inductive ReloadEvent where
  | loader (c : Cmd)
  | request (c : Cmd) (sent : List Cmd)

inductive ReloadStep : Reload α → ReloadEvent → Reload α → Prop
  | loader {sent pending : List Cmd} {c : Cmd} {s : Store} {p : Handler α} :
      ReloadStep ⟨sent, c :: pending, s, p⟩ (.loader c) ⟨sent ++ [c], pending, effect s c, p⟩
  | request {sent pending : List Cmd} {c : Cmd} {s s' : Store} {next : c.Reply → Handler α}
      {r : c.Reply} (h : Lua.redis c s = .ok (r, s')) :
      ReloadStep ⟨sent, pending, s, .issue c next⟩ (.request c sent)
        ⟨sent, pending, s', next r⟩

inductive ReloadRun (start : Reload α) : List ReloadEvent → Reload α → Prop
  | start : ReloadRun start [] start
  | step {events : List ReloadEvent} {at_ next : Reload α} {event : ReloadEvent}
      (h : ReloadRun start events at_) (hstep : ReloadStep at_ event next) :
      ReloadRun start (events ++ [event]) next

/-- A request that reads a field it finds. -/
theorem ReloadRun.redisHashGet {start : Reload α} {events : List ReloadEvent}
    {sent pending : List Cmd} {s : Store} {key field text : String} {f : Value → Handler α}
    (h : ReloadRun start events ⟨sent, pending, s, redisHashGet key field >>= f⟩)
    (hvalue : s.hash key field = some text) :
    ReloadRun start
      (events ++ [.request (.hexists key field) sent] ++ [.request (.hget key field) sent])
      ⟨sent, pending, s, f (.str text)⟩ := by
  have hexists : Lua.redis (.hexists key field) s = .ok (true, s) :=
    congrArg (fun reply => Except.ok (Option.isSome reply, s)) hvalue
  have hget : Lua.redis (.hget key field) s = .ok (some text, s) :=
    congrArg (fun reply => Except.ok (reply, s)) hvalue
  exact (h.step (.request hexists)).step (.request hget)

/-- A loaded store with the switch on. -/
def switchedOn (db : Database) : Store :=
  (load db).setHash GAME_REDIS_OPTIONS "redis_enable" "1"

/-- The loader is about to replace `old` by `new` and a request to begin. -/
def beforeReload (old new : Database) (p : Handler α) : Reload α :=
  ⟨[], deleteallkeys ++ loadCommands new, switchedOn old, p⟩

/-- The database has been flushed and the member has not been stored again. -/
def Missing (sent : List Cmd) (key member : String) : Prop :=
  .flushdb ∈ sent ∧ .sadd key member ∉ sent

/-- A test of the request while its member is missing. -/
def ReloadEvent.TestsMissing (event : ReloadEvent) : Prop :=
  ∃ key member sent, event = .request (.sismember key member) sent ∧ Missing sent key member

/-- A member of the old content that is loaded again is absent exactly while it
is missing. -/
theorem mem_applyAll_sent {new : Database} {sent pending : List Cmd} {s : Store}
    {key member : String} (hsent : sent ++ pending = deleteallkeys ++ loadCommands new)
    (hold : member ∈ s.set key) :
    member ∈ (applyAll sent s).set key ↔ ¬Missing sent key member := by
  cases sent with
  | nil => simpa [applyAll, Missing] using hold
  | cons c rest =>
    obtain ⟨rfl, hrest⟩ : c = .flushdb ∧ rest ++ pending = loadCommands new :=
      List.cons.inj hsent
    have hwrites : ∀ c ∈ rest, Writes c := by
      intro c hc
      apply loadCommands_writes new
      rw [← hrest]
      exact List.mem_append_left _ hc
    have hload : applyAll (.flushdb :: rest) s = applyAll rest .empty := rfl
    rw [hload, mem_applyAll_set hwrites]
    simp [Missing, Store.empty]

variable {P : String → String → Prop} {code : Int}

/-- What the runs of a guarded request have in common: it has been rejected
exactly when it has tested a missing member. -/
structure ReloadInv (P : String → String → Prop) (code : Int) (old new : Database)
    (events : List ReloadEvent) (at_ : Reload α) : Prop where
  sent_pending : at_.sent ++ at_.pending = deleteallkeys ++ loadCommands new
  store : at_.store = applyAll at_.sent (switchedOn old)
  request : (Guarded P code at_.request ∧ ∀ event ∈ events, ¬event.TestsMissing) ∨
    at_.request = .stop (.exit code) ∧ ∃ event ∈ events, event.TestsMissing

theorem ReloadInv.step {old new : Database} (hP : ∀ key member, P key member →
      member ∈ (load old).set key) {events : List ReloadEvent} {at_ next : Reload α}
    {event : ReloadEvent} (h : ReloadInv P code old new events at_)
    (hstep : ReloadStep at_ event next) :
    ReloadInv P code old new (events ++ [event]) next := by
  obtain ⟨hsent, hstore, hrequest⟩ := h
  cases hstep with
  | @loader sent pending c s p =>
    refine ⟨?_, ?_, ?_⟩
    · simpa using hsent
    · simp only [applyAll, List.foldl_append, List.foldl_cons, List.foldl_nil] at hstore ⊢
      rw [hstore]
    · have hnot : ¬(ReloadEvent.loader c).TestsMissing := by
        rintro ⟨_, _, _, heq, _⟩
        cases heq
      rcases hrequest with ⟨hguarded, hquiet⟩ | ⟨hrejected, event, hevent, htests⟩
      · refine .inl ⟨hguarded, ?_⟩
        intro event hevent
        rcases List.mem_append.mp hevent with hevent | hevent
        · exact hquiet event hevent
        · rwa [List.mem_singleton.mp hevent]
      · exact .inr ⟨hrejected, event, List.mem_append_left _ hevent, htests⟩
  | @request sent pending c s s' next r hexec =>
    rcases hrequest with ⟨hguarded, hquiet⟩ | ⟨hrejected, _⟩
    · have hlast : ¬(ReloadEvent.request c sent).TestsMissing →
          ∀ event ∈ events ++ [.request c sent], ¬event.TestsMissing := by
        intro hnot event hevent
        rcases List.mem_append.mp hevent with hevent | hevent
        · exact hquiet event hevent
        · rwa [List.mem_singleton.mp hevent]
      cases hguarded with
      | @test key member next' hmember hno hyes =>
        obtain ⟨rfl, rfl⟩ := Prod.mk.inj (Except.ok.inj hexec)
        have hold : member ∈ (switchedOn old).set key := hP key member hmember
        have hiff : member ∈ s.set key ↔ ¬Missing sent key member := by
          have hstore : s = applyAll sent (switchedOn old) := hstore
          rw [hstore]
          exact mem_applyAll_sent hsent hold
        refine ⟨hsent, hstore, ?_⟩
        by_cases hmem : member ∈ s.set key
        · have hreply : decide (member ∈ s.set key) = true := decide_eq_true hmem
          refine .inl ⟨?_, hlast ?_⟩
          · rw [hreply]
            exact hyes
          · rintro ⟨_, _, _, heq, hmissing⟩
            obtain ⟨hcmd, rfl⟩ := ReloadEvent.request.inj heq
            obtain ⟨rfl, rfl⟩ := Cmd.sismember.inj hcmd
            exact hiff.mp hmem hmissing
        · have hreply : decide (member ∈ s.set key) = false := decide_eq_false hmem
          refine .inr ⟨?_, _, List.mem_append_right _ (List.mem_singleton_self _), key, member,
            sent, rfl, not_not.mp (mt hiff.mpr hmem)⟩
          rw [hreply]
          exact hno
      | read hreads htest hnext =>
        obtain ⟨r', hr'⟩ := serve_reads Stop.error hreads s
        obtain ⟨rfl, rfl⟩ := Prod.mk.inj (Except.ok.inj (hr'.symm.trans hexec))
        refine ⟨hsent, hstore, .inl ⟨hnext _, hlast ?_⟩⟩
        rintro ⟨key, member, _, heq, _⟩
        exact htest key member (ReloadEvent.request.inj heq).1
    · cases hrejected

theorem ReloadInv.run {old new : Database} (hP : ∀ key member, P key member →
      member ∈ (load old).set key) {p : Handler α} (hp : Guarded P code p)
    {events : List ReloadEvent} {at_ : Reload α}
    (h : ReloadRun (beforeReload old new p) events at_) :
    ReloadInv P code old new events at_ := by
  induction h with
  | start => exact ⟨rfl, rfl, .inl ⟨hp, by simp⟩⟩
  | step _ hstep ih => exact ih.step hP hstep

/-- A guarded request is rejected exactly when it tests a missing member. -/
theorem rejected_iff {old new : Database} (hP : ∀ key member, P key member →
      member ∈ (load old).set key) {p : Handler α} (hp : Guarded P code p)
    {events : List ReloadEvent} {at_ : Reload α}
    (h : ReloadRun (beforeReload old new p) events at_) :
    at_.request = .stop (.exit code) ↔ ∃ event ∈ events, event.TestsMissing := by
  rcases (ReloadInv.run hP hp h).request with ⟨hguarded, hquiet⟩ | ⟨hrejected, htests⟩
  · constructor
    · intro hrejected
      rw [hrejected] at hguarded
      cases hguarded with
      | stop hne => exact absurd rfl hne
    · rintro ⟨event, hevent, htests⟩
      exact absurd htests (hquiet event hevent)
  · exact ⟨fun _ => htests, fun _ => hrejected⟩

end Runs

section Rejected

variable {old new : Database} {g r : Int}

/-- The members a valid request tests are loaded. -/
theorem tested_loaded {db : Database} (hg : db.Enabled g) (hr : r = 0 ∨ r ∈ db.regionids g)
    {key member : String} (h : Tested g r key member) : member ∈ (load db).set key := by
  cases h with
  | game => exact (mem_activeGameids db).mpr ⟨g, hg, rfl⟩
  | region hne =>
    rcases hr with hzero | hr
    · exact absurd hzero hne
    · exact (mem_gameRegions_known db hg.known).mpr ⟨r, hr, rfl⟩

/-- The window is closed when the new content has been loaded. -/
theorem not_missing_of_loaded (hg : new.Enabled g) (hr : r = 0 ∨ r ∈ new.regionids g)
    {key member : String} (h : Tested g r key member) :
    ¬Missing (deleteallkeys ++ loadCommands new) key member := by
  rintro ⟨_, hmissing⟩
  have hloaded := tested_loaded hg hr h
  have hwrites := loadCommands_writes new
  have hload : load new = applyAll (loadCommands new) .empty := rfl
  rw [hload, mem_applyAll_set hwrites] at hloaded
  rcases hloaded with hempty | hsadd
  · cases hempty
  · exact hmissing (List.mem_append_right _ hsadd)

/-- While the loader replaces the content, a request for an enabled game and
region 0 or a registered one is rejected exactly when one of its tests falls
between the flush and the command that stores the tested member again. -/
theorem rejected_iff_tests_missing (keyless : VpnIp.Keyless) (hg : old.Enabled g)
    (hr : r = 0 ∨ r ∈ old.regionids g) {gameid regionid : Double}
    (hgame : numberText gameid = Numeral.decimal g)
    (hregion : numberText regionid = Numeral.decimal r) :
    (∀ (svpninfo : Option GameListPortText.SvpnInfo) (db : Database)
        (events : List ReloadEvent) (at_ : Reload String),
      ReloadRun (beforeReload old new
        (GameListPortText.process ⟨gameid, regionid, svpninfo⟩ db)) events at_ →
      (at_.request = .stop (.exit GameListPortText.MOD_ERR_INVALID_PARAM) ↔
        ∃ event ∈ events, event.TestsMissing)) ∧
    ∀ (qoslst : List VpnIp.Qos) (uid : Value) (db : Option Database)
        (sorter : VpnIp.TableSort) (rng : VpnIp.Random) (events : List ReloadEvent)
        (at_ : Reload (Option Value)),
      ReloadRun (beforeReload old new (VpnIp.process keyless
        ⟨some gameid, some regionid, qoslst⟩ uid db sorter rng)) events at_ →
      (at_.request = .stop (.exit VpnIp.MOD_ERR_INVALID_PARAM) ↔
        ∃ event ∈ events, event.TestsMissing) := by
  have hloaded : ∀ key member, Tested g r key member → member ∈ (load old).set key :=
    fun _ _ => tested_loaded hg hr
  constructor
  · intro svpninfo db events at_ hrun
    exact rejected_iff hloaded (guarded_gameListProcess hgame hregion db) hrun
  · intro qoslst uid db sorter rng events at_ hrun
    exact rejected_iff hloaded
      (guarded_vpnProcess keyless hgame hregion qoslst uid db sorter rng) hrun

/-- The request for the small database's game, without a node. -/
def oneRequest : Handler String :=
  GameListPortText.process ⟨5, 1, none⟩ (oneGame [1])

/-- It has read the switch when the loader flushes the database. -/
def flushedEvents : List ReloadEvent :=
  [.request (.hexists GAME_REDIS_OPTIONS "redis_enable") [],
    .request (.hget GAME_REDIS_OPTIONS "redis_enable") [], .loader .flushdb,
    .request (.sismember ACTIVE_GAMEID_SET (Numeral.decimal 5)) [.flushdb]]

/-- What the request goes on with when the switch is on. -/
theorem oneRequest_switched_on :
    ∃ next, oneRequest = (redisEnable >>= next) ∧
      ∃ rest, next (.str "1") =
          .issue (.sismember ACTIVE_GAMEID_SET (Numeral.decimal 5)) rest ∧
        rest false = .stop (.exit GameListPortText.MOD_ERR_INVALID_PARAM) := by
  refine ⟨_, rfl, ?_⟩
  have hswitch : (Value.str "1").rat = some 1 := by
    decide +kernel
  have hfive : numberText 5 = Numeral.decimal 5 := by
    decide +kernel
  simp only [hswitch, if_true, GameListPortText.getGameIpListRedis,
    GameListPortText.getGameIpListWithoutSvpnInfo, GameListPortText.validateGameRegion, hfive]
  exact ⟨_, rfl, rfl⟩

theorem flushed_reaches : ∃ at_, ReloadRun (beforeReload (oneGame [1]) (oneGame [1]) oneRequest)
      flushedEvents at_ ∧
    at_.request = .stop (.exit GameListPortText.MOD_ERR_INVALID_PARAM) := by
  obtain ⟨next, hrequest, rest, hnext, hrest⟩ := oneRequest_switched_on
  have hfirst : ReloadRun (beforeReload (oneGame [1]) (oneGame [1]) oneRequest) []
      ⟨[], deleteallkeys ++ loadCommands (oneGame [1]), switchedOn (oneGame [1]),
        redisEnable >>= next⟩ := by
    rw [← hrequest]
    exact .start
  have hswitch : (switchedOn (oneGame [1])).hash GAME_REDIS_OPTIONS "redis_enable" =
      some "1" := by
    simp [switchedOn]
  have hread := hfirst.redisHashGet hswitch
  rw [hnext] at hread
  have htested := (hread.step .loader).step (.request rfl)
  exact ⟨_, htested, hrest⟩

theorem oneGame_enabled : (oneGame [1]).Enabled 5 :=
  ⟨⟨5, 1, 100⟩, List.mem_singleton_self _, rfl, rfl⟩

theorem oneGame_region : 1 ∈ (oneGame [1]).regionids 5 :=
  (oneGame_registered (List.mem_singleton_self 1)).region

theorem rejected_iff_tests_missing_one_game : ∃ event ∈ flushedEvents, event.TestsMissing := by
  obtain ⟨at_, hrun, hrejected⟩ := flushed_reaches
  exact ((rejected_iff_tests_missing .refusal oneGame_enabled (.inr oneGame_region)
    (by decide +kernel) (by decide +kernel)).1 none _ _ _ hrun).mp hrejected

/-- A request for an enabled game and a registered region is rejected while the
same content is loaded again. -/
theorem valid_request_rejected :
    (oneGame [1]).Enabled 5 ∧ 1 ∈ (oneGame [1]).regionids 5 ∧
      ∃ events at_, ReloadRun (beforeReload (oneGame [1]) (oneGame [1]) oneRequest) events at_ ∧
        at_.request = .stop (.exit GameListPortText.MOD_ERR_INVALID_PARAM) :=
  ⟨oneGame_enabled, oneGame_region, flushedEvents, flushed_reaches⟩

end Rejected

end GameAcc.Interleaving
