import GameAcc.Lua.VpnRequest
import Mathlib.Data.List.MinMax

/-!
When `cc_getvpnip.lua` answers a request at all. A list of measurements is
answered unless a selection meets a time it cannot use, or the answer is the
empty text, which is logged as a table before it is sent, or a value that cannot
be encoded.
-/

namespace GameAcc.Lua.VpnIp

open GameAcc.Redis GameAcc.Mysql GameAcc.Command

/-- The handler never raises. -/
def Answers {α : Type} (p : Handler α) (s : Store) : Prop :=
  ∀ message, answer p s ≠ .error (.error message)

/-- An address that can be sent. -/
def Sendable (ip : Value) : Prop := ip ≠ .str "" ∧ ip.encodable = true

theorem answer_sendServerip (serverip : Option Value) (s : Store) :
    Answers (sendServerip serverip) s ↔ ∀ ip ∈ serverip, Sendable ip := by
  unfold Answers sendServerip
  cases serverip with
  | none => simp
  | some ip =>
    simp only [Option.mem_some_iff, forall_eq', Sendable, Option.some.injEq, Option.all_some]
    by_cases hempty : ip = .str ""
    · rw [if_pos hempty]
      exact iff_of_false (fun h => h _ rfl) (fun h => h.1 hempty)
    rw [if_neg hempty, and_iff_right hempty]
    by_cases hencodable : ip.encodable = true
    · rw [if_pos hencodable]
      refine iff_of_true ?_ hencodable
      intro message h
      cases h
    · rw [if_neg hencodable]
      exact iff_of_false (fun h => h _ rfl) hencodable

section Mysql

variable {validvpn : List String}

/-- The time of an entry in the order of the comparison. -/
def Qos.time (v : Qos) : Extended := v.rtt.extended.getD ⊤

/-- An entry that `getvpnip` may choose. -/
def Eligible (validvpn : List String) (v : Qos) : Bool :=
  Enabled validvpn v && (v.rtt.tonumber).any (fun rtt => decide (rtt < 99999))

/-- The choice so far has a time below the bound. -/
def Below (choice : Option Qos) : Prop :=
  ∀ u ∈ choice, ∃ rtt, u.rtt.tonumber = some rtt ∧ rtt < 99999

theorem eligible_below {v : Qos} (h : Eligible validvpn v = true) : Below (some v) := by
  rintro u hu
  obtain rfl := Option.some.inj hu
  have hany := (Bool.and_eq_true_iff.mp h).2
  cases hrtt : v.rtt.tonumber with
  | none => simp [hrtt] at hany
  | some rtt => exact ⟨rtt, rfl, by simpa [hrtt] using hany⟩

theorem time_of_lt {v : Qos} {rtt : Double} (hrtt : v.rtt.tonumber = some rtt)
    (hlt : rtt < 99999) : rtt.extended = some v.time := by
  obtain ⟨x, hx, _⟩ := hlt
  have hextended : v.rtt.extended = some x := by
    rw [Value.extended, hrtt]
    exact hx
  rw [Qos.time, hextended]
  exact hx

theorem improve_eq {choice : Option Qos} (h : Below choice) (v : Qos) :
    improve validvpn choice v =
      if Eligible validvpn v = true then List.argAux (fun a b => a.time < b.time) choice v
      else choice := by
  cases hrtt : v.rtt.tonumber with
  | none => simp [improve, Eligible, hrtt]
  | some rtt =>
    cases hen : Enabled validvpn v with
    | false => simp [improve, Eligible, hrtt, hen]
    | true =>
      cases choice with
      | none => simp [improve, Eligible, hrtt, hen, List.argAux]
      | some u =>
        obtain ⟨best, hbest, hsmall⟩ := h u rfl
        have hu := time_of_lt hbest hsmall
        by_cases hlt : rtt < 99999
        · have htimes : rtt < best ↔ v.time < u.time := Double.lt_iff (time_of_lt hrtt hlt) hu
          simp [improve, Eligible, hrtt, hen, List.argAux, Qos.number, hbest, hlt, htimes]
        · have hnot : ¬rtt < best := fun hbeats => hlt (Double.lt_trans hbeats hsmall)
          simp [improve, Eligible, hrtt, hen, Qos.number, hbest, hlt, hnot]

theorem foldl_improve (qoslst : List Qos) :
    qoslst.foldl (improve validvpn) none =
      (qoslst.filter (Eligible validvpn)).argmin Qos.time := by
  have hchoice : ∀ choice : Option Qos, Below choice →
      qoslst.foldl (improve validvpn) choice =
        (qoslst.filter (Eligible validvpn)).foldl
          (List.argAux fun a b => a.time < b.time) choice := by
    induction qoslst with
    | nil => exact fun _ _ => rfl
    | cons v rest ih =>
      intro choice h
      rw [List.foldl_cons, improve_eq h]
      by_cases hv : Eligible validvpn v = true
      · rw [if_pos hv, List.filter_cons_of_pos hv, List.foldl_cons]
        apply ih
        have hv' := eligible_below hv
        cases choice with
        | none => exact hv'
        | some u =>
          unfold List.argAux
          simp only
          split
          · exact hv'
          · exact h
      · rw [if_neg hv, List.filter_cons_of_neg hv]
        exact ih choice h
  exact hchoice none (fun u hu => by cases hu)

/-- An enabled node has a text as its address. -/
theorem eligible_sendable {v : Qos} (h : Eligible validvpn v = true) :
    Sendable v.ip ↔ v.ip ≠ .str "" := by
  have hvalid := (enabled_iff.mp (Bool.and_eq_true_iff.mp h).1).2
  refine and_iff_left ?_
  cases hip : v.ip with
  | str text => rfl
  | _ => simp [hip, validVpn] at hvalid

theorem only_findBest (items : List Qos) (best : Best) (k : Nat) :
    Only Cmd.Reads (findBest validvpn best k items) := by
  induction items generalizing best k with
  | nil => trivial
  | cons v rest ih =>
    apply Only.bind _ (fun best' => ih best' (k + 1))
    unfold updateBest
    split
    · trivial
    split
    · trivial
    · apply (only_less _ _).bind
      intro shorter
      split <;> trivial

theorem only_getVpnIp (self : Self) (db : Option Database) :
    Only Cmd.Reads (getVpnIp self db) := by
  apply (only_findBest self.qoslst _ 1).bind
  intro best
  split
  · trivial
  split
  · trivial
  · apply (only_less _ _).bind
    intro _
    trivial

/-- No time that is compared is a word, and the first entry with the least time
of those that may be chosen has an address. -/
def MysqlAnswers (db : Database) (qoslst : List Qos) : Prop :=
  (∀ v ∈ qoslst, ¬ComparesText (loadValidVpnIp (some db)) v) ∧
    ∃ v ∈ (qoslst.filter (Eligible (loadValidVpnIp (some db)))).argmin Qos.time,
      v.ip ≠ .str ""

theorem mysql_answers_iff (s : Store) (db : Database) (self : Self) :
    Answers (getVpnIp self (some db) >>= fun serverip => sendServerip (some serverip)) s ↔
      MysqlAnswers db self.qoslst := by
  have hbind := answer_bind (getVpnIp self (some db))
    (fun serverip => sendServerip (some serverip)) s (only_getVpnIp self (some db))
  unfold Answers
  rw [hbind]
  by_cases hcompares : ∃ v ∈ self.qoslst, ComparesText (loadValidVpnIp (some db)) v
  · rw [answer_getVpnIp_compares s hcompares]
    refine iff_of_false (fun h => h _ rfl) ?_
    rintro ⟨hnone, _⟩
    obtain ⟨v, hv, hcompares⟩ := hcompares
    exact hnone v hv hcompares
  · have hnone : ∀ v ∈ self.qoslst, ¬ComparesText (loadValidVpnIp (some db)) v :=
      fun v hv h => hcompares ⟨v, hv, h⟩
    rw [answer_getVpnIp_picked s hnone, foldl_improve]
    refine (answer_sendServerip _ s).trans ?_
    unfold MysqlAnswers
    rw [and_iff_right hnone]
    cases hchosen : (self.qoslst.filter (Eligible (loadValidVpnIp (some db)))).argmin
        Qos.time with
    | none => simp [Sendable]
    | some v =>
      have hv := (List.mem_filter.mp (List.argmin_mem hchosen)).2
      simp [eligible_sendable hv]

end Mysql

section Redis

variable {keyless : Keyless} {s : Store} {self : Self}

theorem only_sortByRtt (sorter : TableSort) (items : List FilterItem) :
    Only Cmd.Reads (sortByRtt sorter items) := by
  unfold sortByRtt
  split <;> trivial

theorem only_candidates (keyless : Keyless) (self : Self) (sorter : TableSort) :
    Only Cmd.Reads (candidates keyless self sorter) := by
  unfold candidates
  split
  · apply (only_filterQosRedis _ _ _).bind
    intro filterqos
    apply (only_updateQosRedis _ _ _).bind
    intro updated
    apply (only_sortByRtt _ _).bind
    intro sorted
    trivial
  · apply (only_filterActiveVpn _).bind
    intro filterqos
    apply (only_sortByRtt _ _).bind
    intro sorted
    trivial

theorem only_getVpnIpRedis (keyless : Keyless) (self : Self) (sorter : TableSort)
    (rng : Random) : Only Cmd.Reads (getVpnIpRedis keyless self sorter rng) := by
  apply (only_candidates keyless self sorter).bind
  intro filtervpnip
  split <;> trivial

/-- The selection of Redis is answered in every order that the sort can leave and
for every random number. -/
def SelectionAnswers (keyless : Keyless) (s : Store) (self : Self) : Prop :=
  ∀ sorter rng, Answers (getVpnIpRedis keyless self sorter rng >>= sendServerip) s

theorem selection_answers {sorter : TableSort} {rng : Random} :
    Answers (getVpnIpRedis keyless self sorter rng >>= sendServerip) s ↔
      (∀ message, answer (getVpnIpRedis keyless self sorter rng) s ≠ .error (.error message)) ∧
      ∀ ip, answer (getVpnIpRedis keyless self sorter rng) s = .ok (some ip) → Sendable ip := by
  have hbind := answer_bind _ sendServerip s (only_getVpnIpRedis keyless self sorter rng)
  cases hanswer : answer (getVpnIpRedis keyless self sorter rng) s with
  | error e => simp [Answers, hbind, hanswer]
  | ok serverip =>
    have hsend : Answers (getVpnIpRedis keyless self sorter rng >>= sendServerip) s ↔
        Answers (sendServerip serverip) s := by
      simp only [Answers, hbind, hanswer]
    rw [hsend, answer_sendServerip]
    simp [Option.mem_def]

/-- Candidates are answered when all of them can be sent. -/
theorem answers_of_sorted {items : List FilterItem}
    (h : ∀ sorter, answer (candidates keyless self sorter) s =
      .ok (updateSortQosRedis 0 (sorter.sort items))) :
    SelectionAnswers keyless s self ↔ ∀ ip, Returned items ip → Sendable ip := by
  constructor
  · intro hanswers ip hreturned
    by_cases hnil : ip = .nil
    · subst hnil
      exact ⟨by simp, rfl⟩
    · obtain ⟨sorter, hmem⟩ := mem_of_returned hnil hreturned
      obtain ⟨rng, hrng⟩ := exists_random (h sorter) hmem
      exact (selection_answers.mp (hanswers sorter rng)).2 ip hrng
  · intro hsendable sorter rng
    have hanswer := answer_getVpnIpRedis rng (h sorter)
    apply selection_answers.mpr
    rw [hanswer]
    by_cases hnil : updateSortQosRedis 0 (sorter.sort items) = []
    · rw [if_pos hnil]
      simp
    · rw [if_neg hnil]
      refine ⟨by simp, fun ip hip => hsendable ip ?_⟩
      rw [← Option.some.inj (Except.ok.inj hip)]
      exact (returned_of_mem sorter (getRandomVpnIp_mem rng hnil)).2

theorem not_answers_of_raises {message : String}
    (h : ∀ sorter, answer (candidates keyless self sorter) s = .error (.error message)) :
    ¬SelectionAnswers keyless s self := by
  intro hanswers
  have first : Random := ⟨fun _ => 1, fun _ _ => le_rfl, fun _ hn => hn⟩
  apply (selection_answers.mp (hanswers (Window.Sorter.stable _) first)).1 message
  rw [answer_getVpnIpRedis_eq, h]
  rfl

/-- With a game and a region the selection needs an average for every time, and
without them it needs every time it sorts. -/
def RedisAnswers (keyless : Keyless) (s : Store) (self : Self) : Prop :=
  match self.gameid, self.regionid with
  | some gameid, some regionid => Accepts s gameid regionid →
      (∀ v ∈ self.qoslst, HasAverage keyless s gameid regionid v) ∧
        ∀ ip, Returned (totalledItems keyless s gameid regionid self.qoslst) ip → Sendable ip
  | _, _ =>
      ((activeItems keyless s self.qoslst).length < 2 ∨
        ∀ item ∈ activeItems keyless s self.qoslst, (item.rtt.tonumber).isSome) ∧
        ∀ ip, Returned (activeItems keyless s self.qoslst) ip → Sendable ip

theorem game_answers_iff {gameid regionid : Double} {qoslst : List Qos}
    (haccepts : Accepts s gameid regionid) :
    SelectionAnswers keyless s ⟨some gameid, some regionid, qoslst⟩ ↔
      (∀ v ∈ qoslst, HasAverage keyless s gameid regionid v) ∧
        ∀ ip, Returned (totalledItems keyless s gameid regionid qoslst) ip → Sendable ip := by
  by_cases haverage : ∀ v ∈ qoslst, HasAverage keyless s gameid regionid v
  · rw [and_iff_right haverage, answers_of_sorted (candidates_averaged haccepts haverage)]
  · refine iff_of_false ?_ (fun h => haverage h.1)
    obtain ⟨v, hv, hmissing⟩ : ∃ v ∈ qoslst, ¬HasAverage keyless s gameid regionid v := by
      simpa using haverage
    obtain ⟨message, hraises⟩ := candidates_missing haccepts hv hmissing
    exact not_answers_of_raises hraises

theorem old_answers_iff (hold : self.gameid = none ∨ self.regionid = none) :
    SelectionAnswers keyless s self ↔
      ((activeItems keyless s self.qoslst).length < 2 ∨
        ∀ item ∈ activeItems keyless s self.qoslst, (item.rtt.tonumber).isSome) ∧
        ∀ ip, Returned (activeItems keyless s self.qoslst) ip → Sendable ip := by
  by_cases hnumeric : ∀ item ∈ activeItems keyless s self.qoslst, (item.rtt.tonumber).isSome
  · rw [and_iff_right (.inr hnumeric), answers_of_sorted (candidates_old_numeric hold hnumeric)]
  obtain ⟨item, hitem, hnone⟩ :
      ∃ item ∈ activeItems keyless s self.qoslst, item.rtt.tonumber = none := by
    simpa using hnumeric
  by_cases hlength : (activeItems keyless s self.qoslst).length < 2
  · have hsingle : activeItems keyless s self.qoslst = [item] := by
      have hpos := List.length_pos_of_mem hitem
      have hone : (activeItems keyless s self.qoslst).length = 1 := by
        omega
      obtain ⟨only, honly⟩ := List.length_eq_one_iff.mp hone
      rw [honly] at hitem ⊢
      rw [List.mem_singleton.mp hitem]
    refine iff_of_true ?_ ⟨.inl hlength, ?_⟩
    · intro sorter rng
      apply selection_answers.mpr
      rw [answer_getVpnIpRedis rng (candidates_old_single hold hsingle hnone sorter)]
      simp
    · rintro ip ⟨item', husable, _⟩
      obtain ⟨hmem, husable⟩ := List.mem_filter.mp husable
      rw [hsingle, List.mem_singleton] at hmem
      rw [hmem] at husable
      simp [usable, hnone] at husable
  · refine iff_of_false ?_ ?_
    · exact not_answers_of_raises
        (candidates_old_compares hold (by omega) ⟨item, hitem, hnone⟩)
    · rintro ⟨hshort | hall, _⟩
      · exact hlength hshort
      · exact hnumeric hall

theorem rejected_answers {gameid regionid : Double} {qoslst : List Qos}
    (hrejects : ¬Accepts s gameid regionid) :
    SelectionAnswers keyless s ⟨some gameid, some regionid, qoslst⟩ := by
  intro sorter rng message hanswer
  rw [answer_bind _ _ s (only_getVpnIpRedis _ _ _ _), answer_getVpnIpRedis_eq,
    candidates_rejected hrejects] at hanswer
  cases hanswer

theorem selection_answers_iff (keyless : Keyless) (s : Store) (self : Self) :
    SelectionAnswers keyless s self ↔ RedisAnswers keyless s self := by
  obtain ⟨gameid, regionid, qoslst⟩ := self
  cases gameid with
  | none => exact old_answers_iff (.inl rfl)
  | some gameid =>
    cases regionid with
    | none => exact old_answers_iff (.inr rfl)
    | some regionid =>
      by_cases haccepts : Accepts s gameid regionid
      · simp only [RedisAnswers, forall_prop_of_true haccepts]
        exact game_answers_iff haccepts
      · exact iff_of_true (rejected_answers haccepts) (fun h => absurd h haccepts)

end Redis

end GameAcc.Lua.VpnIp

namespace GameAcc.Lua.VpnRequest

open GameAcc.Redis GameAcc.Mysql GameAcc.Command Entry
open VpnIp (Qos FilterItem TableSort Random Keyless MOD_ERR_INVALID_PARAM Answers)

section Typed

variable {keyless : Keyless} {s : Store} {self : Self} {uid : Value} {db : Database}

/-- What a list of measurements needs: the special address of the user is no
empty text, or the selection that serves the request can use the list. -/
def ParmAnswers (keyless : Keyless) (s : Store) (db : Database) (uid : Value)
    (self : VpnIp.Self) : Prop :=
  (RedisOn s → s.hash SPEC_USER_TO_SPEC_VPNIP uid.tostring ≠ some "") ∧
  (RedisOn s → s.hash SPEC_USER_TO_SPEC_VPNIP uid.tostring = none →
    VpnIp.RedisAnswers keyless s self) ∧
  (¬RedisOn s → VpnIp.MysqlAnswers db self.qoslst)

theorem forall_answers {α : Type} {p : TableSort → Random → Handler α} {q : Handler α}
    (h : ∀ sorter rng, answer (p sorter rng) s = answer q s) :
    (∀ sorter rng, Answers (p sorter rng) s) ↔ Answers q s := by
  constructor
  · intro hall message
    rw [← h (Window.Sorter.stable _) ⟨fun _ => 1, fun _ _ => le_rfl, fun _ hn => hn⟩]
    exact hall _ _ message
  · intro hq sorter rng message
    rw [h]
    exact hq message

theorem special_answers_iff (hon : RedisOn s) {text : String}
    (hspec : s.hash SPEC_USER_TO_SPEC_VPNIP uid.tostring = some text) :
    (∀ sorter rng, Answers (processParm keyless self uid db sorter rng) s) ↔ text ≠ "" := by
  rw [forall_answers (fun sorter rng => answer_special db sorter rng hon hspec),
    VpnIp.answer_sendServerip]
  simp [VpnIp.Sendable, Value.encodable]

theorem redis_answers_iff (hread : Readable self.qoslst) (hon : RedisOn s)
    (hspec : s.hash SPEC_USER_TO_SPEC_VPNIP uid.tostring = none) :
    (∀ sorter rng, Answers (processParm keyless self uid db sorter rng) s) ↔
      VpnIp.RedisAnswers keyless s self.typed := by
  rw [← VpnIp.selection_answers_iff]
  have hredis : ∀ sorter rng, answer (processParm keyless self uid db sorter rng) s =
      answer (VpnIp.getVpnIpRedis keyless self.typed sorter rng >>= VpnIp.sendServerip) s := by
    intro sorter rng
    rw [answer_redis db sorter rng hon hspec, getVpnIpRedis, candidates_typed keyless hread]
    rfl
  exact forall_congr' (fun sorter => forall_congr' (fun rng =>
    forall_congr' (fun message => by rw [hredis])))

theorem mysql_answers_iff (hread : Readable self.qoslst) (hoff : ¬RedisOn s) :
    (∀ sorter rng, Answers (processParm keyless self uid db sorter rng) s) ↔
      VpnIp.MysqlAnswers db self.typed.qoslst := by
  rw [forall_answers (fun sorter rng => answer_mysql db sorter rng hoff), getVpnIp_typed hread,
    VpnIp.mysql_answers_iff]

theorem parm_answers_iff (hread : Readable self.qoslst) :
    (∀ sorter rng, Answers (processParm keyless self uid db sorter rng) s) ↔
      ParmAnswers keyless s db uid self.typed := by
  unfold ParmAnswers
  by_cases hon : RedisOn s
  · cases hspec : s.hash SPEC_USER_TO_SPEC_VPNIP uid.tostring with
    | some text =>
      rw [special_answers_iff hon hspec]
      simp [hon]
    | none =>
      rw [redis_answers_iff hread hon hspec]
      simp [hon]
  · rw [mysql_answers_iff hread hon]
    simp [hon]

end Typed

section Shapes

/-- `info` is a table of objects. -/
structure WellShapedList (info : Json) : Prop where
  table : info.isTable = true
  entries : ∀ v ∈ info.entries, v.isObject = true

theorem WellShapedList.readable {info : Json} (h : WellShapedList info) : Readable info where
  table := h.table
  entries := fun v hv => Json.indexable_of_isObject (h.entries v hv)

/-- What `checkparm` makes of a list and the object it is in. -/
def selfOf (data info : Json) : Self where
  gameid := (Json.ofMember (data.get? "gameid")).tonumber
  regionid := (Json.ofMember (data.get? "regionid")).tonumber
  qoslst := info

/-- `data` is an object, and `info` a table of objects in it. -/
structure WellShaped (userreq data info : Json) : Prop where
  hasData : userreq.get? "data" = some data
  object : data.isObject = true
  hasInfo : data.get? "info" = some info
  list : WellShapedList info

def uidOf (userreq : Json) : Value := Json.ofMember (userreq.get? "uid")

variable (keyless : Keyless) (s : Store) (db : Database)

/-- The selection has no node to choose from. -/
def NoneUsable (self : VpnIp.Self) : Prop :=
  match self.gameid, self.regionid with
  | some gameid, some regionid => Accepts s gameid regionid ∧
      ∀ item ∈ VpnIp.totalledItems keyless s gameid regionid self.qoslst, VpnIp.usable item = false
  | _, _ => ∀ item ∈ VpnIp.activeItems keyless s self.qoslst, VpnIp.usable item = false

/-- No node is eligible for the request. -/
def NoneEligible (uid : Value) (self : VpnIp.Self) : Prop :=
  (RedisOn s ∧ s.hash SPEC_USER_TO_SPEC_VPNIP uid.tostring = none ∧ NoneUsable keyless s self) ∨
    ¬RedisOn s ∧ ∀ v ∈ self.qoslst,
      VpnIp.Eligible (VpnIp.loadValidVpnIp (some db)) v = false

def Unserved (userreq : Json) : Prop :=
  ∃ data info, WellShaped userreq data info ∧
    NoneEligible keyless s db (uidOf userreq) (selfOf data info).typed

/-- What a request of command 3 needs: `data` can be indexed, and a list in it
is one that the selection can use, unless the game or the region is turned down
before it. -/
def Answered (userreq : Json) : Prop :=
  ∀ data, userreq.get? "data" = some data → data.indexable = true ∧
    ∀ info, data.get? "info" = some info →
      Rejected s (uidOf userreq) (selfOf data info).gameid (selfOf data info).regionid ∨
        WellShapedList info ∧ ParmAnswers keyless s db (uidOf userreq) (selfOf data info).typed

variable {keyless s db}

theorem not_rejected_of_noneEligible {uid : Value} {self : Self}
    (h : NoneEligible keyless s db uid self.typed) : ¬Rejected s uid self.gameid self.regionid := by
  rintro ⟨hon, hspec, g, r, hgame, hregion, hrejects⟩
  rcases h with ⟨_, _, hnone⟩ | ⟨hoff, _⟩
  · simp only [NoneUsable, Self.typed, hgame, hregion] at hnone
    exact hrejects hnone.1
  · exact hoff hon

theorem guarantee_parm_iff {self : Self} {uid : Value} {wrong unserved : Prop}
    (hwrong : wrong ↔ ¬WellShapedList self.qoslst)
    (hunserved : unserved → ¬Rejected s uid self.gameid self.regionid) :
    (∀ sorter rng,
      Guarantee (answer (processParm keyless self uid db sorter rng) s) wrong unserved) ↔
      Rejected s uid self.gameid self.regionid ∨
        WellShapedList self.qoslst ∧ ParmAnswers keyless s db uid self.typed := by
  by_cases hrejected : Rejected s uid self.gameid self.regionid
  · refine iff_of_true (fun sorter rng => ?_) (.inl hrejected)
    exact guarantee_exit (answer_rejected db sorter rng hrejected) (by decide)
      (fun h => hunserved h hrejected)
  have herror : ∀ sorter rng e, answer (processParm keyless self uid db sorter rng) s = .error e →
      e.IsError := fun sorter rng _ => isError_of_not_rejected db sorter rng hrejected
  rw [or_iff_right hrejected]
  by_cases hshape : WellShapedList self.qoslst
  · rw [and_iff_right hshape, ← parm_answers_iff hshape.readable]
    refine forall_congr' (fun sorter => forall_congr' (fun rng => ?_))
    constructor
    · exact fun hguarantee message => hguarantee.answered message
    · intro hanswers
      cases hanswer : answer (processParm keyless self uid db sorter rng) s with
      | ok serverip => exact guarantee_ok rfl (fun h => hwrong.mp h hshape)
      | error e =>
        have hraise := herror sorter rng e hanswer
        cases e with
        | exit errcode => exact hraise.elim
        | error message => exact absurd hanswer (hanswers message)
  · refine iff_of_false (fun hguarantee => ?_) (fun h => hshape h.1)
    have first : TableSort × Random :=
      ⟨Window.Sorter.stable _, ⟨fun _ => 1, fun _ _ => le_rfl, fun _ hn => hn⟩⟩
    exact not_guarantee_wrong (hwrong.mpr hshape) (herror first.1 first.2)
      (hguarantee first.1 first.2)

theorem process_of_checkparm {userreq : Json} (hindex : userreq.indexable = true)
    (db : Database) (sorter : TableSort) (rng : Random) :
    process keyless userreq db sorter rng = evaluate (checkparmData (userreq.get? "data")) >>=
      fun self => processParm keyless self (uidOf userreq) db sorter rng := by
  rw [process, checkparm, Json.index_of_indexable hindex, member_of_indexable hindex]
  rfl

theorem checkparmInfo_some {data info : Json} (hdata : data.indexable = true) :
    checkparmInfo data (some info) = .ok (selfOf data info) := by
  simp only [checkparmInfo, member_of_indexable hdata]
  rfl

/-- A list of the request, wherever the request is not turned down before it. -/
theorem guarantee_list_iff {userreq data info : Json} (hindex : userreq.indexable = true)
    (hdata : userreq.get? "data" = some data) (hdataindex : data.indexable = true)
    (hinfo : data.get? "info" = some info) :
    (∀ sorter rng, Guarantee (answer (process keyless userreq db sorter rng) s)
      (¬∃ data info, WellShaped userreq data info) (Unserved keyless s db userreq)) ↔
      Rejected s (uidOf userreq) (selfOf data info).gameid (selfOf data info).regionid ∨
        WellShapedList info ∧ ParmAnswers keyless s db (uidOf userreq) (selfOf data info).typed := by
  have hobject : data.isObject = true := by
    by_contra hnot
    rw [Json.get?_of_not_object (Bool.eq_false_iff.mpr hnot)] at hinfo
    cases hinfo
  have hshape : (¬∃ data info, WellShaped userreq data info) ↔ ¬WellShapedList info := by
    apply not_congr
    constructor
    · rintro ⟨data', info', hdata', _, hinfo', hlist⟩
      obtain rfl := Option.some.inj (hdata.symm.trans hdata')
      obtain rfl := Option.some.inj (hinfo.symm.trans hinfo')
      exact hlist
    · exact fun hlist => ⟨data, info, hdata, hobject, hinfo, hlist⟩
  have hunserved : Unserved keyless s db userreq →
      ¬Rejected s (uidOf userreq) (selfOf data info).gameid (selfOf data info).regionid := by
    rintro ⟨data', info', ⟨hdata', _, hinfo', _⟩, hnone⟩
    obtain rfl := Option.some.inj (hdata.symm.trans hdata')
    obtain rfl := Option.some.inj (hinfo.symm.trans hinfo')
    exact not_rejected_of_noneEligible hnone
  have hprocess : ∀ sorter rng, process keyless userreq db sorter rng =
      processParm keyless (selfOf data info) (uidOf userreq) db sorter rng := by
    intro sorter rng
    rw [process_of_checkparm hindex, hdata, checkparmData,
      Json.index_of_indexable hdataindex, hinfo]
    simp only [bind, Except.bind, checkparmInfo_some hdataindex]
    rfl
  simp only [hprocess]
  exact guarantee_parm_iff hshape hunserved

theorem guarantee_iff {userreq : Json} (hindex : userreq.indexable = true) :
    (∀ sorter rng, Guarantee (answer (process keyless userreq db sorter rng) s)
      (¬∃ data info, WellShaped userreq data info) (Unserved keyless s db userreq)) ↔
      Answered keyless s db userreq := by
  have first : TableSort × Random :=
    ⟨Window.Sorter.stable _, ⟨fun _ => 1, fun _ _ => le_rfl, fun _ hn => hn⟩⟩
  cases hdata : userreq.get? "data" with
  | none =>
    refine iff_of_true (fun sorter rng => ?_) (by simp [Answered, hdata])
    have hexit : answer (process keyless userreq db sorter rng) s =
        .error (.exit MOD_ERR_INVALID_PARAM) := by
      rw [process_of_checkparm hindex, hdata]
      rfl
    refine guarantee_exit hexit (by decide) ?_
    · rintro ⟨data, info, ⟨hdata', _⟩, _⟩
      cases hdata.symm.trans hdata'
  | some data =>
    have hanswered : Answered keyless s db userreq ↔ data.indexable = true ∧
        ∀ info, data.get? "info" = some info →
          Rejected s (uidOf userreq) (selfOf data info).gameid (selfOf data info).regionid ∨
            WellShapedList info ∧
              ParmAnswers keyless s db (uidOf userreq) (selfOf data info).typed := by
      simp [Answered, hdata]
    rw [hanswered]
    cases hdataindex : data.indexable with
    | false =>
      obtain ⟨message, hraise⟩ := Json.index_of_not_indexable hdataindex
      refine iff_of_false (fun hguarantee => ?_) (by simp)
      have hraised : answer (process keyless userreq db first.1 first.2) s =
          .error (.error message) := by
        rw [process_of_checkparm hindex, hdata, checkparmData, hraise]
        rfl
      exact not_guarantee_error hraised (hguarantee first.1 first.2)
    | true =>
      rw [and_iff_right rfl]
      cases hinfo : data.get? "info" with
      | none =>
        refine iff_of_true (fun sorter rng => ?_) (by simp)
        have hexit : answer (process keyless userreq db sorter rng) s =
            .error (.exit MOD_ERR_INVALID_PARAM) := by
          rw [process_of_checkparm hindex, hdata, checkparmData,
            Json.index_of_indexable hdataindex, hinfo]
          rfl
        refine guarantee_exit hexit (by decide) ?_
        · rintro ⟨data', info, ⟨hdata', _, hinfo', _⟩, _⟩
          obtain rfl := Option.some.inj (hdata.symm.trans hdata')
          cases hinfo.symm.trans hinfo'
      | some info =>
        rw [guarantee_list_iff hindex hdata hdataindex hinfo]
        simp

end Shapes

end GameAcc.Lua.VpnRequest
