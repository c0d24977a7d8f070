import GameAcc.Interleaving.Calls
import GameAcc.Lua.GameListStatic

/-!
What the reader gets. It looks at the activeid with one command and fetches the
buffer with a later one; its window is the one of the abstract double buffer.
-/

namespace GameAcc.Interleaving

open GameAcc.Redis GameAcc.Mysql GameAcc.Command GameAcc.Writer GameAcc.Lua
open GameAcc.Lua.GameListPortText

section ReaderProgram

variable (self : Self) (svpninfo : SvpnInfo)

/-- Where the reader fetches an activeid: it is the one of region 1 of its game,
and on the answer the reader goes on to the buffer. -/
def FetchPoint : (c : Cmd) → (c.Reply → Handler Value) → Prop
  | .hget key field, next => ∀ vpnid, key = activeidKey vpnid →
      field = activeidField (numberText self.gameid) (numberText 1) ∧
        ∀ text, next (some text) = fetchDetectData self svpninfo vpnid 1 (.str text)
  | _, _ => True

theorem always_redisHashGet_other {key field : String} {f : Value → Handler Value}
    (hkey : ∀ vpnid, key ≠ activeidKey vpnid)
    (hf : ∀ value, Always (FetchPoint self svpninfo) (f value)) :
    Always (FetchPoint self svpninfo) (redisHashGet key field >>= f) := by
  refine ⟨trivial, ?_⟩
  intro exist
  cases exist with
  | false => exact hf .nil
  | true =>
    refine ⟨fun vpnid h => absurd h (hkey vpnid), ?_⟩
    intro retval
    cases retval with
    | none => exact hf .null
    | some text => exact hf (.str text)

theorem always_validateGameRegion {f : Unit → Handler Value}
    (hf : Always (FetchPoint self svpninfo) (f ())) :
    Always (FetchPoint self svpninfo) (validateGameRegion self >>= f) := by
  refine ⟨trivial, ?_⟩
  intro active
  cases active with
  | false => trivial
  | true =>
    by_cases hregion : self.regionid.rat ≠ some 0
    · simp only [Program.bind, Bool.true_eq_false, if_false, if_pos hregion]
      refine ⟨trivial, ?_⟩
      intro registered
      cases registered with
      | false => trivial
      | true => exact hf
    · simp only [Program.bind, Bool.true_eq_false, if_false, if_neg hregion]
      exact hf

theorem always_fetchDetectData (vpn : String) (regionid : Double) (activeid : Value) :
    Always (FetchPoint self svpninfo)
      (fetchDetectData self svpninfo vpn regionid activeid) := by
  unfold fetchDetectData
  by_cases hactive : noActiveid activeid
  · rw [if_pos hactive]
    trivial
  rw [if_neg hactive]
  cases svpninfo.rtt.tonumber with
  | none => trivial
  | some rtt =>
    have hfetch : ∀ id, Always (FetchPoint self svpninfo) (do
        let gameiplsttbl ← zrangebyscore
          (detectDataKey vpn (numberText self.gameid) (numberText regionid) id)
          (numberText 0) (numberText (MAXTRANSRTT - rtt))
        rangeReply gameiplsttbl) := by
      intro id
      refine ⟨trivial, ?_⟩
      intro reply
      rcases reply with _ | _ | ⟨member, rest⟩ <;> trivial
    cases activeid with
    | num q => exact hfetch _
    | str s => exact hfetch _
    | _ => trivial

/-- The reader fetches activeids only as `FetchPoint` says. -/
theorem always_getGameIpListBySvpnInfo :
    Always (FetchPoint self svpninfo) (getGameIpListBySvpnInfo self svpninfo) := by
  unfold getGameIpListBySvpnInfo
  apply always_validateGameRegion
  apply always_redisHashGet_other _ _ vpnActiveIp_ne_activeidKey
  intro vpnid
  by_cases hvpnid : vpnid = .nil
  · simp only [if_pos hvpnid]
    trivial
  simp only [if_neg hvpnid]
  have hrest : ∀ vpn, Always (FetchPoint self svpninfo) (do
      let activeid ← redisHashGet (activeidKey vpn)
        (activeidField (numberText self.gameid) (numberText 1))
      fetchDetectData self svpninfo vpn 1 activeid) := by
    intro vpn
    refine ⟨trivial, ?_⟩
    intro exist
    cases exist with
    | false => exact always_fetchDetectData self svpninfo vpn 1 .nil
    | true =>
      refine ⟨?_, ?_⟩
      · intro vpnid' hkey
        obtain rfl := activeidKey_injective hkey
        exact ⟨rfl, fun _ => rfl⟩
      · intro retval
        cases retval with
        | none => exact always_fetchDetectData self svpninfo vpn 1 .null
        | some text => exact always_fetchDetectData self svpninfo vpn 1 (.str text)
  cases svpninfo.rtt.tonumber with
  | none => trivial
  | some rtt =>
    by_cases hnear : rtt < MINVPNRTT
    · simp only [less, hnear, decide_true, Program.done_bind, if_true]
      trivial
    · simp only [less, hnear, decide_false, Program.done_bind, Bool.false_eq_true, if_false]
      cases vpnid with
      | num q => exact hrest _
      | str s => exact hrest s
      | _ => trivial

end ReaderProgram

section Runs

variable {db : Database}

theorem always_run {self : Self} {svpninfo : SvpnInfo} {w w' : World}
    {events : List Event} (hrun : World.Run w events w')
    (h : Always (FetchPoint self svpninfo) w.reader) :
    Always (FetchPoint self svpninfo) w'.reader := by
  induction hrun with
  | nil w => exact h
  | cons hstep _ ih =>
    apply ih
    cases hstep with
    | read hreader _ =>
      rw [hreader] at h
      exact h.2 _
    | _ => exact h

/-- Only its own events move the reader. -/
theorem reader_run {w w' : World} {events : List Event} (hrun : World.Run w events w')
    (hevents : ∀ e ∈ events, ¬e.IsRead) : w'.reader = w.reader := by
  induction hrun with
  | nil w => rfl
  | @cons w w₁ w₂ e events hstep _ ih =>
    rw [ih (fun e' he' => hevents e' (List.mem_cons_of_mem e he'))]
    cases hstep with
    | read hreader _ => exact absurd trivial (hevents _ List.mem_cons_self)
    | _ => rfl

theorem event_of_publish {vpnid gameid regionid : String} {e : Event} {slot : Bool}
    (h : action vpnid gameid regionid e = .publish slot) :
    ∃ report value, e = .command report
      (.hset (activeidKey vpnid) (activeidField gameid regionid) value) := by
  unfold action at h
  split at h
  · split at h <;> cases h
  · split at h <;> cases h
  · next report key field value =>
    split at h
    · next hfield =>
      obtain ⟨rfl, rfl⟩ := hfield
      exact ⟨report, value, rfl⟩
    · cases h
  · cases h
  · cases h

theorem event_of_clear {vpnid gameid regionid : String} {e : Event} {slot : Bool}
    (h : action vpnid gameid regionid e = .clear slot) :
    ∃ report, e = .command report
      (.del (detectDataKey vpnid gameid regionid (slotText slot))) := by
  unfold action at h
  split at h
  · next report key =>
    split at h
    · next slot' hslot =>
      obtain rfl := DoubleBuffer.Action.clear.inj h
      exact ⟨report, by rw [slotOfKey_eq_some hslot]⟩
    · cases h
  · split at h <;> cases h
  · split at h
    · split at h <;> cases h
    · cases h
  · cases h
  · cases h

theorem publishesThenDeletes_of_actions {vpnid gameid regionid : String}
    {events : List Event}
    (h : DoubleBuffer.PublishedThenCleared (events.map (action vpnid gameid regionid))) :
    PublishesThenDeletes vpnid gameid regionid events := by
  obtain ⟨before, slot, rest, hactions, slot', hclear⟩ := h
  obtain ⟨first, last, rfl, _, hlast⟩ := List.map_eq_append_iff.mp hactions
  obtain ⟨e, tail, rfl, he, rfl⟩ := List.map_eq_cons_iff.mp hlast
  obtain ⟨report, value, rfl⟩ := event_of_publish he
  obtain ⟨e', he', hcleared⟩ := List.mem_map.mp hclear
  obtain ⟨report', rfl⟩ := event_of_clear hcleared
  exact ⟨first, report, value, tail, rfl, report', slotText slot',
    slotText_isBufferId slot', he'⟩

theorem noActiveid_bufferId {activeid : String} (h : IsBufferId activeid) :
    noActiveid (.str activeid) = false := by
  have hzero : (Value.str "0").rat = some ((0 : Int) : ℚ) :=
    Value.rat_decimal_self 0 (by decide)
  have hone : (Value.str "1").rat = some ((1 : Int) : ℚ) :=
    Value.rat_decimal_self 1 (by decide)
  rcases h with rfl | rfl
  · simp [noActiveid, hzero]
  · simp [noActiveid, hone]

/-- What the reader makes of the buffer it fetches. -/
theorem fetched {self : Self} {svpninfo : SvpnInfo} {vpnid activeid : String}
    (hid : IsBufferId activeid) {w w' : World} {c : Cmd}
    (hreader : w.reader = fetchDetectData self svpninfo vpnid 1 (.str activeid))
    (hstep : World.Step w (.read c) w') :
    ∃ rtt, svpninfo.rtt.tonumber = some rtt ∧
      w'.reader = rangeReply
        ((w.store.zset (detectDataKey vpnid (numberText self.gameid) (numberText 1)
          activeid)).rangeByBounds (numberText 0) (numberText (MAXTRANSRTT - rtt))) := by
  simp only [fetchDetectData, noActiveid_bufferId hid, Bool.false_eq_true, if_false] at hreader
  cases hrtt : svpninfo.rtt.tonumber with
  | none =>
    rw [hrtt] at hreader
    cases hstep with
    | read hissue _ => cases hreader.symm.trans hissue
  | some rtt =>
    refine ⟨rtt, rfl, ?_⟩
    rw [hrtt] at hreader
    cases hstep with
    | @read c next r s' hissue hexec =>
      cases hreader.symm.trans hissue
      have hreply := (Prod.mk.inj (Except.ok.inj hexec)).1
      rw [← hreply]
      rfl

section Safety

variable {self : Self} {svpninfo : SvpnInfo} {w : World} {events : List Event}

/-- The reader's step to the activeid. -/
theorem looked_up (hvalid : World.Valid db w)
    (hpoint : Always (FetchPoint self svpninfo) w.reader) {vpnid field activeid : String}
    {w₁ : World} (hlook : World.Step w (.read (.hget (activeidKey vpnid) field)) w₁)
    (hactive : w.store.hash (activeidKey vpnid) field = some activeid) :
    field = activeidField (numberText self.gameid) (numberText 1) ∧
      w₁ = { w with reader := fetchDetectData self svpninfo vpnid 1 (.str activeid) } := by
  cases hlook with
  | read hissue hexec =>
    have hreads := hvalid.reader
    rw [hissue] at hreads hpoint
    obtain ⟨hfield, hnext⟩ := hpoint.1 vpnid rfl
    obtain rfl := World.read_store hreads.1 hexec
    have hreply := (Prod.mk.inj (Except.ok.inj hexec)).1
    rw [← hreply, hactive, hnext activeid]
    exact ⟨hfield, rfl⟩

/-- The buffer the reader saw active keeps its content over the window. -/
theorem window_content (hvalid : World.Valid db w) {v g r : Int}
    (hreg : db.Registered v g r) {slot : Bool}
    (hactive : (viewOf v g r w).active = some slot) {window : List Event} {w' : World}
    (hwindow : World.Run w window w')
    (hquiet : ¬PublishesThenDeletes (Numeral.decimal v) (Numeral.decimal g)
      (Numeral.decimal r) window) :
    (viewOf v g r w').content slot = (viewOf v g r w).content slot := by
  apply (run_refines hvalid hreg hwindow).content_of_active hactive
  intro h
  exact hquiet (publishesThenDeletes_of_actions h)

end Safety

/-- Double-buffer safety. In every world that the writer and the reader can
reach, a buffer that is named by an activeid holds the records of the last
report of its triple that was published. And unless the writer publishes a
report of the triple and then starts another one between the reader's two looks,
the reader answers the part within its threshold of the report that was published
when it looked at the activeid. -/
theorem double_buffer_safe (db : Database) (self : Self) (svpninfo : SvpnInfo)
    {events : List Event} {w : World}
    (hrun : World.Run (World.initial db self svpninfo) events w) :
    (∀ vpnid gameid regionid activeid,
      w.store.hash (activeidKey vpnid) (activeidField gameid regionid) = some activeid →
      IsBufferId activeid →
      ∃ report, w.published vpnid gameid regionid = some report ∧
        bufferOf report = some (w.store.zset (detectDataKey vpnid gameid regionid activeid))) ∧
    (∀ vpnid field activeid w₁ window w₂ c w₃,
      World.Step w (.read (.hget (activeidKey vpnid) field)) w₁ →
      w.store.hash (activeidKey vpnid) field = some activeid → IsBufferId activeid →
      World.Run w₁ window w₂ → (∀ e ∈ window, ¬e.IsRead) →
      World.Step w₂ (.read c) w₃ →
      ¬PublishesThenDeletes vpnid (numberText self.gameid) (numberText 1) window →
      ∃ report buffer rtt,
        w.published vpnid (numberText self.gameid) (numberText 1) = some report ∧
        bufferOf report = some buffer ∧ svpninfo.rtt.tonumber = some rtt ∧
        w₃.reader = rangeReply
          (buffer.rangeByBounds (numberText 0) (numberText (MAXTRANSRTT - rtt)))) := by
  have hvalid := valid_of_run hrun
  refine ⟨?_, ?_⟩
  · intro vpnid gameid regionid activeid hactive hid
    obtain ⟨v, g, r, slot, hreg, rfl, hfield, rfl, hslot⟩ :=
      exists_triple hvalid hactive hid
    obtain ⟨rfl, rfl⟩ := activeidField_eq (plain_decimal g) (plain_decimal r) hfield
    exact active_buffer hrun hreg hslot
  · intro vpnid field activeid w₁ window w₂ c w₃ hlook hactive hid hwindow hother hfetch
      hquiet
    have hpoint : Always (FetchPoint self svpninfo) w.reader :=
      always_run hrun (always_getGameIpListBySvpnInfo self svpninfo)
    obtain ⟨rfl, rfl⟩ := looked_up hvalid hpoint hlook hactive
    obtain ⟨v, g, r, slot, hreg, rfl, hfield, rfl, hslot⟩ :=
      exists_triple hvalid hactive hid
    obtain ⟨hg, hr⟩ := activeidField_eq (plain_decimal g) (plain_decimal r) hfield
    rw [hg, hr] at hquiet ⊢
    have hreader := reader_run hwindow hother
    obtain ⟨rtt, hrtt, hanswer⟩ := fetched hid hreader hfetch
    obtain ⟨report, hpublished, hbuffer⟩ := active_buffer hrun hreg hslot
    have hvalid₁ := hvalid.step hlook
    have hkept := window_content hvalid₁ hreg hslot hwindow hquiet
    refine ⟨report, _, rtt, hpublished, hbuffer, hrtt, ?_⟩
    rw [hanswer, hg, hr]
    have hzset : w₂.store.zset (detectDataKey (Numeral.decimal v) (Numeral.decimal g)
        (Numeral.decimal r) (slotText slot)) = (viewOf v g r w).content slot := hkept
    rw [hzset]

section OneRegion

/-- A call of its own does not publish and then delete. -/
theorem OfCall.not_publishesThenDeletes {report : Report} {events : List Event}
    (h : OfCall report events) (vpnid gameid regionid : String) :
    ¬PublishesThenDeletes vpnid gameid regionid (.start report :: (events ++ [.leave])) := by
  rintro ⟨before, report', value, rest, hevents, report'', activeid, _, hmem⟩
  cases before with
  | nil => cases (List.cons.inj hevents).1
  | cons e before =>
    have htail := (List.cons.inj hevents).2
    rcases List.append_eq_append_iff.mp htail with ⟨more, _, hleave⟩ | ⟨more, hof, hrest⟩
    · cases more with
      | nil => cases (List.cons.inj hleave).1
      | cons e' more => simpa using (List.cons.inj hleave).2
    · cases more with
      | nil => cases (List.cons.inj hrest).1
      | cons e' more =>
        obtain ⟨rfl, rfl⟩ := List.cons.inj hrest
        obtain rfl := h.last _ _ _ _ _ _ _ hof
        cases List.mem_singleton.mp hmem

theorem OfCall.not_isRead {report : Report} {events : List Event} (h : OfCall report events) :
    ∀ e ∈ Event.start report :: (events ++ [.leave]), ¬e.IsRead := by
  intro e he
  rcases List.mem_cons.mp he with rfl | he
  · exact id
  rcases List.mem_append.mp he with he | he
  · obtain ⟨c, rfl⟩ := h.commands e he
    exact id
  · rw [List.mem_singleton.mp he]
    exact id

/-- The reader may take its steps while the writer stands still. -/
theorem run_of_reads {p p' : Handler Value} {s s' : Store} (h : Steps Lua.redis p s p' s')
    (progress : Progress) (writer : Option (Report × Dealing Exit)) (last : LastReports) :
    ∃ events, World.Run ⟨s, progress, writer, p, last⟩ events
      ⟨s', progress, writer, p', last⟩ := by
  induction h with
  | refl p s => exact ⟨[], .nil _⟩
  | @step c next s t s' r p' hexec _ ih =>
    obtain ⟨events, hrun⟩ := ih
    exact ⟨_, .cons (.read ⟨s, progress, writer, .issue c next, last⟩ rfl hexec) hrun⟩

/-- A field that is there is fetched once it has been found. -/
theorem steps_to_hget {key field text : String} {s : Store} (h : s.hash key field = some text)
    (f : Value → Handler Value) :
    ∃ next : Option String → Handler Value,
      Steps Lua.redis (redisHashGet key field >>= f) s (.issue (.hget key field) next) s ∧
      next (some text) = f (.str text) := by
  have hexists : Lua.redis (.hexists key field) s = .ok (true, s) := by
    show Except.ok ((s.hash _ _).isSome, s) = _
    rw [h]
    rfl
  have hfound : ∃ (first : Bool → Handler Value) (next : Option String → Handler Value),
      redisHashGet key field >>= f = .issue (.hexists key field) first ∧
        first true = .issue (.hget key field) next ∧ next (some text) = f (.str text) :=
    ⟨_, _, rfl, rfl, rfl⟩
  obtain ⟨first, next, hfirst, hsecond, hnext⟩ := hfound
  rw [hfirst]
  refine ⟨next, .step hexists ?_, hnext⟩
  rw [hsecond]
  exact .refl _ _

/-- A request about an active node that is not near comes to the activeid. -/
theorem steps_to_activeid (self : Self) (svpninfo : SvpnInfo) {s : Store} {vpn : String}
    {c : Double} (haccepts : Accepts s self.gameid self.regionid)
    (hnode : s.hash VPN_ACTIVE_IP_TO_ID_DIC svpninfo.ip.tostring = some vpn)
    (hc : svpninfo.rtt.tonumber = some c) (hfar : ¬c < MINVPNRTT) {activeid : String}
    (hactive : s.hash (activeidKey vpn)
      (activeidField (numberText self.gameid) (numberText 1)) = some activeid) :
    ∃ next : Option String → Handler Value,
      Steps Lua.redis (getGameIpListBySvpnInfo self svpninfo) s
        (.issue (.hget (activeidKey vpn)
          (activeidField (numberText self.gameid) (numberText 1))) next) s ∧
      next (some activeid) = fetchDetectData self svpninfo vpn 1 (.str activeid) := by
  have hvalid : Steps Lua.redis (validateGameRegion self) s (.done ()) s := by
    have hanswer := answer_validateGameRegion haccepts Program.done
    rw [Program.bind_done] at hanswer
    exact steps_of_answer (only_validateGameRegion self) hanswer
  have hvpn : Steps Lua.redis (redisHashGet VPN_ACTIVE_IP_TO_ID_DIC svpninfo.ip.tostring) s
      (.done (.str vpn)) s := by
    have hanswer := answer_redisHashGet s VPN_ACTIVE_IP_TO_ID_DIC svpninfo.ip.tostring
      Program.done
    rw [Program.bind_done, hnode] at hanswer
    exact steps_of_answer (only_redisHashGet _ _) hanswer
  obtain ⟨next, hlook, hnext⟩ := steps_to_hget hactive (fetchDetectData self svpninfo vpn 1)
  refine ⟨next, (hvalid.bind _).trans ((hvpn.bind _).trans ?_), hnext⟩
  simp only [Program.done_bind, reduceCtorEq, hc, less, hfar, decide_false, Bool.false_eq_true,
    if_false]
  exact hlook

/-- The reader at a buffer asks for a range of it. -/
theorem step_of_fetch (self : Self) (svpninfo : SvpnInfo) {vpn activeid : String}
    (hid : IsBufferId activeid) {rtt : Double} (hrtt : svpninfo.rtt.tonumber = some rtt) {w : World}
    (hreader : w.reader = fetchDetectData self svpninfo vpn 1 (.str activeid)) :
    ∃ c w', World.Step w (.read c) w' := by
  simp only [fetchDetectData, noActiveid_bufferId hid, Bool.false_eq_true, if_false, hrtt]
    at hreader
  exact ⟨_, _, .read w hreader rfl⟩

/-- A report of 40 ms has been published; a reader from 40 ms away looks at the
activeid, and before it fetches the buffer a report of 70 ms is published. It
answers the list of the first one; the second has nothing within 60 ms. -/
theorem double_buffer_safe_one_region :
    ∃ events w w₁ window w₂ c w₃,
      World.Run (World.initial (oneGame [1]) ⟨5, 1, none⟩ (nodeInfo 40)) events w ∧
      World.Step w (.read (.hget (activeidKey "1") (activeidField "5" "1"))) w₁ ∧
      World.Run w₁ window w₂ ∧ World.Step w₂ (.read c) w₃ ∧
      w.published "1" "5" "1" = some (oneReport 40) ∧
      w₂.published "1" "5" "1" = some (oneReport 70) ∧
      w₃.reader = .done (.str (oneRecord 40).member) := by
  obtain ⟨s, activeid, hhistory, hactive, hid⟩ := oneReport_history 40 (by decide)
  obtain ⟨s', _, hcall, _⟩ := oneReport_call 70 (by decide) hhistory.sound
  have hfive : numberText 5 = "5" := by
    decide +kernel
  have hone : numberText 1 = "1" := by
    decide +kernel
  have haccepts : Accepts s 5 1 := by
    rw [Accepts, hfive, hone, hhistory.sound.activeGameids, hhistory.sound.gameRegions]
    exact ⟨oneGame_active [1], fun _ => oneGame_regions.mpr ⟨1, List.mem_singleton_self 1, rfl⟩⟩
  have hnode : s.hash VPN_ACTIVE_IP_TO_ID_DIC "10.0.0.1" = some "1" := by
    rw [hhistory.sound.vpnIps]
    exact oneGame_vpnIp [1]
  -- The reader comes to the activeid behind the first report.
  obtain ⟨events, progress, hrun⟩ := run_of_history hhistory ⟨5, 1, none⟩ (nodeInfo 40)
  have hfar : ¬(40 : Double) < MINVPNRTT := by
    decide +kernel
  obtain ⟨next, hsteps, hnext⟩ := steps_to_activeid ⟨5, 1, none⟩ (nodeInfo 40) haccepts hnode
    (Value.tonumber_num 40) hfar (by rw [hfive, hone]; exact hactive)
  rw [hfive, hone] at hsteps
  let last := lastPublished [(oneReport 40, .returned .published)]
  obtain ⟨more, hreads⟩ := run_of_reads hsteps progress none last
  let w : World := ⟨s, progress, none,
    .issue (.hget (activeidKey "1") (activeidField "5" "1")) next, last⟩
  have hlook : World.Step w (.read (.hget (activeidKey "1") (activeidField "5" "1")))
      ⟨s, progress, none, next (some activeid), last⟩ :=
    .read w rfl (congrArg (fun reply => Except.ok (reply, s)) hactive)
  -- The second report is published while the reader stands there.
  obtain ⟨window, progress', hof, hwindow⟩ :=
    run_of_call hcall progress (next (some activeid)) last
  obtain ⟨c, w₃, hfetch⟩ := step_of_fetch ⟨5, 1, none⟩ (nodeInfo 40) hid (Value.tonumber_num 40)
    (w := ⟨s', progress', none, next (some activeid), _⟩) hnext
  obtain ⟨_, hsafe⟩ := double_buffer_safe (oneGame [1]) _ _ (hrun.append hreads)
  obtain ⟨report, buffer, rtt, hpublished, hbuffer, hrtt, hanswer⟩ := hsafe "1" _ activeid _ _ _
    c w₃ hlook hactive hid hwindow hof.not_isRead hfetch (hof.not_publishesThenDeletes _ _ _)
  have hfirst : last "1" "5" "1" = some (oneReport 40) := oneReport_last _ rfl 40
  refine ⟨_, w, _, _, _, c, w₃, hrun.append hreads, hlook, hwindow, hfetch, hfirst, rfl, ?_⟩
  rw [hfive, hone] at hpublished
  obtain rfl := Option.some.inj (hfirst.symm.trans hpublished)
  rw [bufferOf, oneReport_detects 40 (by decide)] at hbuffer
  obtain rfl := Option.some.inj hbuffer
  obtain rfl := Option.some.inj hrtt
  have hrange : (contents [(oneRecord 40).detect]).rangeByBounds (numberText 0)
      (numberText (MAXTRANSRTT - 40)) = some [(oneRecord 40).member] := by
    decide +kernel
  rw [hanswer, hrange]
  rfl

end OneRegion

end Runs

end GameAcc.Interleaving
