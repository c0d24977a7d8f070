import GameAcc.Lua.VpnIp

/-!
What the steps of `getvpnipredis` compute on a store that nobody changes
meanwhile, and which nodes are the candidates.
-/

namespace GameAcc.Lua.VpnIp

open GameAcc.Redis GameAcc.Mysql

section Active

variable (keyless : Keyless) (s : Store)

/-- What the table of the active addresses says of an entry's. -/
def vpnidOf (ip : Value) : Value :=
  if ip = .nil then keyless.reply
  else Value.ofReply (s.hash VPN_ACTIVE_IP_TO_ID_DIC ip.tostring)

/-- The item of a measured node, when it is active. -/
def activeItem? (v : Qos) : Option FilterItem :=
  if v.rtt = .nil ∨ v.lose = .nil ∨ vpnidOf keyless s v.ip = .nil then none
  else some (activeItem v (vpnidOf keyless s v.ip))

def activeItems (qoslst : List Qos) : List FilterItem :=
  qoslst.filterMap (activeItem? keyless s)

theorem answer_activeVpnid {α : Type} (ip : Value) (f : Value → Handler α) :
    answer (activeVpnid keyless ip >>= f) s = answer (f (vpnidOf keyless s ip)) s := by
  unfold activeVpnid vpnidOf
  split
  · rfl
  · exact answer_redisHashGet s _ _ f

@[simp] theorem answer_filterActiveVpn {α : Type} (qoslst : List Qos)
    (f : List FilterItem → Handler α) :
    answer (filterActiveVpn keyless qoslst >>= f) s =
      answer (f (activeItems keyless s qoslst)) s := by
  induction qoslst generalizing f with
  | nil => rfl
  | cons v rest ih =>
    by_cases hmissing : v.rtt = .nil ∨ v.lose = .nil
    · have hnone : activeItem? keyless s v = none := if_pos (by tauto)
      rw [filterActiveVpn, if_pos hmissing, ih, activeItems, activeItems,
        List.filterMap_cons_none hnone]
    · rw [filterActiveVpn, if_neg hmissing]
      simp only [Command.Program.bind_assoc, answer_activeVpnid, ih]
      by_cases hvpnid : vpnidOf keyless s v.ip = .nil
      · have hnone : activeItem? keyless s v = none := if_pos (by tauto)
        rw [if_pos hvpnid, activeItems, activeItems, List.filterMap_cons_none hnone]
        rfl
      · have hsome : activeItem? keyless s v =
            some (activeItem v (vpnidOf keyless s v.ip)) := if_neg (by tauto)
        rw [if_neg hvpnid, activeItems, activeItems, List.filterMap_cons_some hsome]
        rfl

variable {keyless s}

/-- An entry with an address is looked up by it. -/
theorem activeItem?_of_ip {v : Qos} (hip : v.ip ≠ .nil) :
    activeItem? keyless s v = if v.rtt = .nil ∨ v.lose = .nil then none
      else (s.hash VPN_ACTIVE_IP_TO_ID_DIC v.ip.tostring).map
        (fun vpnid => activeItem v (.str vpnid)) := by
  have hvpnid : vpnidOf keyless s v.ip =
      Value.ofReply (s.hash VPN_ACTIVE_IP_TO_ID_DIC v.ip.tostring) := if_neg hip
  unfold activeItem?
  rw [hvpnid]
  by_cases hmissing : v.rtt = .nil ∨ v.lose = .nil
  · rw [if_pos (by tauto), if_pos hmissing]
  · rw [if_neg hmissing]
    cases hreply : s.hash VPN_ACTIVE_IP_TO_ID_DIC v.ip.tostring with
    | none => simp [Value.ofReply]
    | some vpnid =>
      have hpresent : ¬(v.rtt = .nil ∨ v.lose = .nil ∨ Value.ofReply (some vpnid) = .nil) := by
        simp only [Value.ofReply, reduceCtorEq, or_false]
        exact hmissing
      rw [if_neg hpresent]
      rfl

theorem activeItem?_eq_some {v : Qos} {item : FilterItem}
    (h : activeItem? keyless s v = some item) :
    v.rtt ≠ .nil ∧ v.lose ≠ .nil ∧ item.vpnid ≠ .nil ∧ item.vpnid = vpnidOf keyless s v.ip ∧
      item = activeItem v item.vpnid := by
  unfold activeItem? at h
  by_cases hmissing : v.rtt = .nil ∨ v.lose = .nil ∨ vpnidOf keyless s v.ip = .nil
  · rw [if_pos hmissing] at h
    cases h
  · rw [if_neg hmissing] at h
    obtain rfl := Option.some.inj h
    push Not at hmissing
    exact ⟨hmissing.1, hmissing.2.1, hmissing.2.2, rfl, rfl⟩

theorem mem_activeItems {qoslst : List Qos} {item : FilterItem}
    (h : item ∈ activeItems keyless s qoslst) :
    ∃ v ∈ qoslst, activeItem? keyless s v = some item := List.mem_filterMap.mp h

/-- What an item of an entry with an address holds. -/
theorem activeItem?_vpnid {v : Qos} (hip : v.ip ≠ .nil) {item : FilterItem}
    (h : activeItem? keyless s v = some item) :
    ∃ vpnid, s.hash VPN_ACTIVE_IP_TO_ID_DIC v.ip.tostring = some vpnid ∧
      item = activeItem v (.str vpnid) := by
  rw [activeItem?_of_ip hip] at h
  split at h
  · cases h
  · obtain ⟨vpnid, hvpnid, rfl⟩ := Option.map_eq_some_iff.mp h
    exact ⟨vpnid, hvpnid, rfl⟩

/-- The id of an item is a text of the table, or no text at all. -/
theorem activeItem?_id {v : Qos} {item : FilterItem}
    (h : activeItem? keyless s v = some item) :
    (∃ vpnid, item.vpnid = .str vpnid ∧
        s.hash VPN_ACTIVE_IP_TO_ID_DIC v.ip.tostring = some vpnid) ∨
      v.ip = .nil ∧ concatText item.vpnid =
        luaError "attempt to concatenate a non-string value" := by
  by_cases hip : v.ip = .nil
  · obtain ⟨_, _, hne, hvpnid, _⟩ := activeItem?_eq_some h
    rw [vpnidOf, if_pos hip] at hvpnid
    refine .inr ⟨hip, ?_⟩
    rw [hvpnid] at hne ⊢
    rcases keyless.refused with hnil | hnull | hfalse
    · exact absurd hnil hne
    · rw [hnull]
      rfl
    · rw [hfalse]
      rfl
  · obtain ⟨vpnid, hvpnid, rfl⟩ := activeItem?_vpnid hip h
    exact .inl ⟨vpnid, rfl, hvpnid⟩

end Active

section Acceptance

variable {keyless : Keyless} {s : Store} {gameid regionid : Double}

theorem answer_filterQosRedis_accepts {α : Type} (h : Accepts s gameid regionid)
    (qoslst : List Qos) (f : List FilterItem → Handler α) :
    answer (filterQosRedis keyless gameid regionid qoslst >>= f) s =
      answer (f (activeItems keyless s qoslst)) s := by
  obtain ⟨hactive, hregion⟩ := h
  by_cases hzero : regionid.rat = some 0
  · simp [filterQosRedis, Command.Program.bind_assoc, hactive, hzero]
  · simp [filterQosRedis, Command.Program.bind_assoc, hactive, hzero, hregion hzero]

theorem answer_filterQosRedis (keyless : Keyless) (h : Accepts s gameid regionid)
    (qoslst : List Qos) :
    answer (filterQosRedis keyless gameid regionid qoslst) s =
      .ok (activeItems keyless s qoslst) := by
  have hanswer : answer (filterQosRedis keyless gameid regionid qoslst >>= .done) s = _ :=
    answer_filterQosRedis_accepts h qoslst .done
  rwa [Command.Program.bind_done] at hanswer

theorem answer_filterQosRedis_rejects (h : ¬Accepts s gameid regionid)
    (qoslst : List Qos) :
    answer (filterQosRedis keyless gameid regionid qoslst) s =
      .error (.exit MOD_ERR_INVALID_PARAM) := by
  by_cases hactive : numberText gameid ∈ s.set ACTIVE_GAMEID_SET
  · have hregion : regionid.rat ≠ some 0 ∧
        numberText regionid ∉ s.set (gameRegionKey (numberText gameid)) := by
      simpa [Accepts, hactive] using h
    simp [filterQosRedis, hactive, hregion, returnwithcode]
  · simp [filterQosRedis, hactive, returnwithcode]

theorem only_activeVpnid (ip : Value) :
    Command.Only Cmd.Reads (activeVpnid keyless ip) := by
  unfold activeVpnid
  split
  · trivial
  · exact only_redisHashGet _ _

theorem only_filterActiveVpn (qoslst : List Qos) :
    Command.Only Cmd.Reads (filterActiveVpn keyless qoslst) := by
  induction qoslst with
  | nil => trivial
  | cons v rest ih =>
    unfold filterActiveVpn
    split
    · exact ih
    · apply (only_activeVpnid v.ip).bind
      intro vpnid
      apply ih.bind
      intro filtervpnlst
      split <;> trivial

theorem only_filterQosRedis (gameid regionid : Double) (qoslst : List Qos) :
    Command.Only Cmd.Reads (filterQosRedis keyless gameid regionid qoslst) := by
  refine ⟨.sismember _ _, ?_⟩
  intro active
  simp only [Command.Program.bind]
  split
  · trivial
  split
  · refine ⟨.sismember _ _, ?_⟩
    intro registered
    simp only [Command.Program.bind]
    split
    · trivial
    · exact only_filterActiveVpn qoslst
  · exact only_filterActiveVpn qoslst

theorem accepts_of_filterQosRedis {qoslst : List Qos} {filterqos : List FilterItem}
    (h : answer (filterQosRedis keyless gameid regionid qoslst) s = .ok filterqos) :
    Accepts s gameid regionid ∧ filterqos = activeItems keyless s qoslst := by
  by_cases haccepts : Accepts s gameid regionid
  · rw [answer_filterQosRedis keyless haccepts] at h
    exact ⟨haccepts, (Except.ok.inj h).symm⟩
  · rw [answer_filterQosRedis_rejects haccepts] at h
    cases h

end Acceptance

section Averages

theorem only_updateItem (gameid regionid : Double) (v : FilterItem) :
    Command.Only Cmd.Reads (updateItem gameid regionid v) := by
  unfold updateItem
  apply (only_concatText _).bind
  intro vpn
  refine ⟨.hget _ _, ?_⟩
  intro reply
  by_cases hava : (ofHget reply).rat = some 0 ∨ (ofHget reply).rat = AVA_INF.rat
  · simp only [Command.Program.bind, if_pos hava]
    trivial
  · simp only [Command.Program.bind, if_neg hava]
    cases v.rtt.tonumber with
    | none => trivial
    | some rtt =>
      cases (ofHget reply).tonumber with
      | none => trivial
      | some ava => trivial

theorem only_updateQosRedis (gameid regionid : Double) (filterqos : List FilterItem) :
    Command.Only Cmd.Reads (updateQosRedis gameid regionid filterqos) := by
  induction filterqos with
  | nil => trivial
  | cons v rest ih =>
    apply (only_updateItem gameid regionid v).bind
    intro v'
    apply ih.bind
    intro rest'
    trivial

variable (s : Store) (gameid regionid : Double)

/-- The stored average of a node, as a number. -/
def average (vpnid : String) : Option Double :=
  (ofHget (s.hash (avaRegionKey vpnid)
    (regionRttField (numberText gameid) (numberText regionid)))).tonumber

/-- The two averages that mean that there is none. -/
def Sentinel (ava : Double) : Prop := ava.rat = some 0 ∨ ava.rat = AVA_INF.rat

instance (ava : Double) : Decidable (Sentinel ava) := inferInstanceAs (Decidable (_ ∨ _))

theorem AVA_INF_rat : AVA_INF.rat = some 99999 := by
  have h := Double.rat_ofInt (n := 99999) (by decide)
  exact_mod_cast h

variable {s gameid regionid} {v : FilterItem} {vpnid : String}

theorem answer_updateItem_average {ava : Double} (hvpnid : v.vpnid = .str vpnid)
    (hava : average s gameid regionid vpnid = some ava) :
    answer (updateItem gameid regionid v) s =
      .ok (if Sentinel ava then unmeasured v
        else match v.rtt.tonumber with
          | none => unmeasured v
          | some rtt => { v with rtt := .num (rtt + ava) }) := by
  unfold average at hava
  simp only [updateItem, hvpnid, concatText, Command.Program.done_bind, answer_hget, Value.rat,
    hava, Option.bind_some, Sentinel]
  split
  · rfl
  · cases v.rtt.tonumber <;> rfl

theorem answer_updateItem_no_rtt (hvpnid : v.vpnid = .str vpnid)
    (hrtt : v.rtt.tonumber = none) :
    answer (updateItem gameid regionid v) s = .ok (unmeasured v) := by
  simp only [updateItem, hvpnid, concatText, Command.Program.done_bind, answer_hget, hrtt]
  split <;> rfl

theorem answer_updateItem_missing (hvpnid : v.vpnid = .str vpnid) {rtt : Double}
    (hrtt : v.rtt.tonumber = some rtt) (hava : average s gameid regionid vpnid = none) :
    answer (updateItem gameid regionid v) s =
      .error (.error "attempt to perform arithmetic on a nil value") := by
  unfold average at hava
  simp only [updateItem, hvpnid, concatText, Command.Program.done_bind, answer_hget, Value.rat,
    hava, hrtt, Option.bind_none, AVA_INF_rat, reduceCtorEq, or_self, if_false]
  rfl

theorem answer_updateItem_no_id
    (h : concatText v.vpnid = luaError "attempt to concatenate a non-string value") :
    answer (updateItem gameid regionid v) s =
      .error (.error "attempt to concatenate a non-string value") := by
  rw [updateItem, h]
  rfl

theorem answer_updateQosRedis {α : Type} {upd : FilterItem → FilterItem}
    {filterqos : List FilterItem}
    (h : ∀ v ∈ filterqos, answer (updateItem gameid regionid v) s = .ok (upd v))
    (f : List FilterItem → Handler α) :
    answer (updateQosRedis gameid regionid filterqos >>= f) s =
      answer (f (filterqos.map upd)) s := by
  induction filterqos generalizing f with
  | nil => rfl
  | cons v rest ih =>
    have hrest : ∀ w ∈ rest, answer (updateItem gameid regionid w) s = .ok (upd w) :=
      fun w hw => h w (List.mem_cons_of_mem v hw)
    rw [updateQosRedis]
    simp only [Command.Program.bind_assoc]
    rw [answer_bind _ _ s (only_updateItem gameid regionid v), h v List.mem_cons_self]
    exact ih hrest _

end Averages

section Candidates

/-- The items the last step considers. -/
def usable (item : FilterItem) : Bool :=
  item.valid ≠ 0 && item.loss.rat = some 0 && item.rtt.tonumber.isSome

def rttOf (item : FilterItem) : Double := item.rtt.tonumber.getD .nan

/-- The time of an item, when it has a place in the order. -/
def timeOf (item : FilterItem) : Extended := item.rtt.extended.getD ⊥

/-- Two times as the last step compares them. -/
abbrev Within : Extended → Extended → Prop := Double.Near 5

theorem usable_iff {item : FilterItem} :
    usable item = true ↔
      item.valid ≠ 0 ∧ item.loss.rat = some 0 ∧
        item.rtt.tonumber = some (rttOf item) := by
  cases hrtt : item.rtt.tonumber <;> simp [usable, rttOf, hrtt]

theorem timeOf_eq {item : FilterItem} (h : (item.rtt.extended).isSome) :
    item.rtt.extended = some (timeOf item) := by
  obtain ⟨x, hx⟩ := Option.isSome_iff_exists.mp h
  simp [timeOf, hx]

theorem numeric_of_extended {value : Value} (h : value.extended.isSome) :
    value.tonumber.isSome := by
  obtain ⟨x, hx⟩ := Option.isSome_iff_exists.mp h
  obtain ⟨d, hd, _⟩ := Value.tonumber_of_extended hx
  rw [hd]
  rfl

/-- The last step is a scan with 0 for the minimum that is not set; an item
without an ip is taken for the minimum and not inserted. -/
theorem updateSortQosRedis_scan (items : List FilterItem) (minrtt : Double) :
    updateSortQosRedis minrtt items =
      ((Window.scan rttOf (fun minrtt => minrtt.rat = some 0)
        (fun rtt minrtt => rtt - minrtt ≤ MAX_AVA_DIFF) minrtt (items.filter usable)).map
          FilterItem.ip).filter (fun ip => decide (ip ≠ .nil)) := by
  induction items generalizing minrtt with
  | nil => rfl
  | cons item rest ih =>
    by_cases husable : usable item = true
    · obtain ⟨hvalid, hloss, hrtt⟩ := usable_iff.mp husable
      have hinsert : ∀ ips : List Value, (item.ip :: ips).filter (fun ip => decide (ip ≠ .nil)) =
          insertIp item.ip (ips.filter (fun ip => decide (ip ≠ .nil))) := by
        intro ips
        unfold insertIp
        split
        · rename_i hnil
          exact List.filter_cons_of_neg (by simp [hnil])
        · rename_i hne
          exact List.filter_cons_of_pos (by simp [hne])
      rw [List.filter_cons_of_pos husable, updateSortQosRedis, Window.scan, if_neg hvalid,
        if_neg (not_not_intro hloss), hrtt]
      simp only [ih]
      split
      · rw [List.map_cons, hinsert]
      · split
        · rw [List.map_cons, hinsert]
        · rfl
    · have hskip : updateSortQosRedis minrtt (item :: rest) =
          updateSortQosRedis minrtt rest := by
        rw [updateSortQosRedis]
        by_cases hvalid : item.valid = 0
        · rw [if_pos hvalid]
        rw [if_neg hvalid]
        by_cases hloss : item.loss.rat ≠ some 0
        · rw [if_pos hloss]
        rw [if_neg hloss]
        cases hrtt : item.rtt.tonumber with
        | none => rfl
        | some rtt =>
          have hall : usable item = true := by
            simp [usable, hvalid, not_not.mp hloss, hrtt]
          exact absurd hall husable
      rw [hskip, List.filter_cons_of_neg husable, ih]

theorem extended_MAX_AVA_DIFF : MAX_AVA_DIFF.extended = some (.fin 5) := by
  have h := Double.extended_ofInt (n := 5) (by decide)
  exact_mod_cast h

theorem extended_zero : (0 : Double).extended = some (.fin 0) := by
  have h := Double.extended_ofInt (n := 0) (by decide)
  exact_mod_cast h

/-- Where every time has a place in the order, the scan is one over these. -/
theorem updateSortQosRedis_ordered {items : List FilterItem}
    (hordered : ∀ item ∈ items, (item.rtt.extended).isSome) :
    updateSortQosRedis 0 items =
      ((Window.scan timeOf (· = .fin 0) Within (.fin 0) (items.filter usable)).map
        FilterItem.ip).filter (fun ip => decide (ip ≠ .nil)) := by
  rw [updateSortQosRedis_scan]
  congr 2
  refine Window.scan_congr (fun d x => d.extended = some x) ?_ ?_ extended_zero ?_
  · intro d x h
    rw [Double.rat_eq_some, h, Option.some.injEq]
  · intro d x d' x' h h'
    exact Double.sub_le_iff h h' extended_MAX_AVA_DIFF
  · intro item hitem
    obtain ⟨hmem, husable⟩ := List.mem_filter.mp hitem
    obtain ⟨_, _, hrtt⟩ := usable_iff.mp husable
    have htime := timeOf_eq (hordered item hmem)
    rw [Value.extended, hrtt] at htime
    exact htime

theorem filter_ip {items : List FilterItem} (hip : ∀ item ∈ items, item.ip ≠ .nil) :
    (items.map FilterItem.ip).filter (fun ip => decide (ip ≠ .nil)) =
      items.map FilterItem.ip := by
  rw [List.filter_eq_self]
  intro ip hmem
  obtain ⟨item, hitem, rfl⟩ := List.mem_map.mp hmem
  simpa using hip item hitem

theorem answer_sortByRtt {α : Type} {sorter : TableSort} {items : List FilterItem}
    (hnumeric : ∀ item ∈ items, (item.rtt.tonumber).isSome) {s : Store}
    (f : List FilterItem → Handler α) :
    answer (sortByRtt sorter items >>= f) s = answer (f (sorter.sort items)) s := by
  have hno : ¬(2 ≤ items.length ∧ ∃ item ∈ items, item.rtt.tonumber = none) := by
    rintro ⟨_, item, hitem, hnone⟩
    have hsome := hnumeric item hitem
    simp [hnone] at hsome
  rw [sortByRtt, if_neg hno]
  rfl

section Sorted

variable (sorter : TableSort) {items : List FilterItem}

theorem sorted_usable (hordered : ∀ item ∈ items, (item.rtt.extended).isSome) :
    ((sorter.sort items).filter usable).Pairwise (fun a b => timeOf a ≤ timeOf b) := by
  have hascending := (sorter.ascending items hordered).filter usable
  apply hascending.imp_of_mem
  intro a b ha hb hle
  have hkey : ∀ item, item ∈ (sorter.sort items).filter usable →
      timeOf item ∈ item.rtt.extended := by
    intro item h
    have hmem := (sorter.perm items).mem_iff.mp (List.mem_filter.mp h).1
    exact timeOf_eq (hordered item hmem)
  exact hle _ (hkey a ha) _ (hkey b hb)

theorem mem_sorted_usable {item : FilterItem} :
    item ∈ (sorter.sort items).filter usable ↔ item ∈ items.filter usable :=
  ((sorter.perm items).filter usable).mem_iff

/-- The last step on sorted items. -/
theorem updateSortQosRedis_sorted (hip : ∀ item ∈ items, item.ip ≠ .nil)
    (hordered : ∀ item ∈ items, (item.rtt.extended).isSome) :
    updateSortQosRedis 0 (sorter.sort items) =
      (Window.scan timeOf (· = .fin 0) Within (.fin 0)
        ((sorter.sort items).filter usable)).map FilterItem.ip := by
  have hmem : ∀ item, item ∈ sorter.sort items ↔ item ∈ items :=
    fun item => (sorter.perm items).mem_iff
  rw [updateSortQosRedis_ordered (fun item h => hordered item ((hmem item).mp h)), filter_ip]
  intro item h
  have hscanned := (Window.scan_sublist _ _).subset h
  exact hip item ((hmem item).mp (List.mem_filter.mp hscanned).1)

/-- The items within the window, whatever order the sort leaves equal ones in,
when the least positive time is finite. -/
theorem updateSortQosRedis_perm (hip : ∀ item ∈ items, item.ip ≠ .nil)
    (hordered : ∀ item ∈ items, (item.rtt.extended).isSome)
    (hnonneg : ∀ item ∈ items, usable item = true → .fin 0 ≤ timeOf item)
    (hfinite : ∀ item ∈ items, usable item = true →
      (∀ other ∈ items.filter usable, .fin 0 < timeOf other → timeOf item ≤ timeOf other) →
        timeOf item ≠ ⊤) :
    (updateSortQosRedis 0 (sorter.sort items)).Perm
      (((items.filter usable).filter (fun item =>
        decide (timeOf item = .fin 0 ∨
          Window.Near timeOf (.fin 0) Within (items.filter usable) item))).map
            FilterItem.ip) := by
  have hmem : ∀ item, item ∈ (sorter.sort items).filter usable ↔ item ∈ items.filter usable :=
    fun _ => mem_sorted_usable sorter
  have hscan : Window.scan timeOf (· = .fin 0) Within (.fin 0)
      ((sorter.sort items).filter usable) =
      ((sorter.sort items).filter usable).filter (fun item =>
        decide (timeOf item = .fin 0 ∨ Window.Near timeOf (.fin 0) Within
          ((sorter.sort items).filter usable) item)) := by
    apply Window.scan_unset
    · exact fun _ _ _ _ hnear hx hy => hnear.mono hx hy
    · exact sorted_usable sorter hordered
    · intro item h
      obtain ⟨hitem, husable⟩ := List.mem_filter.mp ((hmem item).mp h)
      exact hnonneg item hitem husable
    · intro item h hpos hleast
      obtain ⟨hitem, husable⟩ := List.mem_filter.mp ((hmem item).mp h)
      have hne := hfinite item hitem husable
        (fun other hother => hleast other ((hmem other).mpr hother))
      generalize timeOf item = time at hpos hne ⊢
      match time with
      | ⊥ => exact absurd hpos not_lt_bot
      | ⊤ => exact absurd rfl hne
      | .fin q => exact Double.near_self (by norm_num) q
  have hnear : ∀ item, Window.Near timeOf (.fin 0) Within
      ((sorter.sort items).filter usable) item ↔
        Window.Near timeOf (.fin 0) Within (items.filter usable) item := by
    intro item
    simp only [Window.Near, hmem]
  rw [updateSortQosRedis_sorted sorter hip hordered, hscan]
  apply List.Perm.map
  simp only [hnear]
  exact ((sorter.perm items).filter usable).filter _

/-- Nothing is within 5 ms of an infinite time: the first item is the only one. -/
theorem updateSortQosRedis_infinite (hip : ∀ item ∈ items, item.ip ≠ .nil)
    (hordered : ∀ item ∈ items, (item.rtt.extended).isSome)
    (hinfinite : ∀ item ∈ items.filter usable, timeOf item = ⊤)
    (hne : items.filter usable ≠ []) :
    ∃ item ∈ items.filter usable, updateSortQosRedis 0 (sorter.sort items) = [item.ip] := by
  have hmem : ∀ item, item ∈ (sorter.sort items).filter usable ↔ item ∈ items.filter usable :=
    fun _ => mem_sorted_usable sorter
  rw [updateSortQosRedis_sorted sorter hip hordered]
  cases hsorted : (sorter.sort items).filter usable with
  | nil =>
    obtain ⟨item, hitem⟩ := List.exists_mem_of_ne_nil _ hne
    have hin := (hmem item).mpr hitem
    rw [hsorted] at hin
    cases hin
  | cons first rest =>
    have htop : ∀ item ∈ first :: rest, timeOf item = ⊤ := by
      intro item h
      exact hinfinite item ((hmem item).mp (hsorted ▸ h))
    have hfirst : timeOf first = ⊤ := htop first List.mem_cons_self
    refine ⟨first, (hmem first).mp (hsorted ▸ List.mem_cons_self), ?_⟩
    rw [Window.scan_first]
    · rfl
    · simp [hfirst]
    · intro item h
      rw [htop item (List.mem_cons_of_mem first h)]
      exact Double.not_near_top

/-- Some item is kept as long as one is considered. -/
theorem updateSortQosRedis_eq_nil (hip : ∀ item ∈ items, item.ip ≠ .nil) :
    updateSortQosRedis 0 (sorter.sort items) = [] ↔ items.filter usable = [] := by
  have hmem : ∀ item, item ∈ sorter.sort items ↔ item ∈ items :=
    fun item => (sorter.perm items).mem_iff
  have hzero : (0 : Double).rat = some 0 := Double.rat_eq_some.mpr extended_zero
  have hscan : Window.scan rttOf (fun minrtt => minrtt.rat = some 0)
      (fun rtt minrtt => rtt - minrtt ≤ MAX_AVA_DIFF) 0 ((sorter.sort items).filter usable) = [] ↔
        (sorter.sort items).filter usable = [] := by
    apply Window.scan_eq_nil
    exact hzero
  rw [updateSortQosRedis_scan, filter_ip, List.map_eq_nil_iff, hscan,
    ← List.length_eq_zero_iff, ((sorter.perm items).filter usable).length_eq,
    List.length_eq_zero_iff]
  intro item h
  have hscanned := (Window.scan_sublist _ _).subset h
  exact hip item ((hmem item).mp (List.mem_filter.mp hscanned).1)

end Sorted

theorem getRandomVpnIp_mem (rng : Random) {ips : List Value} (h : ips ≠ []) :
    getRandomVpnIp rng ips ∈ ips := by
  have hpos : 0 < ips.length := List.length_pos_iff.mpr h
  have hlower := rng.lower ips.length hpos
  have hupper := rng.upper ips.length hpos
  have hindex : rng.random ips.length - 1 < ips.length := by
    omega
  have hget : getRandomVpnIp rng ips = ips[rng.random ips.length - 1] := by
    simp [getRandomVpnIp, hindex]
  rw [hget]
  exact List.getElem_mem hindex

/-- A reply is a random candidate, when there is one. -/
theorem answer_getVpnIpRedis_eq (keyless : Keyless) (self : Self) (sorter : TableSort) (rng : Random)
    (s : Store) :
    answer (getVpnIpRedis keyless self sorter rng) s =
      (answer (candidates keyless self sorter) s).map
        (fun ips => if ips = [] then none else some (getRandomVpnIp rng ips)) := by
  have hdone : ∀ ips : List Value,
      (if ips.length = 0 then (.done none : Handler (Option Value))
        else .done (some (getRandomVpnIp rng ips))) =
      .done (if ips = [] then none else some (getRandomVpnIp rng ips)) := by
    intro ips
    by_cases hnil : ips = [] <;> simp [hnil]
  exact congrArg Prod.fst (Command.run_bind_done (candidates keyless self sorter) hdone s)

theorem answer_getVpnIpRedis {keyless : Keyless} {self : Self} {sorter : TableSort}
    (rng : Random) {ips : List Value} {s : Store}
    (h : answer (candidates keyless self sorter) s = .ok ips) :
    answer (getVpnIpRedis keyless self sorter rng) s =
      .ok (if ips = [] then none else some (getRandomVpnIp rng ips)) := by
  rw [answer_getVpnIpRedis_eq, h]
  rfl

end Candidates

end GameAcc.Lua.VpnIp
