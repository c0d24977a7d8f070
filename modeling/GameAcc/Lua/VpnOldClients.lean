import GameAcc.Lua.VpnOptimal
import GameAcc.Writer.Loaded

/-!
The choice for clients that send no game, on their own times, and how it
compares with the choice from MySQL.
-/

namespace GameAcc.Lua.VpnIp

open GameAcc.Redis GameAcc.Mysql

/-- An entry with an address and two numbers. -/
structure Measured (v : Qos) : Prop where
  ip : ∃ ip, v.ip = .str ip ∧ ip ≠ ""
  lose : (v.lose.tonumber).isSome
  rtt : ∃ rtt, v.rtt.rat = some rtt ∧ 0 ≤ rtt ∧ rtt < 99999

/-- The time of a measured entry. -/
def Qos.ms (v : Qos) : ℚ := v.rtt.rat.getD 0

/-- The entry lost nothing, and its address is an active node's. -/
def Enabled (validvpn : List String) (v : Qos) : Bool :=
  decide (v.lose.rat = some 0) && validVpn validvpn v.ip

section Measured

variable {v : Qos}

theorem enabled_iff {validvpn : List String} :
    Enabled validvpn v = true ↔
      v.lose.rat = some 0 ∧ validVpn validvpn v.ip = true := by
  simp [Enabled]

theorem Measured.ms_eq (h : Measured v) : v.rtt.rat = some v.ms := by
  obtain ⟨rtt, hrtt, _⟩ := h.rtt
  simp [Qos.ms, hrtt]

theorem Measured.extended_eq (h : Measured v) : v.rtt.extended = some (.fin v.ms) :=
  Value.rat_eq_some.mp h.ms_eq

theorem Measured.ms_nonneg (h : Measured v) : 0 ≤ v.ms := by
  obtain ⟨rtt, hrtt, hnonneg, _⟩ := h.rtt
  simpa [Qos.ms, hrtt] using hnonneg

theorem Measured.ms_lt (h : Measured v) : v.ms < 99999 := by
  obtain ⟨rtt, hrtt, _, hlt⟩ := h.rtt
  simpa [Qos.ms, hrtt] using hlt

theorem Measured.present (h : Measured v) :
    v.rtt ≠ .nil ∧ v.lose ≠ .nil ∧ v.ip ≠ .nil := by
  refine ⟨?_, ?_, ?_⟩
  · intro hnil
    have hrtt := h.ms_eq
    rw [hnil] at hrtt
    cases hrtt
  · intro hnil
    have hlose := h.lose
    rw [hnil] at hlose
    cases hlose
  · intro hnil
    obtain ⟨ip, hip, _⟩ := h.ip
    cases hip.symm.trans hnil

end Measured

section Mysql

variable {validvpn : List String}

/-- The best entry of a list: none is enabled, or an enabled one with the least
time, by its place in the list. -/
inductive BestOf (validvpn : List String) (qoslst : List Qos) : Best → Prop
  | unset (h : ∀ v ∈ qoslst, Enabled validvpn v = false) :
      BestOf validvpn qoslst { id := 0, rttmin := .num 99999 }
  | set {k : Nat} {v : Qos} (hget : qoslst[k]? = some v) (henabled : Enabled validvpn v = true)
      (hleast : ∀ w ∈ qoslst, Enabled validvpn w = true → v.ms ≤ w.ms) :
      BestOf validvpn qoslst { id := k + 1, rttmin := v.rtt }

/-- An entry that does not beat the best one leaves it. -/
theorem BestOf.keep {before : List Qos} {best : Best} {v : Qos}
    (hbest : BestOf validvpn before best)
    (h : Enabled validvpn v = true →
      ∃ min, best.rttmin.rat = some min ∧ min ≤ v.ms ∧ best.id ≠ 0)
    (hbefore : ∀ w ∈ before, Measured w) : BestOf validvpn (before ++ [v]) best := by
  cases hbest with
  | unset hnone =>
    apply BestOf.unset
    intro w hw
    rcases List.mem_append.mp hw with hw | hw
    · exact hnone w hw
    · obtain rfl := List.mem_singleton.mp hw
      by_contra henabled
      obtain ⟨_, _, _, hid⟩ := h (by simpa using henabled)
      exact hid rfl
  | @set k u hget henabled hleast =>
    have hk : k < before.length := (List.getElem?_eq_some_iff.mp hget).1
    have hu : u ∈ before := List.mem_of_getElem? hget
    apply BestOf.set (by rw [List.getElem?_append_left hk]; exact hget) henabled
    intro w hw hwenabled
    rcases List.mem_append.mp hw with hw | hw
    · exact hleast w hw hwenabled
    · obtain rfl := List.mem_singleton.mp hw
      obtain ⟨min, hmin, hle, _⟩ := h hwenabled
      obtain rfl := Option.some.inj ((hbefore u hu).ms_eq.symm.trans hmin)
      exact hle

/-- An enabled entry that beats the best one replaces it. -/
theorem BestOf.replace {before : List Qos} {best : Best} {v : Qos} {min : ℚ}
    (hbest : BestOf validvpn before best) (henabled : Enabled validvpn v = true)
    (hmin : best.rttmin.rat = some min) (hlt : v.ms < min)
    (hbefore : ∀ w ∈ before, Measured w) :
    BestOf validvpn (before ++ [v]) { id := before.length + 1, rttmin := v.rtt } := by
  apply BestOf.set (by simp) henabled
  intro w hw hwenabled
  rcases List.mem_append.mp hw with hw | hw
  · cases hbest with
    | unset hnone =>
      rw [hnone w hw] at hwenabled
      cases hwenabled
    | @set k u hget _ hleast =>
      have hu : u ∈ before := List.mem_of_getElem? hget
      obtain rfl := Option.some.inj ((hbefore u hu).ms_eq.symm.trans hmin)
      exact hlt.le.trans (hleast w hw hwenabled)
  · rw [List.mem_singleton.mp hw]

/-- The least time so far, or the bound that every time is below. -/
theorem BestOf.min {qoslst : List Qos} {best : Best} (hbest : BestOf validvpn qoslst best)
    (hqoslst : ∀ w ∈ qoslst, Measured w) :
    ∃ min, best.rttmin.rat = some min ∧ (best.id = 0 → min = 99999) := by
  cases hbest with
  | unset _ => exact ⟨99999, AVA_INF_rat, fun _ => rfl⟩
  | @set k u hget _ _ =>
    have hu := (hqoslst u (List.mem_of_getElem? hget)).ms_eq
    exact ⟨u.ms, hu, fun h => absurd h k.succ_ne_zero⟩

theorem updateBest_spec {before : List Qos} {best : Best} {v : Qos}
    (hbest : BestOf validvpn before best) (hbefore : ∀ w ∈ before, Measured w)
    (hv : Measured v) :
    ∃ best', updateBest validvpn best (before.length + 1) v = .done best' ∧
      BestOf validvpn (before ++ [v]) best' := by
  obtain ⟨hrtt, hlose, hip⟩ := hv.present
  obtain ⟨min, hmin, hzero⟩ := hbest.min hbefore
  have hpresent : ¬(v.rtt = .nil ∨ v.lose = .nil ∨ v.ip = .nil) := by
    tauto
  cases hvalid : validVpn validvpn v.ip with
  | false =>
    refine ⟨best, by rw [updateBest, if_neg hpresent, if_pos hvalid], ?_⟩
    apply hbest.keep _ hbefore
    simp [Enabled, hvalid]
  | true =>
    have hstep : updateBest validvpn best (before.length + 1) v =
        if v.ms < min ∧ v.lose.rat = some 0 then
          .done { id := before.length + 1, rttmin := v.rtt }
        else .done best := by
      rw [updateBest, if_neg hpresent, hvalid, if_neg (by decide),
        less_of_extended hv.extended_eq (Value.rat_eq_some.mp hmin)]
      simp
    by_cases hbeats : v.ms < min ∧ v.lose.rat = some 0
    · have henabled : Enabled validvpn v = true := by
        exact enabled_iff.mpr ⟨hbeats.2, hvalid⟩
      exact ⟨_, by rw [hstep, if_pos hbeats],
        hbest.replace henabled hmin hbeats.1 hbefore⟩
    · refine ⟨best, by rw [hstep, if_neg hbeats], hbest.keep ?_ hbefore⟩
      intro henabled
      have hlost := (enabled_iff.mp henabled).1
      have hle : min ≤ v.ms := not_lt.mp (fun hlt => hbeats ⟨hlt, hlost⟩)
      refine ⟨min, hmin, hle, ?_⟩
      intro hid
      have hlt := hv.ms_lt
      rw [hzero hid] at hle
      exact absurd hle (not_le.mpr hlt)

theorem findBest_spec {before rest : List Qos} {best : Best}
    (hbest : BestOf validvpn before best) (hall : ∀ w ∈ before ++ rest, Measured w) :
    ∃ best', findBest validvpn best (before.length + 1) rest = .done best' ∧
      BestOf validvpn (before ++ rest) best' := by
  induction rest generalizing before best with
  | nil => exact ⟨best, rfl, by rwa [List.append_nil]⟩
  | cons v rest ih =>
    have hbefore : ∀ w ∈ before, Measured w :=
      fun w hw => hall w (List.mem_append_left _ hw)
    have hv : Measured v := hall v (by simp)
    obtain ⟨best', hstep, hbest'⟩ := updateBest_spec hbest hbefore hv
    have happend : before ++ [v] ++ rest = before ++ v :: rest := by simp
    obtain ⟨best'', hrest, hbest''⟩ := ih hbest' (by rwa [happend])
    refine ⟨best'', ?_, happend ▸ hbest''⟩
    have hlength : (before ++ [v]).length = before.length + 1 := by simp
    rw [hlength] at hrest
    rw [findBest, hstep]
    exact hrest

/-- The answer from MySQL: empty when no entry is enabled, and otherwise the
address of an enabled one with the least time. -/
theorem answer_getVpnIp {self : Self} {db : Option Database} (s : Store)
    (hqos : ∀ v ∈ self.qoslst, Measured v) :
    ((∀ v ∈ self.qoslst, Enabled (loadValidVpnIp db) v = false) ∧
        answer (getVpnIp self db) s = .ok (.str "")) ∨
      ∃ v ∈ self.qoslst, Enabled (loadValidVpnIp db) v = true ∧
        (∀ w ∈ self.qoslst, Enabled (loadValidVpnIp db) w = true → v.ms ≤ w.ms) ∧
        answer (getVpnIp self db) s = .ok v.ip := by
  have hstart : BestOf (loadValidVpnIp db) [] { id := 0, rttmin := .num 99999 } :=
    .unset (by simp)
  obtain ⟨best, hfind, hbest⟩ := findBest_spec hstart hqos
  rw [List.nil_append] at hbest
  simp only [List.length_nil, Nat.zero_add] at hfind
  cases hbest with
  | unset hnone =>
    refine .inl ⟨hnone, ?_⟩
    simp only [getVpnIp, hfind]
    rfl
  | @set k v hget henabled hleast =>
    have hv : v ∈ self.qoslst := List.mem_of_getElem? hget
    refine .inr ⟨v, hv, henabled, hleast, ?_⟩
    obtain ⟨rtt, hrtt, _⟩ := Value.tonumber_of_extended (hqos v hv).extended_eq
    simp [getVpnIp, hfind, hget, hrtt, less]

end Mysql

section Redis

variable (keyless : Keyless) {s : Store} {validvpn : List String} {qoslst : List Qos}

/-- The active nodes are the valid ones. -/
def SameIps (s : Store) (validvpn : List String) : Prop :=
  ∀ ip, (s.hash VPN_ACTIVE_IP_TO_ID_DIC ip).isSome ↔ ip ∈ validvpn

/-- The difference of two times is up to 5 ms, as the last step computes it. -/
def Near (v w : Qos) : Prop := Within (.fin v.ms) (.fin w.ms)

instance (v w : Qos) : Decidable (Near v w) := inferInstanceAs (Decidable (Within _ _))

/-- The enabled entries that the scan with its unset minimum 0 keeps. -/
def oldWindow (validvpn : List String) (qoslst : List Qos) (v : Qos) : Bool :=
  Enabled validvpn v && decide (v.ms = 0 ∨ ∀ w ∈ qoslst, Enabled validvpn w = true →
    0 < w.ms → Near v w)

/-- What becomes of an entry in the first step. -/
theorem Measured.activeItem {v : Qos} (hv : Measured v) (hkeys : SameIps s validvpn) :
    activeItem? keyless s v = none ∧ Enabled validvpn v = false ∨
      ∃ item, activeItem? keyless s v = some item ∧ item.ip = v.ip ∧
        usable item = Enabled validvpn v ∧ item.rtt.extended = some (.fin v.ms) := by
  obtain ⟨hrtt, hlose, hne⟩ := hv.present
  obtain ⟨ip, hip, _⟩ := hv.ip
  have hpresent : ¬(v.rtt = .nil ∨ v.lose = .nil) := by
    tauto
  have hkey := hkeys ip
  rw [activeItem?_of_ip hne, if_neg hpresent, hip]
  simp only [Value.tostring]
  cases hvpnid : s.hash VPN_ACTIVE_IP_TO_ID_DIC ip with
  | none =>
    have hinvalid : ip ∉ validvpn := by
      simpa [hvpnid] using hkey
    refine .inl ⟨rfl, ?_⟩
    simp [Enabled, hip, validVpn, hinvalid]
  | some vpnid =>
    have hvalid : ip ∈ validvpn := by
      simpa [hvpnid] using hkey
    obtain ⟨d, hd, _⟩ := Value.tonumber_of_extended hv.extended_eq
    refine .inr ⟨_, rfl, hip, ?_, hv.extended_eq⟩
    simp [usable, VpnIp.activeItem, Enabled, hip, validVpn, hvalid, hd]

variable {keyless} in
theorem old_items (hkeys : SameIps s validvpn) (hqos : ∀ v ∈ qoslst, Measured v)
    {item : FilterItem} (h : item ∈ activeItems keyless s qoslst) :
    ∃ v ∈ qoslst, activeItem? keyless s v = some item ∧ item.ip = v.ip ∧
      usable item = Enabled validvpn v ∧ item.rtt.extended = some (.fin v.ms) := by
  obtain ⟨v, hv, hactive⟩ := mem_activeItems h
  rcases (hqos v hv).activeItem keyless hkeys with ⟨hnone, _⟩ | ⟨item', hitem, hrest⟩
  · cases hnone.symm.trans hactive
  · obtain rfl := Option.some.inj (hitem.symm.trans hactive)
    exact ⟨v, hv, hactive, hrest⟩

theorem timeOf_of_extended {item : FilterItem} {x : Extended} (h : item.rtt.extended = some x) :
    timeOf item = x := by
  simp [timeOf, h]

theorem old_near (hkeys : SameIps s validvpn) (hqos : ∀ v ∈ qoslst, Measured v) {v : Qos}
    {item : FilterItem} (hitem : item.rtt.extended = some (.fin v.ms)) :
    Window.Near timeOf (.fin 0) Within ((activeItems keyless s qoslst).filter usable) item ↔
      ∀ w ∈ qoslst, Enabled validvpn w = true → 0 < w.ms → Near v w := by
  have htime := timeOf_of_extended hitem
  constructor
  · intro h w hw henabled hpos
    rcases (hqos w hw).activeItem keyless hkeys with
      ⟨_, hdisabled⟩ | ⟨item', hactive, _, husable, hitem'⟩
    · rw [hdisabled] at henabled
      cases henabled
    · have htime' := timeOf_of_extended hitem'
      have hmem : item' ∈ (activeItems keyless s qoslst).filter usable :=
        List.mem_filter.mpr ⟨List.mem_filterMap.mpr ⟨w, hw, hactive⟩, husable.trans henabled⟩
      have hbound := h item' hmem (htime' ▸ Extended.fin_lt_fin.mpr hpos)
      rwa [htime, htime'] at hbound
  · intro h b hb hpos
    obtain ⟨hmem, husable⟩ := List.mem_filter.mp hb
    obtain ⟨w, hw, _, _, henabled, hitem'⟩ := old_items hkeys hqos hmem
    rw [timeOf_of_extended hitem'] at hpos ⊢
    rw [htime]
    exact h w hw (henabled.symm.trans husable) (Extended.fin_lt_fin.mp hpos)

variable {keyless} in
theorem candidates_old {self : Self} (hold : self.gameid = none ∨ self.regionid = none)
    (sorter : TableSort) :
    candidates keyless self sorter = (do
      let filterqos ← filterActiveVpn keyless self.qoslst
      let sorted ← sortByRtt sorter filterqos
      .done (updateSortQosRedis 0 sorted)) := by
  obtain ⟨gameid, regionid, qoslst⟩ := self
  rcases hold with rfl | rfl
  · rfl
  · cases gameid <;> rfl

/-- The candidates of a client that sends no game. -/
theorem old_candidates {self : Self} (hold : self.gameid = none ∨ self.regionid = none)
    (hkeys : SameIps s validvpn) (hqos : ∀ v ∈ self.qoslst, Measured v)
    (sorter : TableSort) :
    ∃ ips, answer (candidates keyless self sorter) s = .ok ips ∧
      ips.Perm ((self.qoslst.filter (oldWindow validvpn self.qoslst)).map Qos.ip) := by
  have hordered : ∀ item ∈ activeItems keyless s self.qoslst, (item.rtt.extended).isSome := by
    intro item hitem
    obtain ⟨_, _, _, _, _, hrtt⟩ := old_items hkeys hqos hitem
    rw [hrtt]
    rfl
  have hanswer : answer (candidates keyless self sorter) s =
      .ok (updateSortQosRedis 0 (sorter.sort (activeItems keyless s self.qoslst))) := by
    rw [candidates_old hold, answer_filterActiveVpn,
      answer_sortByRtt (fun item hitem => numeric_of_extended (hordered item hitem))]
    rfl
  refine ⟨_, hanswer, ?_⟩
  have hips : (((activeItems keyless s self.qoslst).filter usable).filter (fun item =>
      decide (timeOf item = .fin 0 ∨ Window.Near timeOf (.fin 0) Within
        ((activeItems keyless s self.qoslst).filter usable) item))).map FilterItem.ip =
      (self.qoslst.filter (oldWindow validvpn self.qoslst)).map Qos.ip := by
    rw [List.filter_filter, activeItems]
    apply filterMap_filter_ip
    · intro v hv item hactive
      rcases (hqos v hv).activeItem keyless hkeys with
        ⟨hnone, _⟩ | ⟨item', hitem, hip, husable, hrtt⟩
      · cases hnone.symm.trans hactive
      · obtain rfl := Option.some.inj (hitem.symm.trans hactive)
        refine ⟨hip, ?_⟩
        have hnear := old_near keyless hkeys hqos hrtt
        rw [activeItems] at hnear
        simp only [hnear]
        rw [oldWindow, husable, timeOf_of_extended hrtt, Bool.and_comm]
        simp
    · intro v hv hnone
      rcases (hqos v hv).activeItem keyless hkeys with
        ⟨_, hdisabled⟩ | ⟨item', hitem, _⟩
      · simp [oldWindow, hdisabled]
      · cases hnone.symm.trans hitem
  rw [← hips]
  apply updateSortQosRedis_perm sorter _ hordered
  · intro item hitem _
    obtain ⟨v, hv, _, _, _, hrtt⟩ := old_items hkeys hqos hitem
    rw [timeOf_of_extended hrtt]
    exact Extended.fin_le_fin.mpr (hqos v hv).ms_nonneg
  · intro item hitem _ _ htop
    obtain ⟨v, hv, _, _, _, hrtt⟩ := old_items hkeys hqos hitem
    rw [timeOf_of_extended hrtt] at htop
    cases htop
  · intro item hitem
    obtain ⟨v, hv, _, hip, _⟩ := old_items hkeys hqos hitem
    rw [hip]
    exact (hqos v hv).present.2.2

theorem mem_old_candidates {ips : List Value}
    (hperm : ips.Perm ((qoslst.filter (oldWindow validvpn qoslst)).map Qos.ip))
    {ip : Value} :
    ip ∈ ips ↔ ∃ v ∈ qoslst, v.ip = ip ∧ Enabled validvpn v = true ∧
      (v.ms = 0 ∨ ∀ w ∈ qoslst, Enabled validvpn w = true → 0 < w.ms → Near v w) := by
  rw [hperm.mem_iff, List.mem_map]
  constructor
  · rintro ⟨v, hv, rfl⟩
    obtain ⟨hmem, hwindow⟩ := List.mem_filter.mp hv
    obtain ⟨henabled, hnear⟩ := Bool.and_eq_true_iff.mp hwindow
    exact ⟨v, hmem, rfl, henabled, of_decide_eq_true hnear⟩
  · rintro ⟨v, hmem, rfl, henabled, hnear⟩
    refine ⟨v, List.mem_filter.mpr ⟨hmem, ?_⟩, rfl⟩
    exact Bool.and_eq_true_iff.mpr ⟨henabled, decide_eq_true hnear⟩

end Redis

/-- Both paths find a node or neither does; the node from MySQL is an enabled
one with the least time and a candidate; and every address the Redis path can
answer has an entry without loss within 5 ms of it. -/
def Agree (keyless : Keyless) (s : Store) (db : Option Database) (self : Self)
    (sorter : TableSort) : Prop :=
  ∃ serverip ips,
    answer (getVpnIp self db) s = .ok serverip ∧
    answer (candidates keyless self sorter) s = .ok ips ∧
    (serverip = .str "" ↔
      ∀ rng, answer (getVpnIpRedis keyless self sorter rng) s = .ok none) ∧
    (serverip ≠ .str "" →
      ∃ best ∈ self.qoslst, best.ip = serverip ∧
        Enabled (loadValidVpnIp db) best = true ∧
        (∀ w ∈ self.qoslst, Enabled (loadValidVpnIp db) w = true → best.ms ≤ w.ms) ∧
        serverip ∈ ips ∧
        ∀ rng ip, answer (getVpnIpRedis keyless self sorter rng) s = .ok (some ip) →
          ∃ w ∈ self.qoslst, w.ip = ip ∧ w.lose.rat = some 0 ∧ w.ms ≤ best.ms + 5)

/-- An enabled entry that exceeds the least time by more than 5 ms either has the
address of an entry that does not, or exceeds some positive time by more than
5 ms as the last step computes it. Where the least time is positive that fails
only for a difference that is rounded down to 5. -/
def NoGap (validvpn : List String) (qoslst : List Qos) : Prop :=
  ∀ best ∈ qoslst, Enabled validvpn best = true →
    (∀ w ∈ qoslst, Enabled validvpn w = true → best.ms ≤ w.ms) →
    ∀ v ∈ qoslst, Enabled validvpn v = true → best.ms + 5 < v.ms →
      (∃ w ∈ qoslst, w.ip = v.ip ∧ w.lose.rat = some 0 ∧ w.ms ≤ best.ms + 5) ∨
      ∃ w ∈ qoslst, Enabled validvpn w = true ∧ 0 < w.ms ∧ ¬Near v w

section Agreement

variable {keyless : Keyless} {s : Store} {db : Option Database} {self : Self}
  {sorter : TableSort}

/-- Every candidate can be the answer. -/
theorem exists_random {ips : List Value} (h : answer (candidates keyless self sorter) s = .ok ips)
    {ip : Value} (hip : ip ∈ ips) :
    ∃ rng, answer (getVpnIpRedis keyless self sorter rng) s = .ok (some ip) := by
  obtain ⟨i, hi, rfl⟩ := List.getElem_of_mem hip
  let rng : Random :=
    { random := fun n => min (i + 1) n
      lower := by
        intro n hn
        omega
      upper := by
        intro n _
        omega }
  refine ⟨rng, ?_⟩
  have hne : ips ≠ [] := List.ne_nil_of_mem hip
  have hindex : rng.random ips.length - 1 = i := by
    show min (i + 1) ips.length - 1 = i
    omega
  rw [answer_getVpnIpRedis rng h, if_neg hne, getRandomVpnIp, hindex]
  simp [hi]

theorem answer_of_candidates {ips : List Value}
    (h : answer (candidates keyless self sorter) s = .ok ips) {rng : Random} {ip : Value}
    (hanswer : answer (getVpnIpRedis keyless self sorter rng) s = .ok (some ip)) : ip ∈ ips := by
  rw [answer_getVpnIpRedis rng h] at hanswer
  by_cases hnil : ips = []
  · rw [if_pos hnil] at hanswer
    cases hanswer
  · rw [if_neg hnil] at hanswer
    obtain rfl := Option.some.inj (Except.ok.inj hanswer)
    exact getRandomVpnIp_mem rng hnil

theorem nil_answer {ips : List Value} (h : answer (candidates keyless self sorter) s = .ok ips) :
    (∀ rng, answer (getVpnIpRedis keyless self sorter rng) s = .ok none) ↔ ips = [] := by
  constructor
  · intro hnone
    by_contra hne
    obtain ⟨ip, hip⟩ := List.exists_mem_of_ne_nil ips hne
    obtain ⟨rng, hanswer⟩ := exists_random h hip
    cases (hnone rng).symm.trans hanswer
  · rintro rfl rng
    rw [answer_getVpnIpRedis rng h, if_pos rfl]

/-- An enabled entry with the least time is a candidate. -/
theorem least_mem {validvpn : List String} {ips : List Value}
    (hperm : ips.Perm ((self.qoslst.filter (oldWindow validvpn self.qoslst)).map Qos.ip))
    {v : Qos} (hv : v ∈ self.qoslst) (henabled : Enabled validvpn v = true)
    (hleast : ∀ w ∈ self.qoslst, Enabled validvpn w = true → v.ms ≤ w.ms) :
    v.ip ∈ ips := by
  apply (mem_old_candidates hperm).mpr
  refine ⟨v, hv, rfl, henabled, .inr ?_⟩
  intro w hw hwenabled _
  have hself : Double.Near 5 (.fin v.ms) (.fin v.ms) := Double.near_self (by norm_num) v.ms
  exact hself.mono le_rfl (Extended.fin_le_fin.mpr (hleast w hw hwenabled))

/-- Only the bound on the candidates is open. -/
theorem agree_iff_bounded (hqos : ∀ v ∈ self.qoslst, Measured v) {ips : List Value}
    (hips : answer (candidates keyless self sorter) s = .ok ips)
    (hperm : ips.Perm
      ((self.qoslst.filter (oldWindow (loadValidVpnIp db) self.qoslst)).map Qos.ip)) :
    Agree keyless s db self sorter ↔
      ∀ best ∈ self.qoslst, Enabled (loadValidVpnIp db) best = true →
        (∀ w ∈ self.qoslst, Enabled (loadValidVpnIp db) w = true → best.ms ≤ w.ms) →
        ∀ ip ∈ ips, ∃ w ∈ self.qoslst, w.ip = ip ∧ w.lose.rat = some 0 ∧
          w.ms ≤ best.ms + 5 := by
  constructor
  · rintro ⟨serverip, ips', _, hips', hnil, hbest⟩ best hmem henabled _ ip hip
    obtain rfl := Except.ok.inj (hips.symm.trans hips')
    have hserverip : serverip ≠ .str "" := by
      intro h
      have hempty := (nil_answer hips).mp (hnil.mp h)
      rw [hempty] at hip
      cases hip
    obtain ⟨best', _, _, _, hleast', _, hbound⟩ := hbest hserverip
    obtain ⟨rng, hanswer⟩ := exists_random hips hip
    obtain ⟨w, hw, hwip, hlose, hle⟩ := hbound rng ip hanswer
    have hbest' := hleast' best hmem henabled
    exact ⟨w, hw, hwip, hlose, by linarith⟩
  · intro hbound
    rcases answer_getVpnIp s hqos with ⟨hnone, hanswer⟩ | ⟨v, hv, henabled, hleast, hanswer⟩
    · refine ⟨_, ips, hanswer, hips, ?_, fun h => absurd rfl h⟩
      rw [nil_answer hips]
      refine iff_of_true rfl ?_
      apply List.eq_nil_iff_forall_not_mem.mpr
      intro ip hip
      obtain ⟨w, hw, _, hwenabled, _⟩ := (mem_old_candidates hperm).mp hip
      rw [hnone w hw] at hwenabled
      cases hwenabled
    · have hin := least_mem hperm hv henabled hleast
      obtain ⟨text, htext, hne⟩ := (hqos v hv).ip
      have hserverip : v.ip ≠ .str "" := by
        rw [htext]
        exact fun h => hne (Value.str.inj h)
      refine ⟨_, ips, hanswer, hips, ?_, ?_⟩
      · rw [nil_answer hips]
        exact iff_of_false hserverip (List.ne_nil_of_mem hin)
      · intro _
        refine ⟨v, hv, rfl, henabled, hleast, hin, ?_⟩
        intro rng ip hreply
        exact hbound v hv henabled hleast ip (answer_of_candidates hips hreply)

end Agreement

/-- For clients that send no game the two paths agree exactly when no entry lies
in a gap behind the least time. -/
theorem old_clients_agree_iff (keyless : Keyless) (s : Store) (db : Option Database)
    (self : Self) (sorter : TableSort) (hold : self.gameid = none ∨ self.regionid = none)
    (hqos : ∀ v ∈ self.qoslst, Measured v) (hkeys : SameIps s (loadValidVpnIp db)) :
    Agree keyless s db self sorter ↔ NoGap (loadValidVpnIp db) self.qoslst := by
  obtain ⟨ips, hips, hperm⟩ := old_candidates keyless hold hkeys hqos sorter
  rw [agree_iff_bounded hqos hips hperm]
  constructor
  · intro hbound best hbest hbenabled hleast v hv henabled _
    by_cases hnear : ∀ w ∈ self.qoslst, Enabled (loadValidVpnIp db) w = true →
        0 < w.ms → Near v w
    · have hin : v.ip ∈ ips :=
        (mem_old_candidates hperm).mpr ⟨v, hv, rfl, henabled, .inr hnear⟩
      exact .inl (hbound best hbest hbenabled hleast v.ip hin)
    · push Not at hnear
      obtain ⟨w, hw, hwenabled, hpos, hfar⟩ := hnear
      exact .inr ⟨w, hw, hwenabled, hpos, hfar⟩
  · intro hgap best hbest henabled hleast ip hip
    obtain ⟨v, hv, rfl, hvenabled, hwindow⟩ := (mem_old_candidates hperm).mp hip
    by_cases hclose : v.ms ≤ best.ms + 5
    · exact ⟨v, hv, rfl, (enabled_iff.mp hvenabled).1, hclose⟩
    have hfar := not_le.mp hclose
    have hnear : ∀ w ∈ self.qoslst, Enabled (loadValidVpnIp db) w = true →
        0 < w.ms → Near v w := by
      have hnonneg := (hqos best hbest).ms_nonneg
      rcases hwindow with hzero | hnear
      · linarith
      · exact hnear
    rcases hgap best hbest henabled hleast v hv hvenabled hfar with hcase | hcase
    · exact hcase
    · obtain ⟨w, hw, hwenabled, hpos, hexceeds⟩ := hcase
      exact absurd (hnear w hw hwenabled hpos) hexceeds

/-- What the loader stores and what the query returns are the same addresses. -/
theorem sameIps_load (db : Database) :
    SameIps (Writer.load db) (loadValidVpnIp (some db)) := by
  intro ip
  rw [Writer.load_vpnIp, loadValidVpnIp, List.mem_map]
  constructor
  · rintro ⟨vpnid, hmem⟩
    exact ⟨(ip, vpnid), hmem, rfl⟩
  · rintro ⟨⟨_, vpnid⟩, hmem, rfl⟩
    exact ⟨vpnid, hmem⟩

section TwoNodes

/-- Two enabled nodes. -/
def twoNodes : Database where
  vpnNodeTbl := [{ nodeid := 1, enabled := 1 }, { nodeid := 2, enabled := 1 }]
  vpnNodeIpTbl := [{ vpnip := "10.0.0.1", nodeid := 1 }, { vpnip := "10.0.0.2", nodeid := 2 }]
  gameNameTbl := []
  gameRegionTbl := []
  gameServerTbl := []
  gameSpecUserVpnTbl := []

/-- The two nodes, the first one measured with the given time. -/
def twoQos (time : Double) : List Qos :=
  [⟨.str "10.0.0.1", .num 0, .num time⟩, ⟨.str "10.0.0.2", .num 0, .num 500⟩]

theorem mem_twoQos {time : Double} {v : Qos} (h : v ∈ twoQos time) :
    v = ⟨.str "10.0.0.1", .num 0, .num time⟩ ∨ v = ⟨.str "10.0.0.2", .num 0, .num 500⟩ := by
  simpa only [twoQos, List.mem_cons, List.not_mem_nil, or_false] using h

theorem twoQos_measured {time : Double} {q : ℚ} (htime : time.rat = some q) (hnonneg : 0 ≤ q)
    (hlt : q < 99999) : ∀ v ∈ twoQos time, Measured v := by
  intro v hv
  have hfar : (500 : Double).rat = some 500 := by
    exact_mod_cast Double.rat_ofInt (n := 500) (by decide)
  rcases mem_twoQos hv with rfl | rfl
  · exact ⟨⟨_, rfl, by decide⟩, rfl, q, htime, hnonneg, hlt⟩
  · exact ⟨⟨_, rfl, by decide⟩, rfl, 500, hfar, by norm_num, by norm_num⟩

theorem twoQos_enabled {time : Double} :
    ∀ v ∈ twoQos time, Enabled (loadValidVpnIp (some twoNodes)) v = true := by
  intro v hv
  have hvalid : ∀ ip ∈ ["10.0.0.1", "10.0.0.2"],
      validVpn (loadValidVpnIp (some twoNodes)) (.str ip) = true := by
    decide
  have hlose : (Value.num 0).rat = some 0 := Double.rat_eq_some.mpr extended_zero
  rcases mem_twoQos hv with rfl | rfl
  · exact enabled_iff.mpr ⟨hlose, hvalid _ List.mem_cons_self⟩
  · exact enabled_iff.mpr ⟨hlose, hvalid _ (List.mem_cons_of_mem _ List.mem_cons_self)⟩

/-- Without a time 0 the two paths agree. -/
theorem old_clients_agree_iff_forty :
    Agree .refusal (Writer.load twoNodes) (some twoNodes) ⟨none, none, twoQos 40⟩
      (Window.Sorter.stable _) := by
  have hforty : (40 : Double).rat = some 40 := by
    exact_mod_cast Double.rat_ofInt (n := 40) (by decide)
  apply (old_clients_agree_iff .refusal _ (some twoNodes) ⟨none, none, twoQos 40⟩ _ (.inl rfl)
    (twoQos_measured hforty (by norm_num) (by norm_num)) (sameIps_load twoNodes)).mpr
  intro best hbest _ _ v hv _ hfar
  rcases mem_twoQos hv with rfl | rfl
  · rcases mem_twoQos hbest with rfl | rfl <;> exact absurd hfar (by decide +kernel)
  · refine .inr ⟨_, List.mem_cons_self, twoQos_enabled _ List.mem_cons_self, ?_, ?_⟩ <;>
      decide +kernel

/-- A node at 0 ms and one at 500 ms: the Redis path can answer the second one. -/
theorem zero_time_disagrees :
    (∀ v ∈ twoQos 0, Measured v) ∧
      SameIps (Writer.load twoNodes) (loadValidVpnIp (some twoNodes)) ∧
      ¬Agree .refusal (Writer.load twoNodes) (some twoNodes) ⟨none, none, twoQos 0⟩
        (Window.Sorter.stable _) := by
  have hzero : (0 : Double).rat = some 0 := Double.rat_eq_some.mpr extended_zero
  have hqos : ∀ v ∈ twoQos 0, Measured v := twoQos_measured hzero le_rfl (by norm_num)
  have hkeys := sameIps_load twoNodes
  refine ⟨hqos, hkeys, ?_⟩
  have hold : (⟨none, none, twoQos 0⟩ : Self).gameid = none ∨
      (⟨none, none, twoQos 0⟩ : Self).regionid = none := .inl rfl
  obtain ⟨ips, hips, hperm⟩ :=
    old_candidates .refusal hold hkeys hqos (Window.Sorter.stable _)
  rw [agree_iff_bounded hqos hips hperm]
  intro hbound
  let near : Qos := ⟨.str "10.0.0.1", .num 0, .num 0⟩
  let far : Qos := ⟨.str "10.0.0.2", .num 0, .num 500⟩
  have hnear : near ∈ twoQos 0 := List.mem_cons_self
  have hfar : far ∈ twoQos 0 := List.mem_cons_of_mem _ List.mem_cons_self
  have hin : far.ip ∈ ips := by
    apply (mem_old_candidates hperm).mpr
    refine ⟨far, hfar, rfl, twoQos_enabled far hfar, .inr ?_⟩
    intro w hw _ hpos
    rcases mem_twoQos hw with rfl | rfl
    · exact absurd hpos (by decide +kernel)
    · exact Double.near_self (by norm_num) _
  have hleast : ∀ w ∈ twoQos 0, Enabled (loadValidVpnIp (some twoNodes)) w = true →
      near.ms ≤ w.ms := by
    intro w hw _
    have hms : near.ms = 0 := by
      decide +kernel
    rw [hms]
    exact (hqos w hw).ms_nonneg
  obtain ⟨w, hw, hip, _, hle⟩ :=
    hbound near hnear (twoQos_enabled near hnear) hleast far.ip hin
  rcases mem_twoQos hw with rfl | rfl
  · exact absurd hip (by decide)
  · exact absurd hle (by decide +kernel)

end TwoNodes

end GameAcc.Lua.VpnIp
