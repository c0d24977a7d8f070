import GameAcc.Lua.VpnSelection

/-!
The choice for clients that send a game and a region: a random node within 5 ms
of the least total of round trip time and stored average. Totals and their
differences are doubles, rounded each time.
-/

namespace GameAcc.Lua.VpnIp

open GameAcc.Redis GameAcc.Mysql

section Total

variable (s : Store) (gameid regionid : Double)

/-- The total of an eligible entry: it has its members, its address is an
active node's, it lost nothing, its time is a number, and its node has an
average that is neither 0 nor 99999. -/
def eligibleTotal (v : Qos) : Option Double :=
  if v.rtt = .nil ∨ v.lose = .nil ∨ v.ip = .nil ∨ v.lose.rat ≠ some 0 then none
  else do
    let vpnid ← s.hash VPN_ACTIVE_IP_TO_ID_DIC v.ip.tostring
    let rtt ← v.rtt.tonumber
    let ava ← average s gameid regionid vpnid
    if Sentinel ava then none else some (rtt + ava)

/-- The entry is eligible, and no eligible total is smaller by more than 5. -/
def inWindow (qoslst : List Qos) (v : Qos) : Bool :=
  match eligibleTotal s gameid regionid v with
  | none => false
  | some total => decide (∀ w ∈ qoslst, ∀ least ∈ eligibleTotal s gameid regionid w,
      total - least ≤ MAX_AVA_DIFF)

/-- The total of an item that the second step keeps valid. -/
def itemTotal (item : FilterItem) : Option Double :=
  match item.vpnid with
  | .str vpnid => do
    let rtt ← item.rtt.tonumber
    let ava ← average s gameid regionid vpnid
    if Sentinel ava then none else some (rtt + ava)
  | _ => none

def totalled (item : FilterItem) : FilterItem :=
  match itemTotal s gameid regionid item with
  | some total => { item with rtt := .num total }
  | none => unmeasured item

/-- Every active node has an average, a natural number. -/
def Averaged : Prop :=
  ∀ ip vpnid, s.hash VPN_ACTIVE_IP_TO_ID_DIC ip = some vpnid →
    ∃ n : Nat, ∃ ava, average s gameid regionid vpnid = some ava ∧
      ava.extended = some (Rounding.round n)

variable {s gameid regionid}

theorem answer_updateItem {item : FilterItem} {vpnid : String} {ava : Double}
    (hvpnid : item.vpnid = .str vpnid) (hava : average s gameid regionid vpnid = some ava) :
    answer (updateItem gameid regionid item) s =
      .ok (totalled s gameid regionid item) := by
  rw [answer_updateItem_average hvpnid hava]
  by_cases hinvalid : Sentinel ava
  · have htotal : itemTotal s gameid regionid item = none := by
      cases hrtt : item.rtt.tonumber <;> simp [itemTotal, hvpnid, hava, hrtt, hinvalid]
    simp only [totalled, htotal, if_pos hinvalid]
  · rw [if_neg hinvalid]
    cases hrtt : item.rtt.tonumber <;> simp [totalled, itemTotal, hvpnid, hava, hrtt, hinvalid]

@[simp] theorem totalled_ip (item : FilterItem) :
    (totalled s gameid regionid item).ip = item.ip := by
  unfold totalled
  split <;> rfl

/-- What the second step makes of an item, as the last step sees it. -/
theorem usable_totalled {item : FilterItem} (hvalid : item.valid = 1) :
    usable (totalled s gameid regionid item) = true ↔
      item.loss.rat = some 0 ∧ (itemTotal s gameid regionid item).isSome := by
  unfold totalled
  cases htotal : itemTotal s gameid regionid item with
  | none => simp [usable, unmeasured]
  | some total => simp [usable, hvalid]

theorem rtt_totalled {item : FilterItem} {total : Double}
    (htotal : itemTotal s gameid regionid item = some total) :
    (totalled s gameid regionid item).rtt = .num total := by
  simp [totalled, htotal]

theorem numeric_totalled (item : FilterItem) :
    ((totalled s gameid regionid item).rtt.tonumber).isSome := by
  unfold totalled
  split <;> rfl

variable (keyless : Keyless)

/-- The items that the last step considers stand for the eligible entries. -/
theorem eligibleTotal_eq {v : Qos} (hip : v.ip ≠ .nil) :
    eligibleTotal s gameid regionid v =
      (activeItem? keyless s v).bind (fun item =>
        if item.loss.rat = some 0 then itemTotal s gameid regionid item else none) := by
  rw [activeItem?_of_ip hip]
  unfold eligibleTotal
  by_cases hmissing : v.rtt = .nil ∨ v.lose = .nil
  · rw [if_pos hmissing, if_pos (by tauto)]
    rfl
  · rw [if_neg hmissing]
    by_cases hlose : v.lose.rat = some 0
    · rw [if_neg (by tauto)]
      cases hvpnid : s.hash VPN_ACTIVE_IP_TO_ID_DIC v.ip.tostring with
      | none => rfl
      | some vpnid => simp [activeItem, itemTotal, hlose]
    · rw [if_pos (by tauto)]
      cases hvpnid : s.hash VPN_ACTIVE_IP_TO_ID_DIC v.ip.tostring with
      | none => rfl
      | some vpnid => simp [activeItem, hlose]

end Total

section Choice

variable {keyless : Keyless} {s : Store} {gameid regionid : Double}

/-- Dropping and rewriting entries, seen from the ones that stay. -/
theorem filterMap_filter_ip {F : Qos → Option FilterItem} {p : FilterItem → Bool}
    {q : Qos → Bool} {qoslst : List Qos}
    (hsome : ∀ v ∈ qoslst, ∀ item ∈ F v, item.ip = v.ip ∧ p item = q v)
    (hnone : ∀ v ∈ qoslst, F v = none → q v = false) :
    ((qoslst.filterMap F).filter p).map FilterItem.ip = (qoslst.filter q).map Qos.ip := by
  induction qoslst with
  | nil => rfl
  | cons v rest ih =>
    have hrest := ih (fun w hw => hsome w (List.mem_cons_of_mem v hw))
      (fun w hw => hnone w (List.mem_cons_of_mem v hw))
    cases hF : F v with
    | none =>
      have hq := hnone v List.mem_cons_self hF
      simp [List.filterMap_cons_none hF, hq, hrest]
    | some item =>
      obtain ⟨hip, hp⟩ := hsome v List.mem_cons_self item hF
      cases hq : q v with
      | false => simp [List.filterMap_cons_some hF, hp, hq, hrest]
      | true => simp [List.filterMap_cons_some hF, hp, hq, hrest, hip]

/-- The items of the second step. -/
def totalledItems (keyless : Keyless) (s : Store) (gameid regionid : Double)
    (qoslst : List Qos) : List FilterItem :=
  (activeItems keyless s qoslst).map (totalled s gameid regionid)

theorem totalledItems_eq (qoslst : List Qos) :
    totalledItems keyless s gameid regionid qoslst =
      qoslst.filterMap (fun v => (activeItem? keyless s v).map (totalled s gameid regionid)) :=
  List.map_filterMap

theorem mem_totalledItems {qoslst : List Qos} {item : FilterItem} :
    item ∈ totalledItems keyless s gameid regionid qoslst ↔
      ∃ v ∈ qoslst, ∃ item', activeItem? keyless s v = some item' ∧
        totalled s gameid regionid item' = item := by
  rw [totalledItems_eq, List.mem_filterMap]
  simp only [Option.map_eq_some_iff]

theorem activeItem?_valid {v : Qos} {item : FilterItem}
    (h : activeItem? keyless s v = some item) : item.valid = 1 ∧ item.ip = v.ip := by
  obtain ⟨_, _, _, _, heq⟩ := activeItem?_eq_some h
  rw [heq]
  exact ⟨rfl, rfl⟩

theorem totalledItems_ip {qoslst : List Qos} (hip : ∀ v ∈ qoslst, v.ip ≠ .nil) :
    ∀ item ∈ totalledItems keyless s gameid regionid qoslst, item.ip ≠ .nil := by
  intro item hitem
  obtain ⟨v, hv, item', hactive, rfl⟩ := mem_totalledItems.mp hitem
  rw [totalled_ip, (activeItem?_valid hactive).2]
  exact hip v hv

/-- A usable item of the second step is an eligible entry with its total. -/
theorem usable_item {v : Qos} (hip : v.ip ≠ .nil) {item : FilterItem}
    (h : activeItem? keyless s v = some item) :
    (usable (totalled s gameid regionid item) = true ↔
        (eligibleTotal s gameid regionid v).isSome) ∧
      ∀ total, eligibleTotal s gameid regionid v = some total →
        itemTotal s gameid regionid item = some total := by
  have htotal : eligibleTotal s gameid regionid v =
      if item.loss.rat = some 0 then itemTotal s gameid regionid item else none := by
    rw [eligibleTotal_eq keyless hip, h]
    rfl
  rw [htotal, usable_totalled (activeItem?_valid h).1]
  by_cases hloss : item.loss.rat = some 0
  · simp [hloss]
  · simp [hloss]

theorem mem_usable_totalled {qoslst : List Qos} (hip : ∀ v ∈ qoslst, v.ip ≠ .nil)
    {item : FilterItem} :
    item ∈ (totalledItems keyless s gameid regionid qoslst).filter usable ↔
      ∃ v ∈ qoslst, ∃ item', activeItem? keyless s v = some item' ∧
        item = totalled s gameid regionid item' ∧
          (eligibleTotal s gameid regionid v).isSome := by
  rw [List.mem_filter, mem_totalledItems]
  constructor
  · rintro ⟨⟨v, hv, item', hactive, rfl⟩, husable⟩
    exact ⟨v, hv, item', hactive, rfl, (usable_item (hip v hv) hactive).1.mp husable⟩
  · rintro ⟨v, hv, item', hactive, rfl, hsome⟩
    exact ⟨⟨v, hv, item', hactive, rfl⟩, (usable_item (hip v hv) hactive).1.mpr hsome⟩

section Window

variable {qoslst : List Qos} (hip : ∀ v ∈ qoslst, v.ip ≠ .nil)
  (hrtt : ∀ v ∈ qoslst, ∀ rtt ∈ v.rtt.tonumber, 0 ≤ rtt)
  (haveraged : Averaged s gameid regionid)

/-- An average is at least 1, so a total is. -/
theorem one_le_total {vpnid : String} (hactive : ∃ n : Nat, ∃ ava,
      average s gameid regionid vpnid = some ava ∧ ava.extended = some (Rounding.round n))
    {rtt ava : Double} (hnonneg : 0 ≤ rtt) (hava : average s gameid regionid vpnid = some ava)
    (hvalid : ¬Sentinel ava) : ∃ x, (rtt + ava).extended = some x ∧ .fin 1 ≤ x := by
  obtain ⟨n, ava', hava', hvalue⟩ := hactive
  obtain rfl := Option.some.inj (hava.symm.trans hava')
  obtain ⟨z, hz, y, hy, hle⟩ := hnonneg
  obtain rfl : Extended.fin 0 = z := Option.some.inj (extended_zero.symm.trans hz)
  have hpos : 1 ≤ n := by
    by_contra hzero
    obtain rfl : n = 0 := by omega
    apply hvalid
    refine .inl (Double.rat_eq_some.mpr ?_)
    rw [hvalue, Nat.cast_zero, Double.round_zero]
  have hone : Extended.fin 1 ≤ Rounding.round n := by
    have hround := Rounding.round_intCast (n := 1) (by decide)
    rw [Int.cast_one] at hround
    rw [← hround]
    exact Rounding.round_mono (by exact_mod_cast hpos)
  obtain ⟨x, hx, hle'⟩ := Double.one_le_addExtended hle hone
  refine ⟨x, ?_, hle'⟩
  rw [Double.extended_add, Option.mem_def.mp hy, hvalue]
  exact hx

include hip hrtt haveraged

theorem itemTotal_ordered {v : Qos} (hv : v ∈ qoslst) {item : FilterItem}
    (hactive : activeItem? keyless s v = some item) {total : Double}
    (htotal : itemTotal s gameid regionid item = some total) :
    ∃ x, total.extended = some x ∧ .fin 1 ≤ x := by
  obtain ⟨vpnid, hvpnid, rfl⟩ := activeItem?_vpnid (hip v hv) hactive
  obtain ⟨rtt, hread, htotal⟩ := Option.bind_eq_some_iff.mp htotal
  obtain ⟨ava, hava, htotal⟩ := Option.bind_eq_some_iff.mp htotal
  split at htotal
  · cases htotal
  · next hvalid =>
    obtain rfl := Option.some.inj htotal
    exact one_le_total (haveraged _ vpnid hvpnid) (hrtt v hv rtt hread) hava hvalid

variable (keyless) in
/-- Every item of the second step has a place in the order. -/
theorem totalledItems_ordered :
    ∀ item ∈ totalledItems keyless s gameid regionid qoslst, (item.rtt.extended).isSome := by
  intro item hitem
  obtain ⟨v, hv, item', hactive, rfl⟩ := mem_totalledItems.mp hitem
  unfold totalled
  cases htotal : itemTotal s gameid regionid item' with
  | none =>
    have hinf := Double.rat_eq_some.mp AVA_INF_rat
    simp [unmeasured, hinf]
  | some total =>
    obtain ⟨x, hx, _⟩ := itemTotal_ordered hip hrtt haveraged hv hactive htotal
    simp [hx]

/-- The time of a usable item is the eligible total of an entry. -/
theorem timeOf_usable {item : FilterItem}
    (h : item ∈ (totalledItems keyless s gameid regionid qoslst).filter usable) :
    ∃ v ∈ qoslst, ∃ total, eligibleTotal s gameid regionid v = some total ∧
      total.extended = some (timeOf item) ∧ .fin 1 ≤ timeOf item ∧ item.ip = v.ip := by
  obtain ⟨v, hv, item', hactive, rfl, hsome⟩ := (mem_usable_totalled hip).mp h
  obtain ⟨total, htotal⟩ := Option.isSome_iff_exists.mp hsome
  have hitem := (usable_item (hip v hv) hactive).2 total htotal
  obtain ⟨x, hx, hle⟩ := itemTotal_ordered hip hrtt haveraged hv hactive hitem
  have htime : timeOf (totalled s gameid regionid item') = x := by
    simp [timeOf, rtt_totalled hitem, hx]
  rw [htime, totalled_ip, (activeItem?_valid hactive).2]
  exact ⟨v, hv, total, htotal, hx, hle, rfl⟩

variable (keyless) in
/-- Every eligible entry has such an item. -/
theorem exists_usable {v : Qos} (hv : v ∈ qoslst) {total : Double}
    (htotal : eligibleTotal s gameid regionid v = some total) :
    ∃ item ∈ (totalledItems keyless s gameid regionid qoslst).filter usable,
      total.extended = some (timeOf item) ∧ .fin 1 ≤ timeOf item := by
  have hsome : (eligibleTotal s gameid regionid v).isSome := by
    rw [htotal]
    rfl
  obtain ⟨item', hactive⟩ : ∃ item', activeItem? keyless s v = some item' := by
    rw [eligibleTotal_eq keyless (hip v hv)] at hsome
    cases hactive : activeItem? keyless s v with
    | none => simp [hactive] at hsome
    | some item' => exact ⟨item', rfl⟩
  have hitem := (usable_item (hip v hv) hactive).2 total htotal
  obtain ⟨x, hx, hle⟩ := itemTotal_ordered hip hrtt haveraged hv hactive hitem
  have htime : timeOf (totalled s gameid regionid item') = x := by
    simp [timeOf, rtt_totalled hitem, hx]
  refine ⟨_, (mem_usable_totalled hip).mpr ⟨v, hv, item', hactive, rfl, hsome⟩, ?_⟩
  rw [htime]
  exact ⟨hx, hle⟩

theorem window_iff {v : Qos} (hv : v ∈ qoslst) {item : FilterItem}
    (hactive : activeItem? keyless s v = some item) {total : Double}
    (htotal : eligibleTotal s gameid regionid v = some total) :
    (timeOf (totalled s gameid regionid item) = .fin 0 ∨
        Window.Near timeOf (.fin 0) Within
          ((totalledItems keyless s gameid regionid qoslst).filter usable)
          (totalled s gameid regionid item)) ↔
      ∀ w ∈ qoslst, ∀ least ∈ eligibleTotal s gameid regionid w,
        total - least ≤ MAX_AVA_DIFF := by
  have hitem := (usable_item (hip v hv) hactive).2 total htotal
  obtain ⟨x, hx, hle⟩ := itemTotal_ordered hip hrtt haveraged hv hactive hitem
  have htime : timeOf (totalled s gameid regionid item) = x := by
    simp [timeOf, rtt_totalled hitem, hx]
  have hpos : ∀ {y : Extended}, .fin 1 ≤ y → .fin 0 < y := by
    intro y hy
    exact (Extended.fin_lt_fin.mpr one_pos).trans_le hy
  constructor
  · rintro (hzero | hnear) w hw least hleast
    · rw [htime] at hzero
      exact absurd hzero (hpos hle).ne'
    · obtain ⟨other, hother, hy, hone⟩ :=
        exists_usable keyless hip hrtt haveraged hw hleast
      have hbound := hnear other hother (hpos hone)
      rw [htime] at hbound
      exact (Double.sub_le_iff hx hy extended_MAX_AVA_DIFF).mpr hbound
  · intro h
    refine .inr ?_
    intro other hother _
    obtain ⟨w, hw, least, hleast, hy, _⟩ := timeOf_usable hip hrtt haveraged hother
    rw [htime]
    exact (Double.sub_le_iff hx hy extended_MAX_AVA_DIFF).mp (h w hw least hleast)

variable (keyless) in
/-- The ips that the steps leave are those of the window. -/
theorem windowed_ips :
    (((totalledItems keyless s gameid regionid qoslst).filter usable).filter (fun item =>
      decide (timeOf item = .fin 0 ∨ Window.Near timeOf (.fin 0) Within
        ((totalledItems keyless s gameid regionid qoslst).filter usable) item))).map
          FilterItem.ip =
      (qoslst.filter (inWindow s gameid regionid qoslst)).map Qos.ip := by
  rw [List.filter_filter, totalledItems_eq]
  apply filterMap_filter_ip
  · intro v hv item hitem
    obtain ⟨item', hactive, rfl⟩ := Option.map_eq_some_iff.mp hitem
    refine ⟨by rw [totalled_ip, (activeItem?_valid hactive).2], ?_⟩
    have husable : usable (totalled s gameid regionid item') = true ↔
        (eligibleTotal s gameid regionid v).isSome := (usable_item (hip v hv) hactive).1
    cases htotal : eligibleTotal s gameid regionid v with
    | none =>
      have hunusable : usable (totalled s gameid regionid item') = false := by
        simpa [htotal] using husable
      simp [inWindow, htotal, hunusable]
    | some total =>
      have husable' : usable (totalled s gameid regionid item') = true := by
        simpa [htotal] using husable
      rw [← totalledItems_eq]
      simp only [husable', Bool.and_true, inWindow, htotal,
        window_iff hip hrtt haveraged hv hactive htotal]
  · intro v hv hnone
    have hinactive : activeItem? keyless s v = none := Option.map_eq_none_iff.mp hnone
    have htotal : eligibleTotal s gameid regionid v = none := by
      rw [eligibleTotal_eq keyless (hip v hv), hinactive]
      rfl
    simp [inWindow, htotal]

end Window

/-- The candidates of an accepted request whose averages are all there. -/
theorem answer_candidates_totalled (haccepts : Accepts s gameid regionid)
    {qoslst : List Qos}
    (hupdate : ∀ item ∈ activeItems keyless s qoslst,
      answer (updateItem gameid regionid item) s = .ok (totalled s gameid regionid item))
    (sorter : TableSort) :
    answer (candidates keyless ⟨some gameid, some regionid, qoslst⟩ sorter) s =
      .ok (updateSortQosRedis 0
        (sorter.sort (totalledItems keyless s gameid regionid qoslst))) := by
  have hnumeric : ∀ item ∈ totalledItems keyless s gameid regionid qoslst,
      (item.rtt.tonumber).isSome := by
    intro item hitem
    obtain ⟨item', _, rfl⟩ := List.mem_map.mp hitem
    exact numeric_totalled item'
  simp only [candidates]
  rw [answer_filterQosRedis_accepts haccepts, answer_updateQosRedis hupdate]
  exact answer_sortByRtt hnumeric _

variable (keyless) in
theorem answer_candidates (haveraged : Averaged s gameid regionid)
    (haccepts : Accepts s gameid regionid) {qoslst : List Qos}
    (hip : ∀ v ∈ qoslst, v.ip ≠ .nil) (sorter : TableSort) :
    answer (candidates keyless ⟨some gameid, some regionid, qoslst⟩ sorter) s =
      .ok (updateSortQosRedis 0
        (sorter.sort (totalledItems keyless s gameid regionid qoslst))) := by
  apply answer_candidates_totalled haccepts
  intro item hitem
  obtain ⟨v, hv, hactive⟩ := mem_activeItems hitem
  obtain ⟨vpnid, hvpnid, rfl⟩ := activeItem?_vpnid (hip v hv) hactive
  obtain ⟨n, ava, hava, _⟩ := haveraged _ vpnid hvpnid
  exact answer_updateItem rfl hava

end Choice

section Finite

variable (keyless : Keyless) {s : Store} {gameid regionid : Double} {qoslst : List Qos}
  (hip : ∀ v ∈ qoslst, v.ip ≠ .nil) (hrtt : ∀ v ∈ qoslst, ∀ rtt ∈ v.rtt.tonumber, 0 ≤ rtt)
  (haveraged : Averaged s gameid regionid)

/-- A total from 1 on is finite or the infinity. -/
theorem rat_eq_none_iff {total : Double} {x : Extended} (htotal : total.extended = some x)
    (hx : .fin 1 ≤ x) : total.rat = none ↔ x = ⊤ := by
  match x with
  | ⊥ => exact absurd hx (by simp)
  | ⊤ =>
    refine iff_of_true ?_ rfl
    by_contra hne
    obtain ⟨q, hq⟩ := Option.ne_none_iff_exists'.mp hne
    cases (Double.rat_eq_some.mp hq).symm.trans htotal
  | .fin q => simp [Double.rat_eq_some.mpr htotal]

include hip hrtt haveraged

/-- The candidates, when some eligible total is finite. -/
theorem candidates_perm (sorter : TableSort)
    (hfinite : ∃ v ∈ qoslst, ∃ total ∈ eligibleTotal s gameid regionid v, total.rat.isSome) :
    (updateSortQosRedis 0
      (sorter.sort (totalledItems keyless s gameid regionid qoslst))).Perm
        ((qoslst.filter (inWindow s gameid regionid qoslst)).map Qos.ip) := by
  obtain ⟨v, hv, total, htotal, hfinite⟩ := hfinite
  obtain ⟨least, hleast, hx, hone⟩ := exists_usable keyless hip hrtt haveraged hv htotal
  rw [← windowed_ips keyless hip hrtt haveraged]
  apply updateSortQosRedis_perm sorter (totalledItems_ip hip)
    (totalledItems_ordered keyless hip hrtt haveraged)
  · intro item h husable
    obtain ⟨_, _, _, _, _, hle, _⟩ :=
      timeOf_usable hip hrtt haveraged (List.mem_filter.mpr ⟨h, husable⟩)
    exact (Extended.fin_le_fin.mpr zero_le_one).trans hle
  · intro item _ _ hbelow htop
    have hpos : Extended.fin 0 < timeOf least :=
      (Extended.fin_lt_fin.mpr one_pos).trans_le hone
    have hle := hbelow least hleast hpos
    rw [htop, top_le_iff] at hle
    rw [(rat_eq_none_iff hx hone).mpr hle] at hfinite
    cases hfinite

/-- The candidate, when all eligible totals are infinite. -/
theorem candidates_infinite (sorter : TableSort)
    (hinfinite : ∀ v ∈ qoslst, ∀ total ∈ eligibleTotal s gameid regionid v, total.rat = none)
    (hsome : ∃ v ∈ qoslst, (eligibleTotal s gameid regionid v).isSome) :
    ∃ v ∈ qoslst, (eligibleTotal s gameid regionid v).isSome ∧ updateSortQosRedis 0
      (sorter.sort (totalledItems keyless s gameid regionid qoslst)) = [v.ip] := by
  obtain ⟨v, hv, hsome⟩ := hsome
  obtain ⟨total, htotal⟩ := Option.isSome_iff_exists.mp hsome
  obtain ⟨item, hitem, _⟩ := exists_usable keyless hip hrtt haveraged hv htotal
  have htop : ∀ item ∈ (totalledItems keyless s gameid regionid qoslst).filter usable,
      timeOf item = ⊤ := by
    intro item hitem
    obtain ⟨w, hw, total, htotal, hx, hone, _⟩ := timeOf_usable hip hrtt haveraged hitem
    exact (rat_eq_none_iff hx hone).mp (hinfinite w hw total htotal)
  obtain ⟨first, hfirst, hips⟩ := updateSortQosRedis_infinite sorter (totalledItems_ip hip)
    (totalledItems_ordered keyless hip hrtt haveraged) htop (List.ne_nil_of_mem hitem)
  obtain ⟨w, hw, total, htotal, _, _, hwip⟩ := timeOf_usable hip hrtt haveraged hfirst
  exact ⟨w, hw, by rw [htotal]; rfl, by rw [hips, hwip]⟩

/-- There is no candidate when no entry is eligible. -/
theorem candidates_empty (sorter : TableSort) :
    updateSortQosRedis 0
      (sorter.sort (totalledItems keyless s gameid regionid qoslst)) = [] ↔
        ∀ v ∈ qoslst, eligibleTotal s gameid regionid v = none := by
  rw [updateSortQosRedis_eq_nil sorter (totalledItems_ip hip)]
  constructor
  · intro h v hv
    by_contra hsome
    obtain ⟨total, htotal⟩ := Option.ne_none_iff_exists'.mp hsome
    obtain ⟨item, hitem, _⟩ := exists_usable keyless hip hrtt haveraged hv htotal
    rw [h] at hitem
    cases hitem
  · intro h
    apply List.eq_nil_iff_forall_not_mem.mpr
    intro item hitem
    obtain ⟨w, hw, total, htotal, _⟩ := timeOf_usable hip hrtt haveraged hitem
    rw [h w hw] at htotal
    cases htotal

end Finite

/-- The candidates of an accepted request are the ips of the eligible entries
whose total is within 5 of the least eligible total, each as often as it stands
in the list, when that is finite; behind an infinite one there is one candidate.
The answer is nil when no entry is eligible, and otherwise one of these ips. -/
theorem optimal_choice (keyless : Keyless) (s : Store) (sorter : TableSort) (rng : Random)
    (gameid regionid : Double) (qoslst : List Qos) (hip : ∀ v ∈ qoslst, v.ip ≠ .nil)
    (hrtt : ∀ v ∈ qoslst, ∀ rtt ∈ v.rtt.tonumber, 0 ≤ rtt)
    (haveraged : Averaged s gameid regionid) {filterqos : List FilterItem}
    (haccepted : answer (filterQosRedis keyless gameid regionid qoslst) s = .ok filterqos) :
    ∃ ips reply,
      answer (candidates keyless ⟨some gameid, some regionid, qoslst⟩ sorter) s = .ok ips ∧
      ((∃ v ∈ qoslst, ∃ total ∈ eligibleTotal s gameid regionid v, total.rat.isSome) →
        ips.Perm ((qoslst.filter (inWindow s gameid regionid qoslst)).map Qos.ip)) ∧
      ((∀ v ∈ qoslst, ∀ total ∈ eligibleTotal s gameid regionid v, total.rat = none) →
        (∃ v ∈ qoslst, (eligibleTotal s gameid regionid v).isSome) →
          ∃ v ∈ qoslst, (eligibleTotal s gameid regionid v).isSome ∧ ips = [v.ip]) ∧
      answer (getVpnIpRedis keyless ⟨some gameid, some regionid, qoslst⟩ sorter rng) s =
        .ok reply ∧
      (reply = none ↔ ∀ v ∈ qoslst, eligibleTotal s gameid regionid v = none) ∧
      ∀ ip, reply = some ip → ip ∈ ips := by
  obtain ⟨haccepts, _⟩ := accepts_of_filterQosRedis haccepted
  have hanswer := answer_candidates keyless haveraged haccepts hip sorter
  refine ⟨_, _, hanswer, candidates_perm keyless hip hrtt haveraged sorter,
    candidates_infinite keyless hip hrtt haveraged sorter, answer_getVpnIpRedis rng hanswer,
    ?_, ?_⟩
  · rw [← candidates_empty keyless hip hrtt haveraged sorter]
    split
    · next hnil => simp [hnil]
    · next hne => simp [hne]
  · intro ip hreply
    split at hreply
    · cases hreply
    · next hne =>
      obtain rfl := Option.some.inj hreply
      exact getRandomVpnIp_mem rng hne

section OneNode

/-- One active node with three addresses and an average of 20 ms for region 1 of
game 5. -/
def measuredNode : Store :=
  (((((Store.empty.setHash VPN_ACTIVE_IP_TO_ID_DIC "10.0.0.1" "1").setHash
    VPN_ACTIVE_IP_TO_ID_DIC "10.0.0.2" "1").setHash VPN_ACTIVE_IP_TO_ID_DIC "10.0.0.3" "1").setHash
      (avaRegionKey "1") (regionRttField "5" "1") "20").addMember
        ACTIVE_GAMEID_SET "5").addMember (gameRegionKey "5") "1"

/-- An entry that lost nothing, with the text of its time. -/
def timedQos (ip time : String) : Qos := ⟨.str ip, .num 0, .str time⟩

/-- Two entries within 5 ms of each other, one that is not, and one whose time is
no number. -/
def fourQos : List Qos :=
  [timedQos "10.0.0.2" "44", timedQos "10.0.0.3" "timeout", timedQos "10.0.0.3" "46",
    timedQos "10.0.0.1" "40"]

/-- Two entries whose times are 5 ms apart. -/
def apartQos : List Qos := [timedQos "10.0.0.1" "7.2", timedQos "10.0.0.2" "12.2"]

theorem numberText_five : numberText 5 = "5" := numberText_int (n := 5) (by decide)

theorem numberText_one : numberText 1 = "1" := numberText_int (n := 1) (by decide)

theorem measuredNode_active {ip vpnid : String}
    (h : measuredNode.hash VPN_ACTIVE_IP_TO_ID_DIC ip = some vpnid) : vpnid = "1" := by
  have hother := vpnActiveIp_ne_avaRegionKey "1"
  simp only [measuredNode, Store.addMember_hash, Store.setHash, hother, false_and, if_false,
    true_and] at h
  split at h
  · exact (Option.some.inj h).symm
  split at h
  · exact (Option.some.inj h).symm
  split at h
  · exact (Option.some.inj h).symm
  · cases h

theorem measuredNode_averaged : Averaged measuredNode 5 1 := by
  intro ip vpnid h
  rw [measuredNode_active h]
  refine ⟨20, 20, by decide +kernel, ?_⟩
  exact Double.extended_ofRat 20

theorem measuredNode_accepted (qoslst : List Qos) :
    answer (filterQosRedis .refusal 5 1 qoslst) measuredNode =
      .ok (activeItems .refusal measuredNode qoslst) := by
  have haccepts : Accepts measuredNode 5 1 := by
    constructor
    · rw [numberText_five]
      decide
    · intro _
      rw [numberText_five, numberText_one]
      decide
  exact answer_filterQosRedis .refusal haccepts qoslst

/-- The two entries within 5 ms are the candidates. -/
theorem optimal_choice_four_entries :
    ∃ ips reply,
      answer (candidates .refusal ⟨some 5, some 1, fourQos⟩ (Window.Sorter.stable _))
        measuredNode = .ok ips ∧
      ips.Perm [.str "10.0.0.2", .str "10.0.0.1"] ∧
      answer (getVpnIpRedis .refusal ⟨some 5, some 1, fourQos⟩ (Window.Sorter.stable _)
        ⟨fun _ => 1, fun _ _ => le_rfl, fun _ h => h⟩) measuredNode = .ok (some reply) ∧
      reply ∈ ips := by
  have hip : ∀ v ∈ fourQos, v.ip ≠ .nil := by
    decide
  have hrtt : ∀ v ∈ fourQos, ∀ rtt ∈ v.rtt.tonumber, 0 ≤ rtt := by
    decide +kernel
  obtain ⟨ips, reply, hips, hperm, _, hreply, hnone, hmem⟩ :=
    optimal_choice .refusal measuredNode (Window.Sorter.stable _)
      ⟨fun _ => 1, fun _ _ => le_rfl, fun _ h => h⟩ 5 1 fourQos hip hrtt
      measuredNode_averaged (measuredNode_accepted fourQos)
  have hwindow : (fourQos.filter (inWindow measuredNode 5 1 fourQos)).map Qos.ip =
      [.str "10.0.0.2", .str "10.0.0.1"] := by
    decide +kernel
  have hfinite : ∃ v ∈ fourQos, ∃ total ∈ eligibleTotal measuredNode 5 1 v,
      total.rat.isSome := by
    decide +kernel
  have hsome : reply.isSome := by
    rw [Option.isSome_iff_ne_none, Ne, hnone]
    decide +kernel
  obtain ⟨ip, rfl⟩ := Option.isSome_iff_exists.mp hsome
  exact ⟨ips, ip, hips, hwindow ▸ hperm hfinite, hreply, hmem ip rfl⟩

/-- Sums and differences are rounded: the second entry's total is within 5 of
the first one's, and it is no candidate. -/
theorem rounded_window :
    Averaged measuredNode 5 1 ∧
    answer (filterQosRedis .refusal 5 1 apartQos) measuredNode =
      .ok (activeItems .refusal measuredNode apartQos) ∧
    (∀ v ∈ apartQos, v.ip ≠ .nil ∧ (eligibleTotal measuredNode 5 1 v).isSome ∧
      ∀ rtt ∈ v.rtt.tonumber, 0 ≤ rtt) ∧
    (∃ p ∈ (Value.str "7.2").rat, ∃ q ∈ (Value.str "12.2").rat, q + 20 ≤ p + 20 + 5) ∧
    ∃ ips, answer (candidates .refusal ⟨some 5, some 1, apartQos⟩ (Window.Sorter.stable _))
        measuredNode = .ok ips ∧ .str "10.0.0.2" ∉ ips := by
  have hentries : ∀ v ∈ apartQos, v.ip ≠ .nil ∧ (eligibleTotal measuredNode 5 1 v).isSome ∧
      ∀ rtt ∈ v.rtt.tonumber, 0 ≤ rtt := by
    decide +kernel
  have hip : ∀ v ∈ apartQos, v.ip ≠ .nil := fun v hv => (hentries v hv).1
  have hrtt : ∀ v ∈ apartQos, ∀ rtt ∈ v.rtt.tonumber, 0 ≤ rtt := fun v hv => (hentries v hv).2.2
  have haccepted := measuredNode_accepted apartQos
  obtain ⟨haccepts, _⟩ := accepts_of_filterQosRedis haccepted
  refine ⟨measuredNode_averaged, haccepted, hentries, by decide +kernel, _,
    answer_candidates .refusal measuredNode_averaged haccepts hip _, ?_⟩
  have hfinite : ∃ v ∈ apartQos, ∃ total ∈ eligibleTotal measuredNode 5 1 v,
      total.rat.isSome := by
    decide +kernel
  have hperm := candidates_perm .refusal hip hrtt measuredNode_averaged
    (Window.Sorter.stable _) hfinite
  rw [hperm.mem_iff]
  decide +kernel

end OneNode

end GameAcc.Lua.VpnIp
