import GameAcc.Lua.VpnOldClients

/-!
What a request can be answered with, for lists whose members are any values.
MySQL keeps the first entry with the least time, unless it meets a time that is
no number; the answers of Redis depend on the usable items and on whether the
items can be ordered, unless an average is missing or the sort meets such a time.
-/

namespace GameAcc.Lua.VpnIp

open GameAcc.Redis GameAcc.Mysql

section Mysql

variable {validvpn : List String}

/-- The comparison of `getvpnip` meets a time that is no number. -/
def ComparesText (validvpn : List String) (v : Qos) : Prop :=
  v.rtt ≠ .nil ∧ v.lose ≠ .nil ∧ v.ip ≠ .nil ∧ validVpn validvpn v.ip = true ∧
    v.rtt.tonumber = none

def Qos.number (v : Qos) : Option Double := v.rtt.tonumber

/-- The choice so far and one more entry. -/
def improve (validvpn : List String) (best : Option Qos) (v : Qos) : Option Qos :=
  match v.rtt.tonumber with
  | none => best
  | some rtt =>
    if Enabled validvpn v = true ∧ rtt < (best.bind Qos.number).getD 99999 then some v else best

theorem improve_disabled {v : Qos} (h : Enabled validvpn v = false) (choice : Option Qos) :
    improve validvpn choice v = choice := by
  cases hrtt : v.rtt.tonumber with
  | none => simp only [improve, hrtt]
  | some rtt => simp [improve, hrtt, h]

/-- What the loop keeps of its choice: the place and the time. -/
inductive Picked (before : List Qos) : Option Qos → Best → Prop
  | unset : Picked before none { id := 0, rttmin := .num 99999 }
  | set {k : Nat} {v : Qos} (hget : before[k]? = some v) (htime : (v.rtt.tonumber).isSome) :
      Picked before (some v) { id := k + 1, rttmin := v.rtt }

theorem Picked.append {before : List Qos} {choice : Option Qos} {best : Best}
    (h : Picked before choice best) (v : Qos) : Picked (before ++ [v]) choice best := by
  cases h with
  | unset => exact .unset
  | @set k u hget htime =>
    have hk : k < before.length := (List.getElem?_eq_some_iff.mp hget).1
    exact .set (by rw [List.getElem?_append_left hk]; exact hget) htime

theorem Picked.min {before : List Qos} {choice : Option Qos} {best : Best}
    (h : Picked before choice best) :
    best.rttmin.tonumber = some ((choice.bind Qos.number).getD 99999) := by
  cases h with
  | unset => rfl
  | @set k u _ htime =>
    obtain ⟨rtt, hrtt⟩ := Option.isSome_iff_exists.mp htime
    simp [Qos.number, hrtt]

theorem updateBest_picked {before : List Qos} {choice : Option Qos} {best : Best} {v : Qos}
    (h : Picked before choice best) (hv : ¬ComparesText validvpn v) :
    ∃ best', updateBest validvpn best (before.length + 1) v = .done best' ∧
      Picked (before ++ [v]) (improve validvpn choice v) best' := by
  by_cases hmissing : v.rtt = .nil ∨ v.lose = .nil ∨ v.ip = .nil
  · have hkeep : improve validvpn choice v = choice := by
      rcases hmissing with hnil | hnil | hnil
      · simp [improve, hnil, Value.tonumber]
      · exact improve_disabled (by simp [Enabled, hnil, Value.rat, Value.tonumber]) choice
      · exact improve_disabled (by simp [Enabled, hnil, validVpn]) choice
    refine ⟨best, by rw [updateBest, if_pos hmissing], ?_⟩
    rw [hkeep]
    exact h.append v
  cases hvalid : validVpn validvpn v.ip with
  | false =>
    refine ⟨best, by rw [updateBest, if_neg hmissing, if_pos hvalid], ?_⟩
    rw [improve_disabled (by simp [Enabled, hvalid])]
    exact h.append v
  | true =>
    cases hrtt : v.rtt.tonumber with
    | none =>
      have hpresent : v.rtt ≠ .nil ∧ v.lose ≠ .nil ∧ v.ip ≠ .nil := by
        tauto
      exact absurd ⟨hpresent.1, hpresent.2.1, hpresent.2.2, hvalid, hrtt⟩ hv
    | some rtt =>
      have hstep : updateBest validvpn best (before.length + 1) v =
          if rtt < (choice.bind Qos.number).getD 99999 ∧ v.lose.rat = some 0 then
            .done { id := before.length + 1, rttmin := v.rtt }
          else .done best := by
        rw [updateBest, if_neg hmissing, hvalid, if_neg (by decide), hrtt, h.min]
        simp [less]
      by_cases hbeats : rtt < (choice.bind Qos.number).getD 99999 ∧ v.lose.rat = some 0
      · have hchosen : improve validvpn choice v = some v := by
          simp [improve, hrtt, Enabled, hvalid, hbeats]
        refine ⟨_, by rw [hstep, if_pos hbeats], ?_⟩
        rw [hchosen]
        exact .set (by simp) (by simp [hrtt])
      · have hkeep : improve validvpn choice v = choice := by
          have hnot : ¬(Enabled validvpn v = true ∧
              rtt < (choice.bind Qos.number).getD 99999) :=
            fun hboth => hbeats ⟨hboth.2, (enabled_iff.mp hboth.1).1⟩
          simp only [improve, hrtt, if_neg hnot]
        refine ⟨best, by rw [hstep, if_neg hbeats], ?_⟩
        rw [hkeep]
        exact h.append v

theorem findBest_picked {before rest : List Qos} {choice : Option Qos} {best : Best}
    (h : Picked before choice best) (hrest : ∀ v ∈ rest, ¬ComparesText validvpn v) :
    ∃ best', findBest validvpn best (before.length + 1) rest = .done best' ∧
      Picked (before ++ rest) (rest.foldl (improve validvpn) choice) best' := by
  induction rest generalizing before choice best with
  | nil => exact ⟨best, rfl, by rwa [List.append_nil]⟩
  | cons v rest ih =>
    obtain ⟨best', hstep, hpicked⟩ := updateBest_picked h (hrest v List.mem_cons_self)
    obtain ⟨best'', hdone, hpicked'⟩ :=
      ih hpicked (fun w hw => hrest w (List.mem_cons_of_mem v hw))
    have happend : before ++ [v] ++ rest = before ++ v :: rest := by simp
    refine ⟨best'', ?_, happend ▸ hpicked'⟩
    have hlength : (before ++ [v]).length = before.length + 1 := by simp
    rw [hlength] at hdone
    rw [findBest, hstep]
    exact hdone

/-- A time that is no number ends the loop. -/
theorem findBest_compares {before rest : List Qos} {choice : Option Qos} {best : Best}
    (h : Picked before choice best) (hrest : ∃ v ∈ rest, ComparesText validvpn v) :
    findBest validvpn best (before.length + 1) rest =
      luaError "attempt to compare nil with number" := by
  induction rest generalizing before choice best with
  | nil =>
    obtain ⟨v, hv, _⟩ := hrest
    cases hv
  | cons v rest ih =>
    by_cases hv : ComparesText validvpn v
    · obtain ⟨hrtt, hlose, hip, hvalid, hnone⟩ := hv
      have hpresent : ¬(v.rtt = .nil ∨ v.lose = .nil ∨ v.ip = .nil) := by
        tauto
      rw [findBest, updateBest, if_neg hpresent, hvalid, if_neg (by decide), hnone]
      rfl
    · obtain ⟨best', hstep, hpicked⟩ := updateBest_picked h hv
      have hlater : ∃ w ∈ rest, ComparesText validvpn w := by
        obtain ⟨w, hw, hcompares⟩ := hrest
        rcases List.mem_cons.mp hw with rfl | hw
        · exact absurd hcompares hv
        · exact ⟨w, hw, hcompares⟩
      have hdone := ih hpicked hlater
      have hlength : (before ++ [v]).length = before.length + 1 := by simp
      rw [hlength] at hdone
      rw [findBest, hstep]
      exact hdone

/-- The answer from MySQL, when every time it compares is a number. -/
theorem answer_getVpnIp_picked {self : Self} {db : Option Database} (s : Store)
    (h : ∀ v ∈ self.qoslst, ¬ComparesText (loadValidVpnIp db) v) :
    answer (getVpnIp self db) s =
      .ok (((self.qoslst.foldl (improve (loadValidVpnIp db)) none).map Qos.ip).getD
        (.str "")) := by
  have hstart : Picked [] none { id := 0, rttmin := .num 99999 } := .unset
  obtain ⟨best, hfind, hpicked⟩ := findBest_picked hstart h
  rw [List.nil_append] at hpicked
  simp only [List.length_nil, Nat.zero_add] at hfind
  generalize self.qoslst.foldl (improve (loadValidVpnIp db)) none = choice at hpicked ⊢
  cases hpicked with
  | unset =>
    simp only [getVpnIp, hfind]
    rfl
  | @set k v hget htime =>
    obtain ⟨rtt, hrtt⟩ := Option.isSome_iff_exists.mp htime
    simp [getVpnIp, hfind, hget, hrtt, less]

/-- One such time ends the request. -/
theorem answer_getVpnIp_compares {self : Self} {db : Option Database} (s : Store)
    (h : ∃ v ∈ self.qoslst, ComparesText (loadValidVpnIp db) v) :
    answer (getVpnIp self db) s =
      .error (.error "attempt to compare nil with number") := by
  have hstart : Picked [] none { id := 0, rttmin := .num 99999 } := .unset
  have hfind := findBest_compares hstart h
  simp only [List.length_nil, Nat.zero_add] at hfind
  simp only [getVpnIp, hfind]
  rfl

end Mysql

section Redis

variable {keyless : Keyless} {s : Store}

/-- The answers of `getvpnipredis`, over the orders the sort can leave and the
random numbers. -/
def answers (keyless : Keyless) (s : Store) (self : Self) : Set (Except Stop (Option Value)) :=
  { reply | ∃ sorter rng, answer (getVpnIpRedis keyless self sorter rng) s = reply }

/-- Some item has no place in the order, so the sort can leave any. -/
def Unordered (items : List FilterItem) : Prop := ∃ item ∈ items, item.rtt.extended = none

/-- The ips that the last step can make of the items. -/
def Returned (items : List FilterItem) (ip : Value) : Prop :=
  ∃ item ∈ items.filter usable,
    (Unordered items ∨ Window.Kept timeOf (.fin 0) Within (items.filter usable) item) ∧
      item.ip = ip

theorem ordered_of_not {items : List FilterItem} (h : ¬Unordered items) :
    ∀ item ∈ items, (item.rtt.extended).isSome := by
  intro item hitem
  by_contra hnone
  exact h ⟨item, hitem, by simpa using hnone⟩

theorem returned_of_mem (sorter : TableSort) {items : List FilterItem} {ip : Value}
    (h : ip ∈ updateSortQosRedis 0 (sorter.sort items)) : ip ≠ .nil ∧ Returned items ip := by
  have hmem : ∀ item, item ∈ (sorter.sort items).filter usable ↔ item ∈ items.filter usable :=
    fun _ => mem_sorted_usable sorter
  by_cases hunordered : Unordered items
  · rw [updateSortQosRedis_scan, List.mem_filter, List.mem_map] at h
    obtain ⟨⟨item, hitem, hip⟩, hne⟩ := h
    exact ⟨of_decide_eq_true hne, item, (hmem item).mp ((Window.scan_sublist _ _).subset hitem),
      .inl hunordered, hip⟩
  · have hordered := ordered_of_not hunordered
    have hsorted := sorted_usable sorter hordered
    have hall : ∀ item ∈ sorter.sort items, (item.rtt.extended).isSome :=
      fun item hitem => hordered item ((sorter.perm items).mem_iff.mp hitem)
    rw [updateSortQosRedis_ordered hall, List.mem_filter, List.mem_map] at h
    obtain ⟨⟨item, hitem, hip⟩, hne⟩ := h
    have hmono : ∀ x y y' : Extended, Within x y → y ≤ y' → Within x y' :=
      fun _ _ _ hnear hle => hnear.mono le_rfl hle
    have hkept := Window.kept_of_mem_scan hmono hsorted hitem
    exact ⟨of_decide_eq_true hne, item, (hmem item).mp ((Window.scan_sublist _ _).subset hitem),
      .inr ((Window.Kept.congr hmem item).mp hkept), hip⟩

def frontSorter (item : FilterItem) : TableSort := Window.Sorter.front _ item

/-- The sort that puts an item in front of its equals keeps it when a sort does. -/
theorem mem_of_returned {items : List FilterItem} {ip : Value} (hne : ip ≠ .nil)
    (h : Returned items ip) :
    ∃ sorter : TableSort, ip ∈ updateSortQosRedis 0 (sorter.sort items) := by
  obtain ⟨item, hitem, hkept, rfl⟩ := h
  obtain ⟨hmem, husable⟩ := List.mem_filter.mp hitem
  refine ⟨frontSorter item, ?_⟩
  obtain ⟨before, after, hsort, hless, hfirst⟩ : ∃ before after,
      (frontSorter item).sort items = before ++ item :: after ∧ _ := Window.front_sort hmem
  have hfilter : ((frontSorter item).sort items).filter usable =
      before.filter usable ++ item :: after.filter usable := by
    rw [hsort, List.filter_append, List.filter_cons_of_pos husable]
  by_cases hunordered : Unordered items
  · have hzero : (0 : Double).rat = some 0 := Double.rat_eq_some.mpr extended_zero
    rw [hfirst hunordered, List.filter_nil, List.nil_append] at hfilter
    rw [updateSortQosRedis_scan, hfilter, Window.scan, if_pos hzero, List.map_cons,
      List.filter_cons_of_pos (by simpa using hne)]
    exact List.mem_cons_self
  · have hordered := ordered_of_not hunordered
    have hperm := (frontSorter item).perm items
    rw [updateSortQosRedis_ordered (fun other hother => hordered other (hperm.mem_iff.mp hother)),
      List.mem_filter]
    refine ⟨List.mem_map_of_mem ?_, by simpa using hne⟩
    rw [hfilter]
    apply Window.mem_scan_of_kept
    · intro other hother
      have hin := (List.mem_filter.mp hother).1
      have hlt := hless hordered other hin
      have hother' : other ∈ items := by
        apply hperm.mem_iff.mp
        rw [hsort]
        exact List.mem_append_left _ hin
      rw [Window.keyBot, Window.keyBot, timeOf_eq (hordered other hother'),
        timeOf_eq (hordered item hmem)] at hlt
      exact WithBot.coe_lt_coe.mp hlt
    · rw [← hfilter]
      exact (Window.Kept.congr
        (fun other => mem_sorted_usable (frontSorter item)) item).mpr
          (hkept.resolve_left hunordered)

theorem Returned.ne_nil {items : List FilterItem} (hip : ∀ item ∈ items, item.ip ≠ .nil)
    {ip : Value} (h : Returned items ip) : ip ≠ .nil := by
  obtain ⟨item, hitem, _, rfl⟩ := h
  exact hip item (List.mem_filter.mp hitem).1

/-- Something is returned when an item is usable. -/
theorem exists_returned {items : List FilterItem} (hip : ∀ item ∈ items, item.ip ≠ .nil) :
    (∃ ip, Returned items ip) ↔ items.filter usable ≠ [] := by
  constructor
  · rintro ⟨_, item, hitem, _⟩
    exact List.ne_nil_of_mem hitem
  · intro hne
    rw [Ne, ← updateSortQosRedis_eq_nil (Window.Sorter.stable _) hip] at hne
    obtain ⟨ip, hmem⟩ := List.exists_mem_of_ne_nil _ hne
    exact ⟨ip, (returned_of_mem _ hmem).2⟩

/-- Every candidate of some order is an answer, and nil is one when some order
leaves none. -/
theorem answers_of_candidates {self : Self} {ips : TableSort → List Value}
    (h : ∀ sorter, answer (candidates keyless self sorter) s = .ok (ips sorter)) :
    answers keyless s self = { reply | ∃ sorter,
      (∃ ip ∈ ips sorter, reply = .ok (some ip)) ∨ ips sorter = [] ∧ reply = .ok none } := by
  ext reply
  constructor
  · rintro ⟨sorter, rng, rfl⟩
    refine ⟨sorter, ?_⟩
    rw [answer_getVpnIpRedis rng (h sorter)]
    by_cases hnil : ips sorter = []
    · exact .inr ⟨hnil, by rw [if_pos hnil]⟩
    · exact .inl ⟨_, getRandomVpnIp_mem rng hnil, by rw [if_neg hnil]⟩
  · rintro ⟨sorter, ⟨ip, hip, rfl⟩ | ⟨hnil, rfl⟩⟩
    · obtain ⟨rng, hanswer⟩ := exists_random (h sorter) hip
      exact ⟨sorter, rng, hanswer⟩
    · let first : Random := ⟨fun _ => 1, fun _ _ => le_rfl, fun _ hn => hn⟩
      exact ⟨sorter, first, (nil_answer (h sorter)).mpr hnil first⟩

/-- Where every entry has an address, the answers are the ips that can be
returned, or nil when there is none. -/
theorem answers_of_items {self : Self} {items : List FilterItem}
    (hip : ∀ item ∈ items, item.ip ≠ .nil)
    (h : ∀ sorter, answer (candidates keyless self sorter) s =
      .ok (updateSortQosRedis 0 (sorter.sort items))) :
    answers keyless s self = { reply | (∃ ip, Returned items ip ∧ reply = .ok (some ip)) ∨
      (∀ ip, ¬Returned items ip) ∧ reply = .ok none } := by
  rw [answers_of_candidates h]
  ext reply
  constructor
  · rintro ⟨sorter, ⟨ip, hmem, rfl⟩ | ⟨hnil, rfl⟩⟩
    · exact .inl ⟨ip, (returned_of_mem sorter hmem).2, rfl⟩
    · rw [updateSortQosRedis_eq_nil sorter hip] at hnil
      exact .inr ⟨not_exists.mp (mt (exists_returned hip).mp (not_not_intro hnil)), rfl⟩
  · rintro (⟨ip, hreturned, rfl⟩ | ⟨hnone, rfl⟩)
    · obtain ⟨sorter, hmem⟩ := mem_of_returned (hreturned.ne_nil hip) hreturned
      exact ⟨sorter, .inl ⟨ip, hmem, rfl⟩⟩
    · refine ⟨Window.Sorter.stable _, .inr ⟨?_, rfl⟩⟩
      rw [updateSortQosRedis_eq_nil _ hip]
      exact not_not.mp (mt (exists_returned hip).mpr (not_exists.mpr hnone))

theorem answers_error {self : Self} {e : Stop}
    (h : ∀ sorter, answer (candidates keyless self sorter) s = .error e) :
    answers keyless s self = {.error e} := by
  ext reply
  have hanswer : ∀ sorter rng, answer (getVpnIpRedis keyless self sorter rng) s = .error e := by
    intro sorter rng
    rw [answer_getVpnIpRedis_eq, h sorter]
    rfl
  rw [Set.mem_singleton_iff]
  constructor
  · rintro ⟨sorter, rng, rfl⟩
    exact hanswer sorter rng
  · rintro rfl
    exact ⟨Window.Sorter.stable _, ⟨fun _ => 1, fun _ _ => le_rfl, fun _ hn => hn⟩,
      hanswer _ _⟩

/-- The entry becomes an item: it has both members and an active address. -/
def Active (keyless : Keyless) (s : Store) (v : Qos) : Prop :=
  v.rtt ≠ .nil ∧ v.lose ≠ .nil ∧ vpnidOf keyless s v.ip ≠ .nil

theorem active_iff {v : Qos} : Active keyless s v ↔ (activeItem? keyless s v).isSome := by
  unfold Active activeItem?
  by_cases hmissing : v.rtt = .nil ∨ v.lose = .nil ∨ vpnidOf keyless s v.ip = .nil
  · rw [if_pos hmissing]
    simp only [Option.isSome_none, Bool.false_eq_true, iff_false]
    tauto
  · rw [if_neg hmissing]
    simp only [Option.isSome_some, iff_true]
    tauto

theorem activeItem?_fields {v : Qos} {item : FilterItem}
    (h : activeItem? keyless s v = some item) : item.rtt = v.rtt ∧ item.loss = v.lose := by
  obtain ⟨_, _, _, _, heq⟩ := activeItem?_eq_some h
  rw [heq]
  exact ⟨rfl, rfl⟩

section Game

variable {gameid regionid : Double}

/-- An entry that becomes an item has a node, and when it has a time, the node
has an average. -/
def HasAverage (keyless : Keyless) (s : Store) (gameid regionid : Double) (v : Qos) : Prop :=
  v.rtt ≠ .nil → v.lose ≠ .nil → vpnidOf keyless s v.ip ≠ .nil →
    ∃ vpnid, vpnidOf keyless s v.ip = .str vpnid ∧
      ((v.rtt.tonumber).isSome → (average s gameid regionid vpnid).isSome)

theorem answer_updateItem_of_average {item : FilterItem} {vpnid : String}
    (hvpnid : item.vpnid = .str vpnid)
    (h : (item.rtt.tonumber).isSome → (average s gameid regionid vpnid).isSome) :
    answer (updateItem gameid regionid item) s = .ok (totalled s gameid regionid item) := by
  cases hava : average s gameid regionid vpnid with
  | some ava => exact answer_updateItem hvpnid hava
  | none =>
    have hrtt : item.rtt.tonumber = none := by
      rw [hava] at h
      simpa using h
    have hunmeasured : totalled s gameid regionid item = unmeasured item := by
      simp [totalled, itemTotal, hvpnid, hrtt]
    rw [hunmeasured]
    exact answer_updateItem_no_rtt hvpnid hrtt

/-- One pass of the second step, on an entry's item. -/
theorem answer_updateItem_active {v : Qos} {item : FilterItem}
    (hactive : activeItem? keyless s v = some item) :
    (HasAverage keyless s gameid regionid v →
      answer (updateItem gameid regionid item) s = .ok (totalled s gameid regionid item)) ∧
    (¬HasAverage keyless s gameid regionid v →
      ∃ message, answer (updateItem gameid regionid item) s = .error (.error message)) := by
  obtain ⟨hrtt, hlose, hne, hvpnid, heq⟩ := activeItem?_eq_some hactive
  have hitemrtt := (activeItem?_fields hactive).1
  rw [hvpnid] at hne
  constructor
  · intro haverage
    obtain ⟨vpnid, hid, hava⟩ := haverage hrtt hlose hne
    exact answer_updateItem_of_average (hvpnid.trans hid) (hitemrtt ▸ hava)
  · intro hmissing
    rcases activeItem?_id hactive with ⟨vpnid, hid, _⟩ | ⟨_, hconcat⟩
    · have hava : ¬((v.rtt.tonumber).isSome → (average s gameid regionid vpnid).isSome) :=
        fun hava => hmissing fun _ _ _ => ⟨vpnid, hvpnid.symm.trans hid, hava⟩
      obtain ⟨hsome, hnone⟩ := Classical.not_imp.mp hava
      obtain ⟨rtt, hread⟩ := Option.isSome_iff_exists.mp hsome
      exact ⟨_, answer_updateItem_missing hid (hitemrtt ▸ hread) (by simpa using hnone)⟩
    · exact ⟨_, answer_updateItem_no_id hconcat⟩

theorem candidates_averaged (haccepts : Accepts s gameid regionid) {qoslst : List Qos}
    (haverage : ∀ v ∈ qoslst, HasAverage keyless s gameid regionid v) (sorter : TableSort) :
    answer (candidates keyless ⟨some gameid, some regionid, qoslst⟩ sorter) s =
      .ok (updateSortQosRedis 0
        (sorter.sort (totalledItems keyless s gameid regionid qoslst))) := by
  apply answer_candidates_totalled haccepts
  intro item hitem
  obtain ⟨v, hv, hactive⟩ := mem_activeItems hitem
  exact (answer_updateItem_active hactive).1 (haverage v hv)

/-- One item that raises ends the second step. -/
theorem updateQosRedis_missing {items : List FilterItem}
    (hitems : ∀ item ∈ items,
      answer (updateItem gameid regionid item) s = .ok (totalled s gameid regionid item) ∨
        ∃ message, answer (updateItem gameid regionid item) s = .error (.error message))
    (h : ∃ item ∈ items, ∃ message,
      answer (updateItem gameid regionid item) s = .error (.error message)) :
    ∃ message, answer (updateQosRedis gameid regionid items) s = .error (.error message) := by
  induction items with
  | nil =>
    obtain ⟨item, hitem, _⟩ := h
    cases hitem
  | cons item rest ih =>
    rw [updateQosRedis, answer_bind _ _ s (only_updateItem gameid regionid item)]
    rcases hitems item List.mem_cons_self with hok | ⟨message, herror⟩
    · have hrest : ∃ message, answer (updateQosRedis gameid regionid rest) s =
          .error (.error message) := by
        apply ih (fun item' hitem' => hitems item' (List.mem_cons_of_mem item hitem'))
        obtain ⟨item', hitem', message, herror⟩ := h
        rcases List.mem_cons.mp hitem' with rfl | hmem
        · cases hok.symm.trans herror
        · exact ⟨item', hmem, message, herror⟩
      obtain ⟨message, herror⟩ := hrest
      refine ⟨message, ?_⟩
      rw [hok]
      show answer (updateQosRedis gameid regionid rest >>= _) s = _
      rw [answer_bind _ _ s (only_updateQosRedis gameid regionid rest), herror]
    · exact ⟨message, by rw [herror]⟩

theorem candidates_missing (haccepts : Accepts s gameid regionid) {qoslst : List Qos}
    {v : Qos} (hv : v ∈ qoslst) (haverage : ¬HasAverage keyless s gameid regionid v) :
    ∃ message, ∀ sorter,
      answer (candidates keyless ⟨some gameid, some regionid, qoslst⟩ sorter) s =
        .error (.error message) := by
  have hmissing : ∃ message,
      answer (updateQosRedis gameid regionid (activeItems keyless s qoslst)) s =
        .error (.error message) := by
    apply updateQosRedis_missing
    · intro item hitem
      obtain ⟨w, _, hactive⟩ := mem_activeItems hitem
      by_cases hw : HasAverage keyless s gameid regionid w
      · exact .inl ((answer_updateItem_active hactive).1 hw)
      · exact .inr ((answer_updateItem_active hactive).2 hw)
    · have hactive : Active keyless s v := by
        by_contra hinactive
        exact haverage fun hrtt hlose hvpnid => absurd ⟨hrtt, hlose, hvpnid⟩ hinactive
      obtain ⟨item, hitem⟩ := Option.isSome_iff_exists.mp (active_iff.mp hactive)
      exact ⟨item, List.mem_filterMap.mpr ⟨v, hv, hitem⟩,
        (answer_updateItem_active hitem).2 haverage⟩
  obtain ⟨message, herror⟩ := hmissing
  refine ⟨message, fun sorter => ?_⟩
  simp only [candidates]
  rw [answer_filterQosRedis_accepts haccepts,
    answer_bind _ _ s (only_updateQosRedis gameid regionid _), herror]

theorem candidates_rejected (hrejects : ¬Accepts s gameid regionid) (qoslst : List Qos)
    (sorter : TableSort) :
    answer (candidates keyless ⟨some gameid, some regionid, qoslst⟩ sorter) s =
      .error (.exit MOD_ERR_INVALID_PARAM) := by
  simp only [candidates]
  rw [answer_bind _ _ s (only_filterQosRedis gameid regionid qoslst),
    answer_filterQosRedis_rejects hrejects]

end Game

section NoGame

variable {self : Self}

theorem candidates_old_numeric (hold : self.gameid = none ∨ self.regionid = none)
    (hnumeric : ∀ item ∈ activeItems keyless s self.qoslst, (item.rtt.tonumber).isSome)
    (sorter : TableSort) :
    answer (candidates keyless self sorter) s =
      .ok (updateSortQosRedis 0 (sorter.sort (activeItems keyless s self.qoslst))) := by
  rw [candidates_old hold, answer_filterActiveVpn, answer_sortByRtt hnumeric]
  rfl

/-- A single item is never compared, and it is dropped when it has no time. -/
theorem candidates_old_single (hold : self.gameid = none ∨ self.regionid = none)
    {item : FilterItem} (hitems : activeItems keyless s self.qoslst = [item])
    (hrtt : item.rtt.tonumber = none) (sorter : TableSort) :
    answer (candidates keyless self sorter) s = .ok [] := by
  have hsort : sorter.sort [item] = [item] := List.perm_singleton.mp (sorter.perm [item])
  have hsorted : sortByRtt sorter [item] = .done [item] := by
    rw [sortByRtt, if_neg (by simp), hsort]
  have hdropped : updateSortQosRedis 0 [item] = [] := by
    rw [updateSortQosRedis_scan, List.filter_cons_of_neg (by simp [usable, hrtt])]
    rfl
  rw [candidates_old hold, answer_filterActiveVpn, hitems, hsorted]
  simp only [Command.Program.done_bind, hdropped, answer_done]

/-- The sort meets a time that is no number. -/
theorem candidates_old_compares (hold : self.gameid = none ∨ self.regionid = none)
    (hlength : 2 ≤ (activeItems keyless s self.qoslst).length)
    (hnone : ∃ item ∈ activeItems keyless s self.qoslst, item.rtt.tonumber = none)
    (sorter : TableSort) :
    answer (candidates keyless self sorter) s =
      .error (.error "attempt to compare nil with number") := by
  rw [candidates_old hold, answer_filterActiveVpn, sortByRtt, if_pos ⟨hlength, hnone⟩]
  rfl

end NoGame

end Redis

end GameAcc.Lua.VpnIp
