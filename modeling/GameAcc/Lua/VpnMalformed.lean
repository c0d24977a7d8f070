import GameAcc.Lua.VpnAnswers

/-!
What a measurement that is no number does to a request. Each of the three
selections meets such an entry at another place: MySQL compares its time before
it looks at the loss, the selection without a game sorts by the time before it
looks at either, and the one with a game drops the time but adds an average to
it when only the loss is malformed.
-/

namespace GameAcc.Lua.VpnIp

open GameAcc.Redis GameAcc.Mysql

/-- An entry with an address and two numbers, whatever their sizes. -/
structure WellFormed (v : Qos) : Prop where
  ip : ∃ ip, v.ip = .str ip
  lose : (v.lose.extended).isSome
  rtt : (v.rtt.extended).isSome

/-- The value is missing, or it is a text that is no number: one that `tonumber`
does not read, or one that it reads as NaN. -/
def NoNumber (value : Value) : Prop :=
  value = .nil ∨ ∃ text, value = .str text ∧ value.extended = none

/-- An entry with an address that misses one of the numbers. -/
structure Malformed (v : Qos) : Prop where
  ip : v.ip ≠ .nil
  noNumber : NoNumber v.rtt ∨ NoNumber v.lose

/-- The answers with an entry are those without it, and none is a Lua error. -/
def Ignored {α : Type} (without withEntry : Set (Except Stop α)) : Prop :=
  withEntry = without ∧ ∀ message, .error (.error message) ∉ withEntry

theorem NoNumber.extended {value : Value} (h : NoNumber value) : value.extended = none := by
  rcases h with rfl | ⟨_, _, hnone⟩
  · rfl
  · exact hnone

theorem WellFormed.present {v : Qos} (h : WellFormed v) :
    v.rtt ≠ .nil ∧ v.lose ≠ .nil ∧ v.ip ≠ .nil := by
  obtain ⟨⟨ip, hip⟩, hlose, hrtt⟩ := h
  refine ⟨?_, ?_, ?_⟩
  · intro hnil
    rw [hnil] at hrtt
    cases hrtt
  · intro hnil
    rw [hnil] at hlose
    cases hlose
  · intro hnil
    cases hip.symm.trans hnil

/-- A malformed entry with a time has no loss that is a number. -/
theorem Malformed.lost {v : Qos} (h : Malformed v) (hrtt : (v.rtt.extended).isSome) :
    v.lose.rat ≠ some 0 := by
  intro hlose
  rcases h.noNumber with hnone | hnone
  · rw [hnone.extended] at hrtt
    cases hrtt
  · rw [Value.rat_eq_some, hnone.extended] at hlose
    cases hlose

theorem mem_insert {xs ys : List Qos} {e v : Qos} :
    v ∈ xs ++ e :: ys ↔ v = e ∨ v ∈ xs ++ ys := by
  simp only [List.mem_append, List.mem_cons]
  tauto

section Mysql

variable {validvpn : List String}

theorem WellFormed.not_compares {v : Qos} (h : WellFormed v) : ¬ComparesText validvpn v := by
  rintro ⟨_, _, _, _, hnone⟩
  have hrtt := numeric_of_extended h.rtt
  rw [hnone] at hrtt
  cases hrtt

/-- A malformed entry is never the choice. -/
theorem Malformed.improve_eq {e : Qos} (h : Malformed e) (choice : Option Qos) :
    improve validvpn choice e = choice := by
  cases hrtt : e.rtt.tonumber with
  | none => simp only [improve, hrtt]
  | some rtt =>
    by_cases hordered : (e.rtt.extended).isSome
    · exact improve_disabled (by simp [Enabled, h.lost hordered]) choice
    · have hnan : ∀ d : Double, ¬rtt < d := by
        rintro d ⟨x, hx, _⟩
        rw [Value.extended, hrtt] at hordered
        exact hordered (Option.isSome_iff_exists.mpr ⟨x, hx⟩)
      simp only [improve, hrtt, hnan, and_false, if_false]

theorem mysql_ignored_iff {gameid regionid : Option Double} {db : Option Database} (s : Store)
    {xs ys : List Qos} {e : Qos} (hwell : ∀ v ∈ xs ++ ys, WellFormed v) (he : Malformed e) :
    Ignored {answer (getVpnIp ⟨gameid, regionid, xs ++ ys⟩ db) s}
        {answer (getVpnIp ⟨gameid, regionid, xs ++ e :: ys⟩ db) s} ↔
      ¬ComparesText (loadValidVpnIp db) e := by
  constructor
  · rintro ⟨_, hnever⟩ hcompares
    apply hnever "attempt to compare nil with number"
    have hmem : e ∈ xs ++ e :: ys := mem_insert.mpr (.inl rfl)
    rw [answer_getVpnIp_compares s ⟨e, hmem, hcompares⟩]
    exact Set.mem_singleton _
  · intro hnot
    have hall : ∀ v ∈ xs ++ e :: ys, ¬ComparesText (loadValidVpnIp db) v := by
      intro v hv
      rcases mem_insert.mp hv with rfl | hv
      · exact hnot
      · exact (hwell v hv).not_compares
    have hwithout : ∀ v ∈ xs ++ ys, ¬ComparesText (loadValidVpnIp db) v :=
      fun v hv => (hwell v hv).not_compares
    have hfold : (xs ++ e :: ys).foldl (improve (loadValidVpnIp db)) none =
        (xs ++ ys).foldl (improve (loadValidVpnIp db)) none := by
      rw [List.foldl_append, List.foldl_cons, he.improve_eq, ← List.foldl_append]
    rw [answer_getVpnIp_picked s hwithout, answer_getVpnIp_picked s hall, hfold]
    refine ⟨rfl, ?_⟩
    intro message hmem
    cases Set.mem_singleton_iff.mp hmem

end Mysql

section Redis

variable {keyless : Keyless} {s : Store} {xs ys : List Qos} {e : Qos}

theorem not_ignored_of_error {without : Set (Except Stop (Option Value))} {self : Self}
    {message : String}
    (h : ∀ sorter, answer (candidates keyless self sorter) s = .error (.error message)) :
    ¬Ignored without (answers keyless s self) := by
  rintro ⟨_, hnever⟩
  apply hnever message
  rw [answers_error h]
  exact Set.mem_singleton _

/-- Where both lists are answered, an entry is ignored when the same ips can be
returned. -/
theorem ignored_iff_returned {self selfWith : Self} {items itemsWith : List FilterItem}
    (hip : ∀ item ∈ items, item.ip ≠ .nil) (hipWith : ∀ item ∈ itemsWith, item.ip ≠ .nil)
    (h : ∀ sorter, answer (candidates keyless self sorter) s =
      .ok (updateSortQosRedis 0 (sorter.sort items)))
    (hwith : ∀ sorter, answer (candidates keyless selfWith sorter) s =
      .ok (updateSortQosRedis 0 (sorter.sort itemsWith))) :
    Ignored (answers keyless s self) (answers keyless s selfWith) ↔
      ∀ ip, Returned itemsWith ip ↔ Returned items ip := by
  rw [answers_of_items hip h, answers_of_items hipWith hwith]
  constructor
  · rintro ⟨hsame, _⟩ ip
    have hmem := Set.ext_iff.mp hsame (.ok (some ip))
    simpa using hmem
  · intro hreturned
    simp only [Ignored, hreturned, true_and]
    rintro message (⟨_, _, herror⟩ | ⟨_, herror⟩)
    · cases herror
    · cases herror

/-- Items that are not usable where they have a place in the order change what
can be returned only by having none. -/
theorem returned_insert_iff {before inserted after : List FilterItem}
    (h : ∀ item ∈ inserted, (item.rtt.extended).isSome → usable item = false) :
    (∀ ip, Returned (before ++ (inserted ++ after)) ip ↔ Returned (before ++ after) ip) ↔
      (Unordered inserted → ∀ item ∈ (before ++ (inserted ++ after)).filter usable,
        Returned (before ++ after) item.ip) := by
  have hmem : ∀ item ∈ (before ++ after).filter usable,
      item ∈ (before ++ (inserted ++ after)).filter usable := by
    intro item hitem
    simp only [List.filter_append, List.mem_append] at hitem ⊢
    tauto
  by_cases hunordered : Unordered inserted
  · have hall : Unordered (before ++ (inserted ++ after)) := by
      obtain ⟨item, hitem, hnone⟩ := hunordered
      exact ⟨item, by simp [hitem], hnone⟩
    rw [forall_prop_of_true hunordered]
    constructor
    · intro hsame item hitem
      exact (hsame item.ip).mp ⟨item, hitem, .inl hall, rfl⟩
    · intro hreturned ip
      constructor
      · rintro ⟨item, hitem, _, rfl⟩
        exact hreturned item hitem
      · rintro ⟨item, hitem, _, rfl⟩
        exact ⟨item, hmem item hitem, .inl hall, rfl⟩
  · have hunusable : inserted.filter usable = [] := by
      apply List.filter_eq_nil_iff.mpr
      intro item hitem
      rw [h item hitem (ordered_of_not hunordered item hitem)]
      exact Bool.false_ne_true
    have husable : (before ++ (inserted ++ after)).filter usable =
        (before ++ after).filter usable := by
      simp [hunusable]
    have hsame : Unordered (before ++ (inserted ++ after)) ↔ Unordered (before ++ after) := by
      constructor
      · rintro ⟨item, hitem, hnone⟩
        refine ⟨item, ?_, hnone⟩
        rcases List.mem_append.mp hitem with hitem | hitem
        · exact List.mem_append_left _ hitem
        · rcases List.mem_append.mp hitem with hitem | hitem
          · exact absurd ⟨item, hitem, hnone⟩ hunordered
          · exact List.mem_append_right _ hitem
      · rintro ⟨item, hitem, hnone⟩
        refine ⟨item, ?_, hnone⟩
        simp only [List.mem_append] at hitem ⊢
        tauto
    refine iff_of_true (fun ip => ?_) (fun hin => absurd hin hunordered)
    unfold Returned
    rw [husable, hsame]

theorem activeItems_insert :
    activeItems keyless s (xs ++ e :: ys) =
      activeItems keyless s xs ++ (activeItems keyless s [e] ++ activeItems keyless s ys) := by
  unfold activeItems
  rw [← List.filterMap_append, ← List.filterMap_append, List.singleton_append]

theorem activeItems_append :
    activeItems keyless s (xs ++ ys) = activeItems keyless s xs ++ activeItems keyless s ys :=
  List.filterMap_append

theorem ip_insert (hwell : ∀ v ∈ xs ++ ys, WellFormed v) (he : Malformed e) :
    ∀ v ∈ xs ++ e :: ys, v.ip ≠ .nil := by
  intro v hv
  rcases mem_insert.mp hv with rfl | hv
  · exact he.ip
  · exact (hwell v hv).present.2.2

section Game

variable {gameid regionid : Double}

/-- A total that has a place in the order is one of a time that has. -/
theorem extended_of_itemTotal {item : FilterItem} {total : Double}
    (htotal : itemTotal s gameid regionid item = some total) (h : (total.extended).isSome) :
    (item.rtt.extended).isSome := by
  unfold itemTotal at htotal
  cases hvpnid : item.vpnid with
  | str vpnid =>
    rw [hvpnid] at htotal
    obtain ⟨rtt, hrtt, htotal⟩ := Option.bind_eq_some_iff.mp htotal
    obtain ⟨ava, _, htotal⟩ := Option.bind_eq_some_iff.mp htotal
    split at htotal
    · cases htotal
    · obtain rfl := Option.some.inj htotal
      rw [Double.extended_add] at h
      obtain ⟨x, hx⟩ := Option.isSome_iff_exists.mp h
      obtain ⟨y, hy, _⟩ := Option.bind_eq_some_iff.mp hx
      rw [Value.extended, hrtt, Option.bind_some, hy]
      rfl
  | _ =>
    rw [hvpnid] at htotal
    cases htotal

theorem totalled_unusable (he : Malformed e) : ∀ item ∈ totalledItems keyless s gameid regionid [e],
    (item.rtt.extended).isSome → usable item = false := by
  intro item hitem hordered
  obtain ⟨v, hv, item', hactive, rfl⟩ := mem_totalledItems.mp hitem
  obtain rfl := List.mem_singleton.mp hv
  by_contra husable
  obtain ⟨hloss, htotal⟩ :=
    (usable_totalled (activeItem?_valid hactive).1).mp (by simpa using husable)
  obtain ⟨total, htotal⟩ := Option.isSome_iff_exists.mp htotal
  obtain ⟨hrtt, hlose⟩ := activeItem?_fields hactive
  rw [rtt_totalled htotal] at hordered
  have htime := extended_of_itemTotal htotal hordered
  rw [hrtt] at htime
  exact he.lost htime (hlose ▸ hloss)

/-- With a game and a region: a malformed entry is ignored when the request is
rejected, or no entry has a time without an average and, where the entry's own
total is NaN, every usable ip can be returned without it. -/
theorem game_ignored_iff (hwell : ∀ v ∈ xs ++ ys, WellFormed v) (he : Malformed e) :
    Ignored (answers keyless s ⟨some gameid, some regionid, xs ++ ys⟩)
        (answers keyless s ⟨some gameid, some regionid, xs ++ e :: ys⟩) ↔
      (Accepts s gameid regionid →
        (∀ v ∈ xs ++ e :: ys, HasAverage keyless s gameid regionid v) ∧
        (Unordered (totalledItems keyless s gameid regionid [e]) →
          ∀ item ∈ (totalledItems keyless s gameid regionid (xs ++ e :: ys)).filter usable,
            Returned (totalledItems keyless s gameid regionid (xs ++ ys)) item.ip)) := by
  by_cases haccepts : Accepts s gameid regionid
  · rw [forall_prop_of_true haccepts]
    by_cases haverage : ∀ v ∈ xs ++ e :: ys, HasAverage keyless s gameid regionid v
    · rw [and_iff_right haverage]
      have hsplit : totalledItems keyless s gameid regionid (xs ++ e :: ys) =
          totalledItems keyless s gameid regionid xs ++
            (totalledItems keyless s gameid regionid [e] ++
              totalledItems keyless s gameid regionid ys) := by
        simp only [totalledItems, activeItems_insert, List.map_append]
      have hrest : totalledItems keyless s gameid regionid (xs ++ ys) =
          totalledItems keyless s gameid regionid xs ++
            totalledItems keyless s gameid regionid ys := by
        simp only [totalledItems, activeItems_append, List.map_append]
      have hip := ip_insert hwell he
      rw [ignored_iff_returned
        (totalledItems_ip (fun v hv => hip v (mem_insert.mpr (.inr hv))))
        (totalledItems_ip hip)
        (candidates_averaged haccepts (fun v hv => haverage v (mem_insert.mpr (.inr hv))))
        (candidates_averaged haccepts haverage), hsplit, hrest]
      exact returned_insert_iff (totalled_unusable he)
    · refine iff_of_false ?_ (fun h => haverage h.1)
      push Not at haverage
      obtain ⟨v, hv, hmissing⟩ := haverage
      obtain ⟨message, herror⟩ := candidates_missing haccepts hv hmissing
      exact not_ignored_of_error herror
  · rw [answers_error (candidates_rejected haccepts _),
      answers_error (candidates_rejected haccepts _)]
    refine iff_of_true ⟨rfl, ?_⟩ (fun h => absurd h haccepts)
    intro message hmem
    cases Set.mem_singleton_iff.mp hmem

end Game

section NoGame

variable {self selfWith : Self} (hold : self.gameid = none ∨ self.regionid = none)
  (holdWith : selfWith.gameid = none ∨ selfWith.regionid = none)
  (hself : self.qoslst = xs ++ ys) (hwith : selfWith.qoslst = xs ++ e :: ys)
  (hwell : ∀ v ∈ xs ++ ys, WellFormed v)

include hold hself hwell in
theorem wellFormed_candidates (sorter : TableSort) :
    answer (candidates keyless self sorter) s =
      .ok (updateSortQosRedis 0 (sorter.sort (activeItems keyless s (xs ++ ys)))) := by
  rw [← hself]
  apply candidates_old_numeric hold
  intro item hitem
  obtain ⟨v, hv, hactive⟩ := mem_activeItems hitem
  rw [(activeItem?_fields hactive).1]
  exact numeric_of_extended (hwell v (hself ▸ hv)).rtt

theorem activeItems_ip {qoslst : List Qos} (hip : ∀ v ∈ qoslst, v.ip ≠ .nil) :
    ∀ item ∈ activeItems keyless s qoslst, item.ip ≠ .nil := by
  intro item hitem
  obtain ⟨v, hv, hactive⟩ := mem_activeItems hitem
  rw [(activeItem?_valid hactive).2]
  exact hip v hv

theorem active_unusable (he : Malformed e) : ∀ item ∈ activeItems keyless s [e],
    (item.rtt.extended).isSome → usable item = false := by
  intro item hitem hordered
  obtain ⟨v, hv, hactive⟩ := mem_activeItems hitem
  obtain rfl := List.mem_singleton.mp hv
  obtain ⟨hrtt, hlose⟩ := activeItem?_fields hactive
  by_contra husable
  have hloss := (usable_iff.mp (by simpa using husable)).2.1
  exact he.lost (hrtt ▸ hordered) (hlose ▸ hloss)

include hold holdWith hself hwith hwell

/-- A malformed entry that the sort does not find without a number. -/
theorem old_ignored_iff_numeric (he : Malformed e)
    (hnumeric : Active keyless s e → (e.rtt.tonumber).isSome) :
    Ignored (answers keyless s self) (answers keyless s selfWith) ↔
      (Unordered (activeItems keyless s [e]) →
        ∀ item ∈ (activeItems keyless s (xs ++ e :: ys)).filter usable,
          Returned (activeItems keyless s (xs ++ ys)) item.ip) := by
  have hip := ip_insert hwell he
  have hall : ∀ item ∈ activeItems keyless s selfWith.qoslst, (item.rtt.tonumber).isSome := by
    intro item hitem
    obtain ⟨v, hv, hactive⟩ := mem_activeItems hitem
    rw [(activeItem?_fields hactive).1]
    rcases mem_insert.mp (hwith ▸ hv) with rfl | hv
    · exact hnumeric (active_iff.mpr (by rw [hactive]; rfl))
    · exact numeric_of_extended (hwell v hv).rtt
  have hcandidates := candidates_old_numeric holdWith hall
  rw [hwith] at hcandidates
  rw [ignored_iff_returned
    (activeItems_ip (fun v hv => hip v (mem_insert.mpr (.inr hv)))) (activeItems_ip hip)
    (wellFormed_candidates hold hself hwell) hcandidates, activeItems_insert,
    activeItems_append]
  exact returned_insert_iff (active_unusable he)

/-- A malformed entry that the sort would compare, were another one active. -/
theorem old_ignored_iff_alone (he : Malformed e) (hactive : Active keyless s e)
    (hnone : e.rtt.tonumber = none) :
    Ignored (answers keyless s self) (answers keyless s selfWith) ↔
      ∀ v ∈ xs ++ ys, ¬Active keyless s v := by
  obtain ⟨item, hitem⟩ := Option.isSome_iff_exists.mp (active_iff.mp hactive)
  have htext : item.rtt.tonumber = none := by
    rw [(activeItem?_fields hitem).1, hnone]
  have hone : activeItems keyless s [e] = [item] := by
    simp [activeItems, hitem]
  have hitems : activeItems keyless s selfWith.qoslst =
      activeItems keyless s xs ++ ([item] ++ activeItems keyless s ys) := by
    rw [hwith, activeItems_insert, hone]
  constructor
  · intro hignored v hv hother
    obtain ⟨other, hother⟩ := Option.isSome_iff_exists.mp (active_iff.mp hother)
    have hmem : other ∈ activeItems keyless s xs ++ activeItems keyless s ys := by
      rw [← activeItems_append]
      exact List.mem_filterMap.mpr ⟨v, hv, hother⟩
    have hlength : 2 ≤ (activeItems keyless s selfWith.qoslst).length := by
      have hpos := List.length_pos_of_mem hmem
      rw [hitems]
      simp only [List.length_append, List.length_singleton] at hpos ⊢
      omega
    refine not_ignored_of_error (candidates_old_compares holdWith hlength ?_) hignored
    exact ⟨item, by rw [hitems]; simp, htext⟩
  · intro halone
    have hempty : activeItems keyless s (xs ++ ys) = [] := by
      apply List.filterMap_eq_nil_iff.mpr
      intro v hv
      by_contra hsome
      exact halone v hv (active_iff.mpr (Option.isSome_iff_ne_none.mpr hsome))
    have hsingle : activeItems keyless s selfWith.qoslst = [item] := by
      rw [activeItems_append] at hempty
      obtain ⟨hxs, hys⟩ := List.append_eq_nil_iff.mp hempty
      rw [hitems, hxs, hys]
      rfl
    have hunusable : usable item = false := by
      simp [usable, htext]
    have hdropped : ∀ sorter : TableSort, updateSortQosRedis 0 (sorter.sort [item]) = [] := by
      intro sorter
      rw [updateSortQosRedis_eq_nil]
      · simp [hunusable]
      · intro other hother
        rw [List.mem_singleton.mp hother, (activeItem?_valid hitem).2]
        exact he.ip
    have hiff : Ignored (answers keyless s self) (answers keyless s selfWith) ↔
        ∀ ip, Returned [item] ip ↔ Returned [] ip := by
      apply ignored_iff_returned
      · simp
      · intro other hother
        rw [List.mem_singleton.mp hother, (activeItem?_valid hitem).2]
        exact he.ip
      · intro sorter
        rw [wellFormed_candidates hold hself hwell, hempty]
      · intro sorter
        rw [candidates_old_single holdWith hsingle htext, hdropped]
    rw [hiff]
    intro ip
    simp [Returned, hunusable]

/-- Without a game: a malformed entry is ignored unless its time is read as no
number and compared, or as NaN and what can be returned depends on the order. -/
theorem old_ignored_iff (he : Malformed e) :
    Ignored (answers keyless s self) (answers keyless s selfWith) ↔
      (Active keyless s e → e.rtt.tonumber = none →
        ∀ v ∈ xs ++ ys, ¬Active keyless s v) ∧
      (Unordered (activeItems keyless s [e]) →
        ∀ item ∈ (activeItems keyless s (xs ++ e :: ys)).filter usable,
          Returned (activeItems keyless s (xs ++ ys)) item.ip) := by
  by_cases hcompares : Active keyless s e ∧ e.rtt.tonumber = none
  · obtain ⟨hactive, hnone⟩ := hcompares
    rw [old_ignored_iff_alone hold holdWith hself hwith hwell he hactive hnone,
      forall_prop_of_true hactive, forall_prop_of_true hnone]
    refine (and_iff_left_of_imp ?_).symm
    intro halone _ item hitem
    obtain ⟨hmem, husable⟩ := List.mem_filter.mp hitem
    obtain ⟨v, hv, hactiveitem⟩ := mem_activeItems hmem
    rcases mem_insert.mp hv with rfl | hv
    · rw [usable, (activeItem?_fields hactiveitem).1, hnone] at husable
      simp at husable
    · exact absurd (active_iff.mpr (by rw [hactiveitem]; rfl)) (halone v hv)
  · have hnumeric : Active keyless s e → (e.rtt.tonumber).isSome := by
      intro hactive
      exact Option.isSome_iff_ne_none.mpr (fun hnone => hcompares ⟨hactive, hnone⟩)
    rw [old_ignored_iff_numeric hold holdWith hself hwith hwell he hnumeric]
    refine (and_iff_right ?_).symm
    exact fun hactive hnone => absurd ⟨hactive, hnone⟩ hcompares

end NoGame

end Redis

/-- A malformed entry is ignored, wherever it stands in a list of well-formed
ones, exactly when: for MySQL, its time is not read as no number where it is
compared; with a game and a region, the request is rejected or no time needs an
average that is missing; without them, its time is not read as no number or no
other entry is there to compare it with. On the two paths with a sort, moreover,
where its time makes the order void, every usable ip can be returned without the
entry too. -/
theorem malformed_ignored_iff (keyless : Keyless) (s : Store) (db : Option Database)
    {xs ys : List Qos} {e : Qos} (hwell : ∀ v ∈ xs ++ ys, WellFormed v) (he : Malformed e) :
    (∀ gameid regionid,
      Ignored {answer (getVpnIp ⟨gameid, regionid, xs ++ ys⟩ db) s}
          {answer (getVpnIp ⟨gameid, regionid, xs ++ e :: ys⟩ db) s} ↔
        ¬ComparesText (loadValidVpnIp db) e) ∧
    (∀ gameid regionid,
      Ignored (answers keyless s ⟨some gameid, some regionid, xs ++ ys⟩)
          (answers keyless s ⟨some gameid, some regionid, xs ++ e :: ys⟩) ↔
        (Accepts s gameid regionid →
          (∀ v ∈ xs ++ e :: ys, HasAverage keyless s gameid regionid v) ∧
          (Unordered (totalledItems keyless s gameid regionid [e]) →
            ∀ item ∈ (totalledItems keyless s gameid regionid (xs ++ e :: ys)).filter usable,
              Returned (totalledItems keyless s gameid regionid (xs ++ ys)) item.ip))) ∧
    ∀ gameid regionid, gameid = none ∨ regionid = none →
      (Ignored (answers keyless s ⟨gameid, regionid, xs ++ ys⟩)
          (answers keyless s ⟨gameid, regionid, xs ++ e :: ys⟩) ↔
        (Active keyless s e → e.rtt.tonumber = none →
          ∀ v ∈ xs ++ ys, ¬Active keyless s v) ∧
        (Unordered (activeItems keyless s [e]) →
          ∀ item ∈ (activeItems keyless s (xs ++ e :: ys)).filter usable,
            Returned (activeItems keyless s (xs ++ ys)) item.ip)) :=
  ⟨fun _ _ => mysql_ignored_iff s hwell he, fun _ _ => game_ignored_iff hwell he,
    fun _ _ hold => old_ignored_iff hold hold rfl rfl hwell he⟩

section OneNode

open GameAcc.Writer

/-- A measurement of the node of the small database. -/
def goodQos : Qos := timedQos "10.0.0.1" "40"

/-- A measurement whose time is a word, of the node with the given address. -/
def textQos (ip : String) : Qos := timedQos ip "timeout"

theorem timeout_tonumber : (Value.str "timeout").tonumber = none := by
  decide +kernel

theorem textQos_malformed (ip : String) : Malformed (textQos ip) where
  ip := Value.noConfusion
  noNumber := .inl (.inr ⟨"timeout", rfl, congrArg (Option.bind · _) timeout_tonumber⟩)

theorem goodQos_wellFormed : ∀ v ∈ [goodQos] ++ [], WellFormed v := by
  intro v hv
  obtain rfl := List.mem_singleton.mp hv
  exact ⟨⟨"10.0.0.1", rfl⟩, by decide +kernel, by decide +kernel⟩

/-- An address that is no node's. -/
theorem oneGame_inactive :
    (load (oneGame [1])).hash VPN_ACTIVE_IP_TO_ID_DIC "10.0.0.9" = none := by
  by_contra hsome
  obtain ⟨vpnid, hvpnid⟩ := Option.ne_none_iff_exists'.mp hsome
  obtain ⟨v, hv, _⟩ := load_vpnIp_eq (oneGame [1]) hvpnid
  have hips : (oneGame [1]).enabledVpnIps = [("10.0.0.1", 1)] := rfl
  rw [hips] at hv
  have hip : "10.0.0.9" = "10.0.0.1" := congrArg Prod.fst (List.mem_singleton.mp hv)
  exact absurd hip (by decide)

theorem textQos_inactive :
    vpnidOf .refusal (load (oneGame [1])) (textQos "10.0.0.9").ip = .nil := by
  rw [vpnidOf, if_neg Value.noConfusion]
  show Value.ofReply ((load (oneGame [1])).hash VPN_ACTIVE_IP_TO_ID_DIC "10.0.0.9") = .nil
  rw [oneGame_inactive]
  rfl

theorem goodQos_vpnid : vpnidOf .refusal (load (oneGame [1])) goodQos.ip = .str "1" := by
  rw [vpnidOf, if_neg Value.noConfusion]
  show Value.ofReply ((load (oneGame [1])).hash VPN_ACTIVE_IP_TO_ID_DIC "10.0.0.1") = .str "1"
  rw [oneGame_vpnIp [1]]
  rfl

theorem textQos_items : activeItems .refusal (load (oneGame [1])) [textQos "10.0.0.9"] = [] :=
  List.filterMap_cons_none (if_pos (.inr (.inr textQos_inactive)))

theorem malformed_ignored_other_node :
    Ignored {answer (getVpnIp ⟨some 5, some 1, [goodQos] ++ []⟩ (some (oneGame [1])))
        (load (oneGame [1]))}
      {answer (getVpnIp ⟨some 5, some 1, [goodQos] ++ textQos "10.0.0.9" :: []⟩
        (some (oneGame [1]))) (load (oneGame [1]))} ∧
    Ignored (answers .refusal (load (oneGame [1])) ⟨some 5, some 1, [goodQos] ++ []⟩)
      (answers .refusal (load (oneGame [1]))
        ⟨some 5, some 1, [goodQos] ++ textQos "10.0.0.9" :: []⟩) ∧
    Ignored (answers .refusal (load (oneGame [1])) ⟨none, none, [goodQos] ++ []⟩)
      (answers .refusal (load (oneGame [1]))
        ⟨none, none, [goodQos] ++ textQos "10.0.0.9" :: []⟩) := by
  obtain ⟨hmysql, hgame, hold⟩ := malformed_ignored_iff .refusal (load (oneGame [1]))
    (some (oneGame [1])) goodQos_wellFormed (textQos_malformed "10.0.0.9")
  refine ⟨(hmysql _ _).mpr ?_, (hgame _ _).mpr fun _ => ⟨?_, ?_⟩,
    (hold _ _ (.inl rfl)).mpr ⟨?_, ?_⟩⟩
  · rintro ⟨_, _, _, hvalid, _⟩
    exact absurd hvalid (by decide)
  · intro v hv _ _ hactive
    rcases mem_insert.mp hv with rfl | hv
    · exact absurd textQos_inactive hactive
    · obtain rfl := List.mem_singleton.mp hv
      refine ⟨"1", goodQos_vpnid, fun _ => ?_⟩
      have haverage : (load (oneGame [1])).hash (avaRegionKey "1") (regionRttField "5" "1") =
          some "0" := oneGame_average List.mem_cons_self
      rw [average, numberText_five, numberText_one, haverage]
      decide +kernel
  · rw [totalledItems, textQos_items]
    rintro ⟨_, hmem, _⟩
    cases hmem
  · rintro ⟨_, _, hactive⟩
    exact absurd textQos_inactive hactive
  · rw [textQos_items]
    rintro ⟨_, hmem, _⟩
    cases hmem

/-- A word for the time of an enabled node raises with MySQL, and without a game
when another entry is active. -/
theorem text_time_raises :
    (∀ v ∈ [goodQos] ++ [], WellFormed v) ∧ Malformed (textQos "10.0.0.1") ∧
    ¬Ignored {answer (getVpnIp ⟨none, none, [goodQos] ++ []⟩ (some (oneGame [1])))
        (load (oneGame [1]))}
      {answer (getVpnIp ⟨none, none, [goodQos] ++ textQos "10.0.0.1" :: []⟩
        (some (oneGame [1]))) (load (oneGame [1]))} ∧
    ¬Ignored (answers .refusal (load (oneGame [1])) ⟨none, none, [goodQos] ++ []⟩)
      (answers .refusal (load (oneGame [1]))
        ⟨none, none, [goodQos] ++ textQos "10.0.0.1" :: []⟩) := by
  have hmalformed := textQos_malformed "10.0.0.1"
  have htext : (textQos "10.0.0.1").rtt.tonumber = none := timeout_tonumber
  have hactive : ∀ time, Active .refusal (load (oneGame [1])) (timedQos "10.0.0.1" time) := by
    intro time
    refine ⟨Value.noConfusion, Value.noConfusion, ?_⟩
    have hvpnid : vpnidOf .refusal (load (oneGame [1])) (timedQos "10.0.0.1" time).ip =
        .str "1" := goodQos_vpnid
    rw [hvpnid]
    exact Value.noConfusion
  refine ⟨goodQos_wellFormed, hmalformed, ?_, ?_⟩
  · rw [mysql_ignored_iff _ goodQos_wellFormed hmalformed, not_not]
    exact ⟨Value.noConfusion, Value.noConfusion, Value.noConfusion, by decide, htext⟩
  · rw [old_ignored_iff (.inl rfl) (.inl rfl) rfl rfl goodQos_wellFormed hmalformed]
    rintro ⟨halone, _⟩
    exact halone (hactive "timeout") htext goodQos List.mem_cons_self (hactive "40")

end OneNode

end GameAcc.Lua.VpnIp
