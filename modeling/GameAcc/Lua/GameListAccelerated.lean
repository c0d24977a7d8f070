import GameAcc.Interleaving.Reader
import GameAcc.Lua.GameListStatic

/-!
The list for a request with a node. Four checks come before the buffer is
fetched: of the node, of the round trip time to it, and of the activeid twice.
`nil` sends the request to the static list, the empty text does not.
-/

namespace GameAcc.Lua.GameListPortText

open GameAcc.Redis GameAcc.Mysql GameAcc.Writer GameAcc.Text GameAcc.Interleaving

section Buffer

variable (detects : List Detect) (max : Score)

/-- The records that a request may be answered with. -/
def within : List Detect :=
  detects.filter (fun d => .fin 0 ≤ d.score ∧ d.score ≤ max)

/-- Redis orders equal scores by the members. -/
def rank (d : Detect) : Score ×ₗ String := toLex (d.score, d.member)

def ranked : List Detect :=
  (within detects max).insertionSort (fun a b => rank a ≤ rank b)

theorem ranked_perm : (ranked detects max).Perm (within detects max) :=
  List.perm_insertionSort _ _

variable {detects}

theorem inRange_contents (hdistinct : (detects.map Detect.member).Nodup) :
    (contents detects).inRange (.fin 0) max = (ranked detects max).map rank := by
  have hentries : (contents detects).entries.filterMap (SortedSet.place (.fin 0) max) =
      (within detects max).map rank := by
    rw [contents_entries hdistinct]
    clear hdistinct
    unfold within
    induction detects with
    | nil => rfl
    | cons d rest ih =>
      rw [List.map_cons, List.filterMap_cons, ih]
      by_cases hd : .fin 0 ≤ d.score ∧ d.score ≤ max
      · rw [List.filter_cons_of_pos (by simpa using hd)]
        simp only [SortedSet.place, if_pos hd, List.map_cons]
        rfl
      · rw [List.filter_cons_of_neg (by simpa using hd)]
        simp only [SortedSet.place, if_neg hd]
  have hsort : (ranked detects max).map rank =
      ((within detects max).map rank).insertionSort (· ≤ ·) :=
    List.map_insertionSort _ _ _ _ (fun _ _ _ _ => Iff.rfl)
  rw [SortedSet.inRange, hentries, hsort]

theorem rangeByScore_contents (hdistinct : (detects.map Detect.member).Nodup) :
    (contents detects).rangeByScore (.fin 0) max = (ranked detects max).map Detect.member := by
  rw [SortedSet.rangeByScore, inRange_contents max hdistinct, List.map_map]
  rfl

theorem ranked_ascending (hdistinct : (detects.map Detect.member).Nodup) :
    (ranked detects max).Pairwise (fun a b => a.score ≤ b.score) := by
  have hsorted := (contents detects).inRange_sorted (.fin 0) max
  rw [inRange_contents max hdistinct, List.pairwise_map] at hsorted
  apply hsorted.imp
  intro a b hab
  rcases (Prod.Lex.le_iff.mp hab) with hlt | ⟨heq, _⟩
  · exact le_of_lt hlt
  · exact le_of_eq heq

end Buffer

section Threshold

/-- The upper bound that `ZRANGEBYSCORE` reads: the difference of two doubles,
sent with 14 digits. -/
def threshold (rtt : Double) : Option Score := readBound (numberText (MAXTRANSRTT - rtt))

theorem extended_MAXTRANSRTT : MAXTRANSRTT.extended = some (.fin 100) := by
  have h := Double.extended_ofInt (n := 100) (by decide)
  rwa [Int.cast_ofNat] at h

theorem threshold_eq {c : Double} {x : Extended} (hc : c.extended = some x) {d : Extended}
    (hd : d ∈ Double.subExtended (.fin 100) x) : threshold c = some (Double.reprint d) := by
  apply readBound_numberText
  rw [Double.extended_sub, extended_MAXTRANSRTT, hc]
  exact hd

/-- From farther away the bound is lower. -/
theorem threshold_antitone {c c' : Double} (h : c ≤ c') :
    ∃ t t', threshold c = some t ∧ threshold c' = some t' ∧ t' ≤ t := by
  obtain ⟨x, hx, x', hx', hle⟩ := h
  obtain ⟨d, hd, d', hd', hdle⟩ := Double.subExtended_antitone 100 hle
  exact ⟨_, _, threshold_eq hx hd, threshold_eq hx' hd', Double.reprint_mono hdle⟩

theorem threshold_le {c : Double} (h : MINVPNRTT ≤ c) :
    ∃ t, threshold c = some t ∧ t ≤ .fin 70 := by
  obtain ⟨t, t', hseventy, ht', hle⟩ := threshold_antitone h
  have hvalue : threshold MINVPNRTT = some (.fin 70) := by
    decide +kernel
  rw [hvalue, Option.some.injEq] at hseventy
  exact ⟨t', ht', hseventy ▸ hle⟩

theorem threshold_finite {c : Double} {q : ℚ} (hc : c.rat = some q) :
    threshold c = some (Double.reprint (Rounding.round (100 - q))) :=
  threshold_eq (Double.rat_eq_some.mp hc) (Double.subExtended_fin 100 q)

theorem reprint_round_intCast {n : Int} (h : n.natAbs < 10 ^ 14) :
    Double.reprint (Rounding.round n) = .fin n := by
  rw [Rounding.round_intCast (h.trans (by decide)), Double.reprint_intCast h]

/-- Rounding never leaves out what is in the sum. -/
theorem le_threshold {c : Double} {q : ℚ} (hc : c.rat = some q) {t : Score}
    (ht : threshold c = some t) {n : Int} (hn : n.natAbs < 10 ^ 14) (hsum : (n : ℚ) + q ≤ 100) :
    .fin n ≤ t := by
  rw [threshold_finite hc, Option.some.injEq] at ht
  rw [← ht, ← reprint_round_intCast hn]
  apply Double.reprint_mono
  apply Rounding.round_mono
  linarith

/-- For a whole round trip time the bound is exact. -/
theorem le_threshold_iff {c : Double} {m : Int} (hc : c.rat = some (m : ℚ)) {t : Score}
    (ht : threshold c = some t) {n : Int} (hn : n.natAbs + 1 < 10 ^ 14) :
    .fin n ≤ t ↔ n + m ≤ 100 := by
  constructor
  · intro hle
    by_contra hsum
    rw [threshold_finite hc, Option.some.injEq] at ht
    have hbelow : Double.reprint (Rounding.round ((100 : ℚ) - m)) ≤ .fin ((n - 1 : Int) : ℚ) := by
      rw [← reprint_round_intCast (n := n - 1) (by omega)]
      apply Double.reprint_mono
      apply Rounding.round_mono
      exact_mod_cast (by omega)
    rw [ht] at hbelow
    have hcast := Extended.fin_le_fin.mp (hle.trans hbelow)
    push_cast at hcast
    linarith
  · intro hsum
    exact le_threshold hc ht (by omega) (by exact_mod_cast hsum)

end Threshold

section Answers

variable {s : Store} {self : Self} {svpninfo : SvpnInfo} {c : Double}

/-- The checks of an accepted request, up to the activeid. -/
theorem answer_getGameIpListBySvpnInfo (svpninfo : SvpnInfo)
    (haccepts : Accepts s self.gameid self.regionid) :
    answer (getGameIpListBySvpnInfo self svpninfo) s =
      match s.hash VPN_ACTIVE_IP_TO_ID_DIC svpninfo.ip.tostring, svpninfo.rtt.tonumber with
      | none, _ => .ok .nil
      | some _, none => .error (.error "attempt to compare nil with number")
      | some vpn, some c =>
        if c < MINVPNRTT then .ok (.str "")
        else answer (fetchDetectData self svpninfo vpn 1
          (Value.ofReply (s.hash (activeidKey vpn)
            (activeidField (numberText self.gameid) (numberText 1))))) s := by
  rw [getGameIpListBySvpnInfo, answer_validateGameRegion haccepts]
  simp only [answer_redisHashGet]
  cases s.hash VPN_ACTIVE_IP_TO_ID_DIC svpninfo.ip.tostring with
  | none => rfl
  | some vpn =>
    have hvpn : Value.ofReply (some vpn) ≠ .nil := Value.noConfusion
    simp only [if_neg hvpn]
    cases svpninfo.rtt.tonumber with
    | none => rfl
    | some c =>
      by_cases hnear : c < MINVPNRTT
      · simp [less, hnear]
      · simp [less, hnear, Value.ofReply, concatText]

theorem answer_fetchDetectData_active {vpn activeid : String} (hid : IsBufferId activeid)
    (hc : svpninfo.rtt.tonumber = some c) {t : Score} (ht : threshold c = some t) :
    answer (fetchDetectData self svpninfo vpn 1 (.str activeid)) s =
      .ok (.str ((String.singleton ',').intercalate
        ((s.zset (detectDataKey vpn (numberText self.gameid) (numberText 1)
          activeid)).rangeByScore (.fin 0) t))) := by
  have hzero : readBound (numberText 0) = some (.fin 0) := by
    decide +kernel
  have hbounds : ∀ z : SortedSet, z.rangeByBounds (numberText 0) (numberText (MAXTRANSRTT - c)) =
      some (z.rangeByScore (.fin 0) t) := by
    intro z
    unfold threshold at ht
    simp [SortedSet.rangeByBounds, hzero, ht]
  simp only [fetchDetectData, noActiveid_bufferId hid, hc, Bool.false_eq_true, if_false,
    concatText, Command.Program.done_bind, answer_zrangebyscore, hbounds, rangeReply_some,
    answer_done]

/-- A time that is NaN is sent as a bound that Redis refuses. -/
theorem answer_fetchDetectData_refused {vpn activeid : String} (hid : IsBufferId activeid)
    (hc : svpninfo.rtt.tonumber = some c) (ht : threshold c = none) :
    answer (fetchDetectData self svpninfo vpn 1 (.str activeid)) s = answer (rangeReply none) s := by
  have hbounds : ∀ z : SortedSet,
      z.rangeByBounds (numberText 0) (numberText (MAXTRANSRTT - c)) = none := by
    intro z
    unfold threshold at ht
    simp [SortedSet.rangeByBounds, ht]
  simp only [fetchDetectData, noActiveid_bufferId hid, hc, Bool.false_eq_true, if_false,
    concatText, Command.Program.done_bind, answer_zrangebyscore, hbounds]

/-- A text that is no activeid of a buffer is as good as none. -/
theorem answer_fetchDetectData_none {vpn : String} {reply : Option String}
    (hreply : ∀ text, reply = some text → IsActiveid text ∧ ¬IsBufferId text) :
    answer (fetchDetectData self svpninfo vpn 1 (Value.ofReply reply)) s = .ok .nil := by
  cases reply with
  | none => rfl
  | some text =>
    obtain ⟨hid, hbuffer⟩ := hreply text rfl
    have hminus : text = Numeral.decimal (-1) := hid.resolve_right hbuffer
    have hno : noActiveid (.str text) = true := by
      rw [hminus]
      decide +kernel
    simp only [fetchDetectData, Value.ofReply, hno, if_true]
    rfl

theorem answer_getGameIpListRedis (hself : self.svpninfo = some svpninfo) {value : Value}
    (hvalue : answer (getGameIpListBySvpnInfo self svpninfo) s = .ok value) :
    answer (getGameIpListRedis self) s =
      if value = .nil then answer (getGameIpListWithoutSvpnInfo self) s else .ok value := by
  unfold getGameIpListRedis
  rw [hself]
  simp only
  rw [answer_bind _ _ _ (only_getGameIpListBySvpnInfo self svpninfo), hvalue]
  by_cases hnil : value = .nil
  · simp only [if_pos hnil]
  · simp only [if_neg hnil]
    rfl

end Answers

section Paths

variable {db : Database} {s : Store} {self : Self} {svpninfo : SvpnInfo} {c : Double}

/-- The activeid that the requests of a game look at. -/
def lookedAt (s : Store) (vpn : String) (gameid : Double) : Option String :=
  s.hash (activeidKey vpn) (activeidField (numberText gameid) "1")

theorem numberText_one : numberText 1 = "1" := by
  decide +kernel

theorem answer_without_node (hself : self.svpninfo = some svpninfo)
    (haccepts : Accepts s self.gameid self.regionid)
    (hnode : s.hash VPN_ACTIVE_IP_TO_ID_DIC svpninfo.ip.tostring = none) :
    answer (getGameIpListRedis self) s = answer (getGameIpListWithoutSvpnInfo self) s := by
  have hvalue := answer_getGameIpListBySvpnInfo svpninfo haccepts
  rw [hnode] at hvalue
  rw [answer_getGameIpListRedis hself hvalue, if_pos rfl]

section Node

variable (hself : self.svpninfo = some svpninfo)
  (haccepts : Accepts s self.gameid self.regionid) (hc : svpninfo.rtt.tonumber = some c)
  {vpn : String} (hnode : s.hash VPN_ACTIVE_IP_TO_ID_DIC svpninfo.ip.tostring = some vpn)

include hself haccepts hc hnode

theorem answer_near (hnear : c < MINVPNRTT) :
    answer (getGameIpListRedis self) s = .ok (.str "") := by
  have hvalue := answer_getGameIpListBySvpnInfo svpninfo haccepts
  simp only [hnode, hc, if_pos hnear] at hvalue
  rw [answer_getGameIpListRedis hself hvalue, if_neg Value.noConfusion]

theorem answer_without_activeid (hs : Sound db s) (hfar : ¬c < MINVPNRTT)
    (hactive : ∀ text, lookedAt s vpn self.gameid = some text → ¬IsBufferId text) :
    answer (getGameIpListRedis self) s = answer (getGameIpListWithoutSvpnInfo self) s := by
  have hvalue := answer_getGameIpListBySvpnInfo svpninfo haccepts
  have hreply : ∀ text, lookedAt s vpn self.gameid = some text →
      IsActiveid text ∧ ¬IsBufferId text := by
    intro text htext
    exact ⟨(hs.activeid_registered _ _ _ htext).1, hactive text htext⟩
  have hnone : answer (fetchDetectData self svpninfo vpn 1
      (Value.ofReply (lookedAt s vpn self.gameid))) s = .ok .nil :=
    answer_fetchDetectData_none hreply
  simp only [hnode, hc, if_neg hfar, numberText_one] at hvalue
  rw [answer_getGameIpListRedis hself (hvalue.trans hnone), if_pos rfl]

theorem answer_with_activeid (hfar : ¬c < MINVPNRTT) {activeid : String}
    (hactive : lookedAt s vpn self.gameid = some activeid) (hid : IsBufferId activeid)
    {t : Score} (ht : threshold c = some t) :
    answer (getGameIpListRedis self) s = .ok (.str ((String.singleton ',').intercalate
      ((s.zset (detectDataKey vpn (numberText self.gameid) "1" activeid)).rangeByScore
        (.fin 0) t))) := by
  have hvalue := answer_getGameIpListBySvpnInfo svpninfo haccepts
  unfold lookedAt at hactive
  simp only [hnode, hc, if_neg hfar, numberText_one, hactive, Value.ofReply] at hvalue
  rw [answer_fetchDetectData_active hid hc ht, numberText_one] at hvalue
  rw [answer_getGameIpListRedis hself hvalue, if_neg Value.noConfusion]

theorem answer_refused (hfar : ¬c < MINVPNRTT) {activeid : String}
    (hactive : lookedAt s vpn self.gameid = some activeid) (hid : IsBufferId activeid)
    (ht : threshold c = none) : ∃ e, answer (getGameIpListRedis self) s = .error e := by
  have hvalue := answer_getGameIpListBySvpnInfo svpninfo haccepts
  unfold lookedAt at hactive
  simp only [hnode, hc, if_neg hfar, numberText_one, hactive, Value.ofReply] at hvalue
  rw [answer_fetchDetectData_refused hid hc ht] at hvalue
  unfold getGameIpListRedis
  rw [hself]
  simp only
  rw [answer_bind _ _ _ (only_getGameIpListBySvpnInfo self svpninfo), hvalue]
  exact ⟨_, rfl⟩

end Node

end Paths

section Lists

variable {db : Database} {calls : List (Report × CallEnd)} {s : Store}

/-- A record may be shown for a bound. -/
def Shown (t : Score) (d : Detect) : Prop := 0 ≤ d.rtt ∧ .fin d.rtt ≤ t

instance (t : Score) (d : Detect) : Decidable (Shown t d) :=
  inferInstanceAs (Decidable (_ ∧ _))

/-- The records a request with this bound is answered with, nearest first. -/
def Accelerated (detects : List Detect) (t : Score) (text : String) : Prop :=
  ∃ shown : List Detect,
    shown.Perm (detects.filter (Shown t)) ∧
    shown.Pairwise (fun a b => a.rtt ≤ b.rtt) ∧
    text = (String.singleton ',').intercalate (shown.map Detect.member)

theorem MINVPNRTT_le {c : Double} {q : ℚ} (hfar : MINVPNRTT ≤ c) (hc : c.rat = some q) :
    30 ≤ q := by
  have hmin := Double.extended_ofInt (n := 30) (by decide)
  rw [Int.cast_ofNat] at hmin
  exact Extended.fin_le_fin.mp ((Double.le_iff hmin (Double.rat_eq_some.mp hc)).mp hfar)

theorem shown_of_sum {c : Double} {q : ℚ} (hfar : MINVPNRTT ≤ c) (hc : c.rat = some q)
    {t : Score} (ht : threshold c = some t) {d : Detect} (hpositive : 0 ≤ d.rtt)
    (hsum : d.rtt + q ≤ 100) : Shown t d := by
  have hq := MINVPNRTT_le hfar hc
  have hsmall : d.rtt ≤ 70 := by
    have hcast : (d.rtt : ℚ) ≤ 70 := by
      linarith
    exact_mod_cast hcast
  exact ⟨hpositive, le_threshold hc ht (by omega) hsum⟩

theorem shown_iff {c : Double} {n : Int} (hfar : MINVPNRTT ≤ c) (hc : c.rat = some (n : ℚ))
    {t : Score} (ht : threshold c = some t) {d : Detect} :
    Shown t d ↔ 0 ≤ d.rtt ∧ d.rtt + n ≤ 100 := by
  have hn : 30 ≤ n := by
    exact_mod_cast MINVPNRTT_le hfar hc
  apply and_congr_right
  intro hpositive
  by_cases hsmall : d.rtt ≤ 70
  · exact le_threshold_iff hc ht (by omega)
  · obtain ⟨t', ht', hle⟩ := threshold_le hfar
    obtain rfl := Option.some.inj (ht.symm.trans ht')
    refine iff_of_false ?_ (by omega)
    intro habove
    have hcast : d.rtt ≤ 70 := by
      exact_mod_cast Extended.fin_le_fin.mp (habove.trans hle)
    exact hsmall hcast

theorem detects_score {report : Report} {detects : List Detect}
    (h : report.detects = some detects) : ∀ d ∈ detects, d.score = Rounding.round d.rtt := by
  intro d hd
  obtain ⟨_, _, _, _, hread⟩ := report.mem_detects h hd
  exact readDetect_score hread

theorem detects_member {report : Report} {detects : List Detect}
    (h : report.detects = some detects) :
    ∀ d ∈ detects, Free ',' d.member ∧ d.member ≠ "" := by
  intro d hd
  obtain ⟨_, _, _, hmem, hread⟩ := report.mem_detects h hd
  exact readDetect_member hread (free_of_mem_split hmem)

/-- Below a bound that requests can have, scores are round trip times. -/
theorem score_le_iff {d : Detect} (hscore : d.score = Rounding.round d.rtt) {t : Score}
    (ht : t ≤ .fin 70) : .fin 0 ≤ d.score ∧ d.score ≤ t ↔ Shown t d := by
  have hzero : .fin 0 ≤ d.score ↔ 0 ≤ d.rtt := by
    have hle := Rounding.intCast_le_round (n := d.rtt) (m := 0) (by decide)
    rwa [Int.cast_zero, ← hscore] at hle
  rw [hzero, Shown]
  apply and_congr_right
  intro hpositive
  by_cases hsmall : d.rtt ≤ 70
  · rw [hscore, Rounding.round_intCast (by omega)]
  · have habove : ∀ y : Score, .fin ((71 : Int) : ℚ) ≤ y → ¬y ≤ t := by
      intro y hy hle
      have hcast := Extended.fin_le_fin.mp (hy.trans (hle.trans ht))
      norm_num at hcast
    have hround := (Rounding.intCast_le_round (n := d.rtt) (m := 71) (by decide)).mpr (by omega)
    rw [← hscore] at hround
    have hrtt : .fin ((71 : Int) : ℚ) ≤ Extended.fin (d.rtt : ℚ) :=
      Extended.fin_le_fin.mpr (by exact_mod_cast (by omega))
    exact iff_of_false (habove _ hround) (habove _ hrtt)

theorem Shown.score {d : Detect} (hscore : d.score = Rounding.round d.rtt) {t : Score}
    (ht : t ≤ .fin 70) (h : Shown t d) : d.score = .fin d.rtt := by
  have hle := Extended.fin_le_fin.mp (h.2.trans ht)
  have hsmall : d.rtt ≤ 70 := by
    exact_mod_cast hle
  have hpositive := h.1
  rw [hscore, Rounding.round_intCast (by omega)]

/-- A request with a round trip time to the node gets the records of a buffer. -/
theorem accelerated_of_contents {report : Report} {detects : List Detect}
    (h : report.detects = some detects) (hdistinct : (detects.map Detect.member).Nodup)
    {t : Score} (ht : t ≤ .fin 70) :
    Accelerated detects t ((String.singleton ',').intercalate
      ((contents detects).rangeByScore (.fin 0) t)) := by
  have hscore := detects_score h
  have hwithin : within detects t = detects.filter (Shown t) := by
    apply List.filter_congr
    intro d hd
    exact decide_eq_decide.mpr (score_le_iff (hscore d hd) ht)
  have hperm : (ranked detects t).Perm (detects.filter (Shown t)) := by
    rw [← hwithin]
    exact ranked_perm detects t
  refine ⟨ranked detects t, hperm, ?_, by rw [rangeByScore_contents _ hdistinct]⟩
  have hvalue : ∀ d ∈ ranked detects t, d.score = .fin d.rtt := by
    intro d hd
    have hfilter := List.mem_filter.mp (hperm.mem_iff.mp hd)
    exact (of_decide_eq_true hfilter.2).score (hscore d hfilter.1) ht
  apply (ranked_ascending t hdistinct).imp_of_mem
  intro a b ha hb hle
  rw [hvalue a ha, hvalue b hb, Extended.fin_le_fin] at hle
  exact_mod_cast hle

/-- No list names an address that was recorded as unreachable. -/
theorem Accelerated.reachable {report : Report} {detects : List Detect} {t : Score}
    {text : String} (h : Accelerated detects t text) (hdetects : report.detects = some detects)
    (hdistinct : (detects.map Detect.member).Nodup) (ht : t ≤ .fin 70) :
    ∀ d ∈ detects, d.rtt = AVA_INF → d.member ∉ fields ',' text := by
  obtain ⟨shown, hperm, _, rfl⟩ := h
  intro d hd hunreachable hmem
  have hshown : ∀ d' ∈ shown, d' ∈ detects ∧ Shown t d' := by
    intro d' hd'
    have hfilter := List.mem_filter.mp (hperm.mem_iff.mp hd')
    exact ⟨hfilter.1, of_decide_eq_true hfilter.2⟩
  have hmember := detects_member hdetects
  rw [fields_intercalate] at hmem
  · obtain ⟨d', hd', hsame⟩ := List.mem_map.mp hmem
    obtain ⟨hd'detects, _, hrtt⟩ := hshown d' hd'
    obtain rfl := List.inj_on_of_nodup_map hdistinct hd'detects hd hsame
    rw [hunreachable] at hrtt
    have hcast := Extended.fin_le_fin.mp (hrtt.trans ht)
    norm_num [AVA_INF] at hcast
  · intro part hpart
    obtain ⟨d', hd', rfl⟩ := List.mem_map.mp hpart
    exact (hmember d' (hshown d' hd').1).1
  · intro part hpart
    obtain ⟨d', hd', rfl⟩ := List.mem_map.mp hpart
    exact (hmember d' (hshown d' hd').1).2

theorem rangeByScore_fields {report : Report} {detects : List Detect}
    (h : report.detects = some detects) (max : Score) :
    fields ',' ((String.singleton ',').intercalate ((contents detects).rangeByScore (.fin 0) max)) =
      (contents detects).rangeByScore (.fin 0) max := by
  have hmember : ∀ m ∈ (contents detects).rangeByScore (.fin 0) max, Free ',' m ∧ m ≠ "" := by
    intro m hm
    obtain ⟨q, hentry, _⟩ := SortedSet.mem_rangeByScore.mp hm
    obtain ⟨d, hd, heq⟩ := mem_contents hentry
    rw [(Prod.mk.inj heq).1]
    exact detects_member h d hd
  exact fields_intercalate (fun m hm => (hmember m hm).1) (fun m hm => (hmember m hm).2)

/-- A request from farther away gets less. -/
theorem rangeByScore_subset (z : SortedSet) {max max' : Score} (h : max' ≤ max) :
    ∀ m ∈ z.rangeByScore (.fin 0) max', m ∈ z.rangeByScore (.fin 0) max := by
  intro m hm
  obtain ⟨q, hentry, hmin, hmax⟩ := SortedSet.mem_rangeByScore.mp hm
  exact SortedSet.mem_rangeByScore.mpr ⟨q, hentry, hmin, hmax.trans h⟩

/-- A request from farther away, to the same node, adds no address. -/
theorem farther_subset (h : History db calls s) {self : Self} {svpninfo farther : SvpnInfo}
    {c c' : Double} {text text' : String} (hself : self.svpninfo = some svpninfo)
    (hc : svpninfo.rtt.tonumber = some c) (haccepts : Accepts s self.gameid self.regionid)
    (hip : farther.ip = svpninfo.ip) (hc' : farther.rtt.tonumber = some c') (hfar : MINVPNRTT ≤ c)
    (hle : c ≤ c') (htext : answer (getGameIpListRedis self) s = .ok (.str text))
    (htext' : answer (getGameIpListRedis { self with svpninfo := some farther }) s =
      .ok (.str text')) :
    ∀ address ∈ fields ',' text', address ∈ fields ',' text := by
  have hself' : ({ self with svpninfo := some farther } : Self).svpninfo = some farther := rfl
  have hfarc : ¬c < MINVPNRTT := Double.not_lt hfar
  have hfarc' : ¬c' < MINVPNRTT := Double.not_lt (Double.le_trans hfar hle)
  obtain ⟨t, t', ht, ht', htle⟩ := threshold_antitone hle
  -- The static list does not depend on the node.
  have hstatic : answer (getGameIpListRedis self) s =
        answer (getGameIpListWithoutSvpnInfo self) s →
      answer (getGameIpListRedis { self with svpninfo := some farther }) s =
        answer (getGameIpListWithoutSvpnInfo self) s →
      ∀ address ∈ fields ',' text', address ∈ fields ',' text := by
    intro hnear hfurther address hmem
    rw [hnear] at htext
    rw [hfurther, htext] at htext'
    rwa [Value.str.inj (Except.ok.inj htext')]
  cases hnode : s.hash VPN_ACTIVE_IP_TO_ID_DIC svpninfo.ip.tostring with
  | none =>
    have hnode' : s.hash VPN_ACTIVE_IP_TO_ID_DIC farther.ip.tostring = none := by
      rw [hip, hnode]
    exact hstatic (answer_without_node hself haccepts hnode)
      (answer_without_node hself' haccepts hnode')
  | some vpn =>
    have hnode' : s.hash VPN_ACTIVE_IP_TO_ID_DIC farther.ip.tostring = some vpn := by
      rw [hip, hnode]
    by_cases hactive : ∀ id, lookedAt s vpn self.gameid = some id → ¬IsBufferId id
    · exact hstatic (answer_without_activeid hself haccepts hc hnode h.sound hfarc hactive)
        (answer_without_activeid hself' haccepts hc' hnode' h.sound hfarc' hactive)
    · push Not at hactive
      obtain ⟨activeid, hactive, hid⟩ := hactive
      obtain ⟨report, detects, _, hdetects, hcontents⟩ := history_buffer h hactive hid
      rw [answer_with_activeid hself haccepts hc hnode hfarc hactive hid ht, hcontents] at htext
      rw [answer_with_activeid hself' haccepts hc' hnode' hfarc' hactive hid ht',
        hcontents] at htext'
      rw [← Value.str.inj (Except.ok.inj htext), ← Value.str.inj (Except.ok.inj htext'),
        rangeByScore_fields hdetects, rangeByScore_fields hdetects]
      exact rangeByScore_subset _ htle

end Lists

/-- The accelerated list, for a request about region 0 or 1 with a node in it.
Without the node, or without a buffer, the request gets the static list; near the
node it gets the empty text; otherwise it gets the records of the last published
report up to the bound it sends, nearest first. No record within 100 of the
request's time is left out, and for a whole time there are no others. Unreachable
addresses are never among them, and from farther away no address is added. -/
theorem accelerated_list {db : Database} {calls : List (Report × CallEnd)} {s : Store}
    (h : History db calls s) {self : Self} {svpninfo : SvpnInfo} {c : Double}
    (hself : self.svpninfo = some svpninfo) (hc : svpninfo.rtt.tonumber = some c)
    (haccepts : Accepts s self.gameid self.regionid) :
    (s.hash VPN_ACTIVE_IP_TO_ID_DIC svpninfo.ip.tostring = none →
      answer (getGameIpListRedis self) s = answer (getGameIpListWithoutSvpnInfo self) s) ∧
    (∀ vpn, s.hash VPN_ACTIVE_IP_TO_ID_DIC svpninfo.ip.tostring = some vpn →
      (c < 30 → answer (getGameIpListRedis self) s = .ok (.str "")) ∧
      (30 ≤ c → (∀ text, lookedAt s vpn self.gameid = some text → ¬IsBufferId text) →
        answer (getGameIpListRedis self) s = answer (getGameIpListWithoutSvpnInfo self) s) ∧
      (30 ≤ c → ∀ activeid, lookedAt s vpn self.gameid = some activeid → IsBufferId activeid →
        ∃ report detects t, lastPublished calls vpn (numberText self.gameid) "1" = some report ∧
          report.detects = some detects ∧ threshold c = some t ∧
          (∀ q, c.rat = some q → ∀ d ∈ detects, 0 ≤ d.rtt → d.rtt + q ≤ 100 → Shown t d) ∧
          (∀ n : Int, c.rat = some (n : ℚ) → ∀ d ∈ detects,
            Shown t d ↔ 0 ≤ d.rtt ∧ d.rtt + n ≤ 100) ∧
          ((detects.map Detect.member).Nodup →
            ∃ text, answer (getGameIpListRedis self) s = .ok (.str text) ∧
              Accelerated detects t text ∧
              ∀ d ∈ detects, d.rtt = AVA_INF → d.member ∉ fields ',' text))) ∧
    (∀ farther : SvpnInfo, ∀ c' text text',
      farther.ip = svpninfo.ip → farther.rtt.tonumber = some c' → 30 ≤ c → c ≤ c' →
      answer (getGameIpListRedis self) s = .ok (.str text) →
      answer (getGameIpListRedis { self with svpninfo := some farther }) s =
        .ok (.str text') →
      ∀ address ∈ fields ',' text', address ∈ fields ',' text) := by
  refine ⟨answer_without_node hself haccepts, ?_, ?_⟩
  · intro vpn hnode
    refine ⟨answer_near hself haccepts hc hnode, ?_, ?_⟩
    · intro hfar
      exact answer_without_activeid hself haccepts hc hnode h.sound (Double.not_lt hfar)
    · intro hfar activeid hactive hid
      obtain ⟨report, detects, hlast, hdetects, hcontents⟩ := history_buffer h hactive hid
      obtain ⟨t, ht, htle⟩ := threshold_le hfar
      refine ⟨report, detects, t, hlast, hdetects, ht, ?_, ?_, ?_⟩
      · intro q hq d _ hpositive hsum
        exact shown_of_sum hfar hq ht hpositive hsum
      · intro n hn d _
        exact shown_iff hfar hn ht
      · intro hdistinct
        have haccelerated := accelerated_of_contents hdetects hdistinct htle
        refine ⟨_, ?_, haccelerated, ?_⟩
        · rw [← hcontents]
          exact answer_with_activeid hself haccepts hc hnode (Double.not_lt hfar) hactive hid ht
        · exact haccelerated.reachable hdetects hdistinct htle
  · intro farther c' text text' hip hc' hfar hle htext htext'
    exact farther_subset h hself hc haccepts hip hc' hfar hle htext htext'

/-- A request to the node of the small database. -/
def nodeRequest (rtt : Double) : Self := ⟨5, 0, some (nodeInfo rtt)⟩

theorem nodeRequest_gameid (rtt : Double) : numberText (nodeRequest rtt).gameid = "5" := by
  have hfive : numberText 5 = "5" := by
    decide +kernel
  exact hfive

theorem nodeRequest_accepts {s : Store} (hs : Sound (oneGame [1]) s) (rtt : Double) :
    Accepts s (nodeRequest rtt).gameid (nodeRequest rtt).regionid := by
  constructor
  · rw [nodeRequest_gameid, hs.activeGameids]
    exact oneGame_active [1]
  · have hzero : (0 : Double).rat = some 0 := by
      decide +kernel
    exact fun hne => absurd hzero hne

section NodeRequest

variable {s : Store} {activeid : String} {c : Double}
  (hhistory : History (oneGame [1]) [(oneReport 40, .returned .published)] s)
  (hactive : s.hash (activeidKey "1") (activeidField "5" "1") = some activeid)

include hhistory hactive

/-- The one report of the small database is the one the request looks at. -/
theorem nodeRequest_looks (c : Double) :
    s.hash VPN_ACTIVE_IP_TO_ID_DIC "10.0.0.1" = some "1" ∧
      Accepts s (nodeRequest c).gameid (nodeRequest c).regionid ∧
      lookedAt s "1" (nodeRequest c).gameid = some activeid := by
  refine ⟨?_, nodeRequest_accepts hhistory.sound c, ?_⟩
  · rw [hhistory.sound.vpnIps]
    exact oneGame_vpnIp [1]
  · rw [lookedAt, nodeRequest_gameid, hactive]

theorem nodeRequest_answer (hid : IsBufferId activeid) (hfar : MINVPNRTT ≤ c) {t : Score}
    (ht : threshold c = some t) (hshown : Shown t (oneRecord 40).detect) :
    answer (getGameIpListRedis (nodeRequest c)) s = .ok (.str (oneRecord 40).member) := by
  obtain ⟨hnode, haccepts, hlooked⟩ := nodeRequest_looks hhistory hactive c
  obtain ⟨report, detects, hlast, hdetects, hcontents⟩ := history_buffer hhistory hlooked hid
  rw [nodeRequest_gameid] at hlast hcontents
  obtain rfl := Option.some.inj ((oneReport_last CallEnd.publishes rfl 40).symm.trans hlast)
  obtain rfl := Option.some.inj ((oneReport_detects 40 (by decide)).symm.trans hdetects)
  obtain ⟨t', ht', hle⟩ := threshold_le hfar
  obtain rfl := Option.some.inj (ht.symm.trans ht')
  obtain ⟨shown, hperm, _, htext⟩ :=
    accelerated_of_contents hdetects (List.nodup_singleton _) hle
  have hself : (nodeRequest c).svpninfo = some (nodeInfo c) := rfl
  rw [answer_with_activeid hself haccepts (Value.tonumber_num c) hnode (Double.not_lt hfar)
    hlooked hid ht, nodeRequest_gameid, hcontents, htext]
  have hone : [(oneRecord 40).detect].filter (Shown t) = [(oneRecord 40).detect] := by
    apply List.filter_eq_self.mpr
    intro d hd
    rw [List.mem_singleton.mp hd]
    exact decide_eq_true hshown
  rw [hone, List.perm_singleton] at hperm
  rw [hperm]
  rfl

end NodeRequest

/-- The one record of the report is within the threshold. -/
theorem accelerated_list_one_report :
    ∃ s, History (oneGame [1]) [(oneReport 40, .returned .published)] s ∧
      ∃ text, answer (getGameIpListRedis (nodeRequest 40)) s = .ok (.str text) ∧
        Accelerated [(oneRecord 40).detect] (.fin 60) text := by
  obtain ⟨s, activeid, hhistory, hactive, hid⟩ := oneReport_history 40 (by decide)
  obtain ⟨hnode, haccepts, hlooked⟩ := nodeRequest_looks hhistory hactive 40
  obtain ⟨_, hlist, _⟩ := accelerated_list hhistory rfl (Value.tonumber_num 40) haccepts
  have hfar : (30 : Double) ≤ 40 := by
    decide +kernel
  obtain ⟨report, detects, t, hlast, hdetects, ht, _, _, hshown⟩ :=
    (hlist "1" hnode).2.2 hfar activeid hlooked hid
  rw [nodeRequest_gameid] at hlast
  obtain rfl := Option.some.inj ((oneReport_last CallEnd.publishes rfl 40).symm.trans hlast)
  obtain rfl := Option.some.inj ((oneReport_detects 40 (by decide)).symm.trans hdetects)
  have hsixty : threshold 40 = some (.fin 60) := by
    decide +kernel
  obtain rfl := Option.some.inj (hsixty.symm.trans ht)
  obtain ⟨text, hanswer, haccelerated, _⟩ := hshown (List.nodup_singleton _)
  exact ⟨s, hhistory, text, hanswer, haccelerated⟩

/-- The mean of five pings just above 60: the bound is sent as 40, so the record
is listed although the two times add up to more than 100. -/
theorem rounded_threshold :
    ∃ s c q, History (oneGame [1]) [(oneReport 40, .returned .published)] s ∧
      Double.rat c = some q ∧ 100 < 40 + q ∧
      answer (getGameIpListRedis (nodeRequest c)) s = .ok (.str (oneRecord 40).member) := by
  obtain ⟨s, activeid, hhistory, hactive, hid⟩ := oneReport_history 40 (by decide)
  have hfar : MINVPNRTT ≤ .ofRat 60.000000000000014 := by
    decide +kernel
  have ht : threshold (.ofRat 60.000000000000014) = some (.fin 40) := by
    decide +kernel
  have hq : ∃ q ∈ (Double.ofRat 60.000000000000014).rat, 100 < 40 + q := by
    decide +kernel
  obtain ⟨q, hq, hsum⟩ := hq
  exact ⟨s, _, q, hhistory, hq, hsum,
    nodeRequest_answer hhistory hactive hid hfar ht (by decide +kernel)⟩

end GameAcc.Lua.GameListPortText
