import GameAcc.Ppp.FsmAgreement
import GameAcc.Ppp.Ipv6cp

/-!
Two ends that run IPV6CP. What it acknowledges it keeps as the peer's identifier,
which is neither zero nor its own, and nothing else it does touches what it asks
for; so where both ends are opened each knows the identifier of the other, and the
two differ.
-/

namespace GameAcc.Ppp

theorem Eui64.get_bytes (id : Eui64) (rest : List UInt8) : Eui64.get (id.bytes ++ rest) = id := by
  have hbytes : ((id.bytes ++ rest) ++ Eui64.zero.bytes).take 8 = id.bytes := by
    rw [List.append_assoc, List.take_append_of_le_length (by rw [id.length_bytes]),
      List.take_of_length_le (by rw [id.length_bytes])]
  cases id
  simpa [Eui64.get] using hbytes

theorem ifaceidOption_length (id : Eui64) : (ifaceidOption id).length = 10 := by
  simp [ifaceidOption, id.length_bytes]

theorem ipv6cpAddci_length (got : Ipv6cpOptions) : (ipv6cpAddci got).length ≤ 14 := by
  unfold ipv6cpAddci
  cases got.negIfaceid <;> cases got.negVj <;> simp [ifaceidOption_length, compressOption]

/-- What is asked for can be read off a request. -/
theorem ipv6cpAddci_inj {got got' : Ipv6cpOptions} (h : ipv6cpAddci got = ipv6cpAddci got') :
    got.negIfaceid = got'.negIfaceid ∧
      (got.negIfaceid = true → got.ourid = got'.ourid) := by
  have hid : ∀ rest rest' : List UInt8,
      ifaceidOption got.ourid ++ rest = ifaceidOption got'.ourid ++ rest' →
      got.ourid = got'.ourid := by
    intro rest rest' heq
    simp only [ifaceidOption, List.cons_append, List.nil_append, List.cons.injEq, true_and] at heq
    rw [← Eui64.get_bytes got.ourid rest, heq, Eui64.get_bytes]
  unfold ipv6cpAddci at h
  cases hneg : got.negIfaceid <;> cases hneg' : got'.negIfaceid <;>
    simp only [hneg, hneg', if_true, Bool.false_eq_true, if_false] at h
  · simp
  · cases hvj : got.negVj <;>
      simp [hvj, ifaceidOption, compressOption, ciIfaceid, ciCompresstype] at h
  · cases hvj : got'.negVj <;>
      simp [hvj, ifaceidOption, compressOption, ciIfaceid, ciCompresstype] at h
  · exact ⟨rfl, fun _ => hid _ _ h⟩

/-- One option is taken from a request. -/
theorem reqOptions_cons (reject : Bool) (fuel : Nat) (c : Ipv6cp) (rc : Verdict)
    (out : List UInt8) (citype cilen : UInt8) (rest : List UInt8) :
    reqOptions reject (fuel + 1) c rc out (citype :: cilen :: rest) =
      if cilen < 2 || cilen.toNat > (citype :: cilen :: rest).length then
        ((collect reject rc out .rej (citype :: cilen :: rest)).1,
          (collect reject rc out .rej (citype :: cilen :: rest)).2, c)
      else
        reqOptions reject fuel (reqOption c ((citype :: cilen :: rest).take cilen.toNat)).2.2
          (collect reject rc out
            (reqOption c ((citype :: cilen :: rest).take cilen.toNat)).1
            (reqOption c ((citype :: cilen :: rest).take cilen.toNat)).2.1).1
          (collect reject rc out
            (reqOption c ((citype :: cilen :: rest).take cilen.toNat)).1
            (reqOption c ((citype :: cilen :: rest).take cilen.toNat)).2.1).2
          ((citype :: cilen :: rest).drop cilen.toNat) := rfl

/-- Nothing that a request depends on has changed. -/
structure SameOurs (c c' : Ipv6cp) : Prop where
  negIfaceid : c'.got.negIfaceid = c.got.negIfaceid
  negVj : c'.got.negVj = c.got.negVj
  vjProtocol : c'.got.vjProtocol = c.got.vjProtocol
  ourid : c'.got.ourid = c.got.ourid

namespace SameOurs

variable {c c' c'' : Ipv6cp}

theorem refl (c : Ipv6cp) : SameOurs c c := ⟨rfl, rfl, rfl, rfl⟩

theorem trans (h : SameOurs c c') (h' : SameOurs c' c'') : SameOurs c c'' :=
  ⟨h'.negIfaceid.trans h.negIfaceid, h'.negVj.trans h.negVj, h'.vjProtocol.trans h.vjProtocol,
    h'.ourid.trans h.ourid⟩

theorem request (h : SameOurs c c') : ipv6cpAddci c'.got = ipv6cpAddci c.got := by
  simp only [ipv6cpAddci, h.negIfaceid, h.negVj, h.vjProtocol, h.ourid]

theorem redraw (c : Ipv6cp) (id avoid : Eui64) : SameOurs c (c.redraw id avoid).2 := by
  unfold Ipv6cp.redraw
  split
  · exact ⟨rfl, rfl, rfl, rfl⟩
  · exact .refl c

theorem reqOption (c : Ipv6cp) (option : List UInt8) :
    SameOurs c (Ppp.reqOption c option).2.2 := by
  simp only [Ppp.reqOption]
  split
  · exact .refl c
  · split
    · exact .refl c
    · split
      · exact .refl c
      · split
        · exact ⟨rfl, rfl, rfl, rfl⟩
        · split
          · have hdraw := redraw c
              (if c.got.hisid = .zero then c.want.hisid else Eui64.get (option.drop 2)) c.got.ourid
            exact ⟨hdraw.negIfaceid, hdraw.negVj, hdraw.vjProtocol, hdraw.ourid⟩
          · exact ⟨rfl, rfl, rfl, rfl⟩

theorem reqOptions (reject : Bool) (fuel : Nat) (c : Ipv6cp) (rc : Verdict) (out p : List UInt8) :
    SameOurs c (Ppp.reqOptions reject fuel c rc out p).2.2 := by
  induction fuel generalizing c rc out p with
  | zero => rcases p with _ | ⟨_, _ | _⟩ <;> exact .refl c
  | succ fuel ih =>
    match p with
    | [] => exact .refl c
    | [_] => exact .refl c
    | citype :: cilen :: rest =>
      rw [reqOptions_cons]
      split
      · exact .refl c
      · exact (reqOption c _).trans (ih _ _ _ _)

end SameOurs

/-- A verdict never gets better. -/
theorem collect_ack {reject : Bool} {rc orc : Verdict} {out option : List UInt8}
    (h : (collect reject rc out orc option).1 = .ack) :
    rc = .ack ∧ orc = .ack ∧ (collect reject rc out orc option).2 = out ++ option := by
  unfold collect at h ⊢
  cases rc <;> cases orc <;> cases reject <;> simp_all

/-- An acknowledged option is an identifier, neither zero nor our own, and it is
taken down as the peer's. -/
theorem reqOption_ack {c : Ipv6cp} {option : List UInt8} (h : (reqOption c option).1 = .ack) :
    (reqOption c option).2.1 = option ∧ option.getD 0 0 = ciIfaceid ∧
      Eui64.get (option.drop 2) ≠ .zero ∧ Eui64.get (option.drop 2) ≠ c.got.ourid ∧
      (reqOption c option).2.2.his.negIfaceid = true ∧
      (reqOption c option).2.2.his.hisid = Eui64.get (option.drop 2) := by
  simp only [reqOption] at h ⊢
  split at h
  · cases h
  · rename_i htype
    rw [if_neg htype]
    split at h
    · cases h
    · rename_i hallow
      rw [if_neg hallow]
      split at h
      · cases h
      · rename_i hzero
        rw [if_neg hzero]
        split at h
        · cases h
        · rename_i hwant
          rw [if_neg hwant]
          split at h
          · cases h
          · rename_i hours
            rw [if_neg hours]
            simp only [Bool.or_eq_true, decide_eq_true_eq, not_or] at hours
            exact ⟨rfl, by simpa using htype, hours.1, hours.2, rfl, rfl⟩

/-- Nothing is left over when the fuel ends. -/
theorem reqOptions_zero {reject : Bool} {c : Ipv6cp} {rc : Verdict} {out p : List UInt8}
    (hp : p ≠ []) : (reqOptions reject 0 c rc out p).1 ≠ .ack := by
  intro h
  match p with
  | [] => exact hp rfl
  | [_] => cases (collect_ack h).2.1
  | _ :: _ :: _ => cases (collect_ack h).2.1

/-- What is acknowledged is sent back as it came. -/
theorem reqOptions_ack {reject : Bool} {fuel : Nat} {c : Ipv6cp} {rc : Verdict}
    {out p : List UInt8} (h : (reqOptions reject fuel c rc out p).1 = .ack) :
    rc = .ack ∧ (reqOptions reject fuel c rc out p).2.1 = out ++ p := by
  induction fuel generalizing c rc out p with
  | zero =>
    match p with
    | [] => exact ⟨h, by simp [reqOptions]⟩
    | _ :: _ => exact absurd h (reqOptions_zero (by simp))
  | succ fuel ih =>
    match p with
    | [] => exact ⟨h, by simp [reqOptions]⟩
    | [_] => cases (collect_ack h).2.1
    | citype :: cilen :: rest =>
      rw [reqOptions_cons] at h ⊢
      split at h
      · cases (collect_ack h).2.1
      · rename_i hgood
        rw [if_neg hgood]
        obtain ⟨hcollect, hout⟩ := ih h
        obtain ⟨hrc, horc, hcollected⟩ := collect_ack hcollect
        refine ⟨hrc, ?_⟩
        rw [hout, hcollected, (reqOption_ack horc).1, List.append_assoc, List.take_append_drop]

/-- A request of our kind that is acknowledged asks for no compression. -/
theorem reqOptions_request {reject : Bool} {fuel : Nat} {c : Ipv6cp} {got : Ipv6cpOptions}
    (h : (reqOptions reject fuel c .ack [] (ipv6cpAddci got)).1 = .ack) :
    got.negVj = false ∧ (got.negIfaceid = true → got.ourid ≠ .zero ∧ got.ourid ≠ c.got.ourid ∧
      (reqOptions reject fuel c .ack [] (ipv6cpAddci got)).2.2.his.negIfaceid = true ∧
      (reqOptions reject fuel c .ack [] (ipv6cpAddci got)).2.2.his.hisid = got.ourid) := by
  have hvj : ∀ (fuel : Nat) (c : Ipv6cp) (rc : Verdict) (out : List UInt8),
      (reqOptions reject fuel c rc out (compressOption got.vjProtocol)).1 ≠ .ack := by
    intro fuel c rc out hack
    cases fuel with
    | zero => exact reqOptions_zero (by simp [compressOption]) hack
    | succ fuel =>
      rw [compressOption, reqOptions_cons] at hack
      split at hack
      · cases (collect_ack hack).2.1
      · cases (reqOption_ack (collect_ack (reqOptions_ack hack).1).2.1).2.1
  cases hneg : got.negIfaceid with
  | false =>
    cases hcomp : got.negVj with
    | false => simp
    | true =>
      simp only [ipv6cpAddci, hneg, hcomp, if_true, Bool.false_eq_true, if_false,
        List.nil_append] at h
      exact absurd h (hvj fuel c .ack [])
  | true =>
    have hsplit : ∀ tail : List UInt8,
        (ifaceidOption got.ourid ++ tail).take cilenIfaceid.toNat = ifaceidOption got.ourid ∧
          (ifaceidOption got.ourid ++ tail).drop cilenIfaceid.toNat = tail := by
      intro tail
      have hten := ifaceidOption_length got.ourid
      exact ⟨List.take_left' hten, List.drop_left' hten⟩
    have hgood : ∀ tail : List UInt8,
        ¬ (cilenIfaceid < 2 || cilenIfaceid.toNat >
          (ciIfaceid :: cilenIfaceid :: (got.ourid.bytes ++ tail)).length) = true := by
      intro tail
      have hbytes := got.ourid.length_bytes
      simp only [List.length_cons, List.length_append, hbytes, Bool.or_eq_true, decide_eq_true_eq,
        not_or]
      refine ⟨by decide, ?_⟩
      simp only [cilenIfaceid]
      show ¬ 10 > 8 + tail.length + 1 + 1
      omega
    have hstep : ∀ (fuel : Nat) (tail : List UInt8),
        reqOptions reject (fuel + 1) c .ack [] (ifaceidOption got.ourid ++ tail) =
          reqOptions reject fuel (reqOption c (ifaceidOption got.ourid)).2.2
            (collect reject .ack [] (reqOption c (ifaceidOption got.ourid)).1
              (reqOption c (ifaceidOption got.ourid)).2.1).1
            (collect reject .ack [] (reqOption c (ifaceidOption got.ourid)).1
              (reqOption c (ifaceidOption got.ourid)).2.1).2 tail := by
      intro fuel tail
      have hcons : ifaceidOption got.ourid ++ tail =
          ciIfaceid :: cilenIfaceid :: (got.ourid.bytes ++ tail) := rfl
      rw [hcons, reqOptions_cons, if_neg (hgood tail), ← hcons, (hsplit tail).1, (hsplit tail).2]
    have hrequest : ipv6cpAddci got =
        ifaceidOption got.ourid ++ if got.negVj then compressOption got.vjProtocol else [] := by
      simp [ipv6cpAddci, hneg]
    rw [hrequest] at h ⊢
    cases fuel with
    | zero => exact absurd h (reqOptions_zero (by simp [ifaceidOption]))
    | succ fuel =>
      rw [hstep] at h ⊢
      have horc := (collect_ack (reqOptions_ack h).1).2.1
      obtain ⟨-, -, hzero, hours, hhis, hhisid⟩ := reqOption_ack horc
      have hget : Eui64.get ((ifaceidOption got.ourid).drop 2) = got.ourid := by
        have hbytes := Eui64.get_bytes got.ourid []
        rwa [List.append_nil] at hbytes
      rw [hget] at hzero hours hhisid
      cases hcomp : got.negVj with
      | true =>
        simp only [hcomp, if_true] at h
        exact absurd h (hvj _ _ _ _)
      | false =>
        have hnil : ∀ (fuel : Nat) (c : Ipv6cp) (rc : Verdict) (out : List UInt8),
            (reqOptions reject fuel c rc out []).2.2 = c := by
          intro fuel c rc out
          cases fuel <;> rfl
        simp only [Bool.false_eq_true, if_false, hnil]
        exact ⟨trivial, fun _ => ⟨hzero, hours, hhis, hhisid⟩⟩

/-- The peer has asked for the options `data`, and they are known. -/
def knowsIfaceid (c : Ipv6cp) (data : List UInt8) : Prop :=
  ∀ got, data = ipv6cpAddci got → got.negVj = false ∧ (got.negIfaceid = true →
    got.ourid ≠ .zero ∧ c.his.negIfaceid = true ∧ c.his.hisid = got.ourid)

/-- Two requests do not ask for one identifier. -/
def suitsIfaceid (mine his : List UInt8) : Prop :=
  ∀ got got', mine = ipv6cpAddci got → his = ipv6cpAddci got' → got.negIfaceid = true →
    got'.negIfaceid = true → got.ourid ≠ got'.ourid

theorem ipv6cpReqci_ack {c : Ipv6cp} {data : List UInt8} {reject : Bool}
    (h : (ipv6cpReqci c data reject).1 = .ack) :
    ipv6cpReqci c data reject =
        reqOptions reject data.length { c with his := noOptions } .ack [] data ∧
      (reqOptions reject data.length { c with his := noOptions } .ack [] data).1 = .ack := by
  simp only [ipv6cpReqci] at h ⊢
  split at h
  · rename_i hask
    split at h
    · cases h
    · rename_i hrc
      exact absurd h hrc
  · rename_i hask
    rw [if_neg hask]
    exact ⟨rfl, h⟩

theorem ipv6cpReqci_request (c : Ipv6cp) (data : List UInt8) (reject : Bool) :
    ipv6cpAddci (ipv6cpReqci c data reject).2.2.got = ipv6cpAddci c.got := by
  have hsame := SameOurs.reqOptions reject data.length { c with his := noOptions } .ack [] data
  simp only [ipv6cpReqci]
  split
  · split
    · exact hsame.request
    · exact hsame.request
  · exact hsame.request

/-- While a Nak is read only draws are used up. -/
structure OnlyDrawn (c c' : Ipv6cp) : Prop where
  got : c'.got = c.got
  his : c'.his = c.his

namespace OnlyDrawn

theorem trans {c c' c'' : Ipv6cp} (h : OnlyDrawn c c') (h' : OnlyDrawn c' c'') :
    OnlyDrawn c c'' := ⟨h'.got.trans h.got, h'.his.trans h.his⟩

theorem suggest (n : Naks) (id : Eui64) : OnlyDrawn n.ci (n.suggest id).ci := by
  unfold Naks.suggest
  split
  · simp only [Ipv6cp.redraw]
    split <;> exact ⟨rfl, rfl⟩
  · exact ⟨rfl, rfl⟩

theorem nakIfaceid (n : Naks) (p : List UInt8) (treat : Bool) :
    OnlyDrawn n.ci (Ppp.nakIfaceid n p treat).1.ci := by
  unfold Ppp.nakIfaceid
  split
  · simp only
    split
    · exact ⟨rfl, rfl⟩
    · exact suggest { n with ifaceid := true } _
  · exact ⟨rfl, rfl⟩

theorem nakVj (n : Naks) (p : List UInt8) : OnlyDrawn n.ci (Ppp.nakVj n p).1.ci := by
  unfold Ppp.nakVj
  split <;> exact ⟨rfl, rfl⟩

theorem nakRest (fuel : Nat) (n : Naks) (p : List UInt8) :
    OnlyDrawn n.ci (Ppp.nakRest fuel n p).1.ci := by
  induction fuel generalizing n p with
  | zero => rcases p with _ | ⟨_, _ | _⟩ <;> exact ⟨rfl, rfl⟩
  | succ fuel ih =>
    match p with
    | [] => exact ⟨rfl, rfl⟩
    | [_] => exact ⟨rfl, rfl⟩
    | citype :: cilen :: rest =>
      simp only [Ppp.nakRest]
      split
      · exact ⟨rfl, rfl⟩
      · split
        · split
          · exact ⟨rfl, rfl⟩
          · exact ih { n with vj := true } _
        · split
          · split
            · exact ⟨rfl, rfl⟩
            · let asked : Naks := { n with next := { n.next with negIfaceid := true } }
              have hsuggest : OnlyDrawn n.ci (asked.suggest (.get rest)).ci :=
                suggest asked (.get rest)
              exact hsuggest.trans (ih { asked.suggest (.get rest) with ifaceid := true } _)
          · exact ih n _

theorem ipv6cpNakci (state : State) (c : Ipv6cp) (p : List UInt8) (treat : Bool) :
    ((Ppp.ipv6cpNakci state c p treat).1 = 0 →
      (Ppp.ipv6cpNakci state c p treat).2.got = c.got) ∧
      (Ppp.ipv6cpNakci state c p treat).2.his = c.his := by
  let n : Naks := { ci := c, ifaceid := false, vj := false, next := c.got }
  let afterIfaceid := Ppp.nakIfaceid n p treat
  let afterVj := Ppp.nakVj afterIfaceid.1 afterIfaceid.2
  have hdrawn : OnlyDrawn c (Ppp.nakRest afterVj.2.length afterVj.1 afterVj.2).1.ci :=
    ((nakIfaceid n p treat).trans (nakVj afterIfaceid.1 afterIfaceid.2)).trans
      (nakRest afterVj.2.length afterVj.1 afterVj.2)
  simp only [Ppp.ipv6cpNakci]
  split
  · refine ⟨(fun h => by cases h), ?_⟩
    split <;> exact hdrawn.his
  · exact ⟨fun _ => hdrawn.got, hdrawn.his⟩

theorem ipv6cpRejci (state : State) (c : Ipv6cp) (p : List UInt8) :
    ((Ppp.ipv6cpRejci state c p).1 = 0 → (Ppp.ipv6cpRejci state c p).2.got = c.got) ∧
      (Ppp.ipv6cpRejci state c p).2.his = c.his := by
  simp only [Ppp.ipv6cpRejci]
  split
  · refine ⟨(fun h => by cases h), ?_⟩
    split <;> rfl
  · exact ⟨fun _ => rfl, rfl⟩

end OnlyDrawn

theorem honest_ipv6cp : Honest ipv6cpCallbacks knowsIfaceid suitsIfaceid where
  check f data := by
    refine ⟨ipv6cpReqci_request _ _ _, fun hack => ?_⟩
    obtain ⟨heq, hloop⟩ := ipv6cpReqci_ack hack
    have hcheck : ipv6cpCallbacks.check f data =
        reqOptions (f.nakloops ≥ f.maxnakloops) data.length { f.ci with his := noOptions } .ack []
          data := heq
    rw [hcheck]
    refine ⟨(reqOptions_ack hloop).2, ?_, ?_⟩
    · intro got hdata
      subst hdata
      obtain ⟨hvj, hknown⟩ := reqOptions_request hloop
      refine ⟨hvj, fun hneg => ?_⟩
      obtain ⟨hzero, -, hhis, hhisid⟩ := hknown hneg
      exact ⟨hzero, hhis, hhisid⟩
    · intro got got' hmine hhis hneg hneg'
      subst hhis
      obtain ⟨hsameneg, hsameid⟩ := ipv6cpAddci_inj hmine
      rw [← hsameid (hsameneg.trans hneg)]
      exact ((reqOptions_request hloop).2 hneg').2.1.symm
  up up hcall ci := by
    obtain rfl : ipv6cpUp = up := Option.some.inj hcall
    unfold ipv6cpUp
    split
    · exact ⟨rfl, fun _ h => h⟩
    · rename_i hnot
      refine ⟨rfl, fun data hknows got hdata => ?_⟩
      obtain ⟨hvj, hknown⟩ := hknows got hdata
      exact ⟨hvj, fun hneg => absurd (hknown hneg).2.1 hnot⟩
  retransmit retransmit hcall := by cases hcall
  nakci nakci hcall state ci data treat := by
    obtain rfl : ipv6cpNakci = nakci := Option.some.inj hcall
    obtain ⟨hgot, hhis⟩ := OnlyDrawn.ipv6cpNakci state ci data treat
    exact ⟨fun hret => congrArg ipv6cpAddci (hgot hret), fun his hknows => by
      simpa only [knowsIfaceid, hhis] using hknows⟩
  rejci rejci hcall state ci data := by
    obtain rfl : ipv6cpRejci = rejci := Option.some.inj hcall
    obtain ⟨hgot, hhis⟩ := OnlyDrawn.ipv6cpRejci state ci data
    exact ⟨fun hret => congrArg ipv6cpAddci (hgot hret), fun his hknows => by
      simpa only [knowsIfaceid, hhis] using hknows⟩
  extcode extcode hcall := by cases hcall

/-- Two ends that have both opened IPV6CP: each has the identifier the other asks
for now, and the two identifiers differ. -/
theorem ipv6cp_opened (s : End → Setup) (ci : End → Ipv6cp) (hmru : ∀ e, 18 ≤ (s e).peerMru)
    (moves : List Move) (l : Pair Ipv6cp)
    (hl : l = (Pair.initial s ci).run ipv6cpCallbacks moves)
    (hids : ∀ e, ids (l.ends e).log < 256) (hopen : ∀ e, (l.ends e).state = .opened) :
    (∀ e, (l.ends e).ci.got.negIfaceid = true →
      (l.ends e).ci.got.ourid ≠ .zero ∧ (l.ends e.other).ci.his.negIfaceid = true ∧
        (l.ends e.other).ci.his.hisid = (l.ends e).ci.got.ourid) ∧
      ((l.ends .near).ci.got.negIfaceid = true → (l.ends .far).ci.got.negIfaceid = true →
        (l.ends .near).ci.got.ourid ≠ (l.ends .far).ci.got.ourid) := by
  have hfits : ∀ ci, (ipv6cpCallbacks.request ci).length + headerlen ≤ 18 := fun ci =>
    Nat.add_le_add_right (ipv6cpAddci_length ci.got) _
  have hagreed : Agreed ipv6cpCallbacks knowsIfaceid suitsIfaceid 18 l := by
    subst hl
    exact (Agreed.initial s ci hmru).run honest_ipv6cp hfits (by decide) moves hids
  refine ⟨fun e hneg => ?_, fun hnear hfar => ?_⟩
  · obtain ⟨-, -, -, -, hknows⟩ := hagreed.answered e (hopen e)
    have hsent : sentAck (l.ends e.other).state = true := by rw [hopen]; rfl
    exact (hknows hsent _ rfl).2 hneg
  · obtain ⟨e, hsuits⟩ := hagreed.suited hopen
    cases e with
    | near => exact hsuits _ _ rfl rfl hnear hfar
    | far => exact (hsuits _ _ rfl rfl hfar hnear).symm

def smallId (n : UInt8) : Eui64 := ⟨[0, 0, 0, 0, 0, 0, 0, n], rfl⟩

/-- Two identifiers in turn. -/
def twoDraws : Draws where
  value n := if n % 2 = 0 then smallId 1 else smallId 2
  varied n avoid := by
    have hne : smallId 1 ≠ smallId 2 := by decide
    have hone : smallId 1 ≠ .zero := by decide
    have htwo : smallId 2 ≠ .zero := by decide
    by_cases havoid : smallId 1 = avoid
    · have hother : smallId 2 ≠ avoid := havoid ▸ hne.symm
      rcases Nat.mod_two_eq_zero_or_one n with heven | hodd
      · exact ⟨1, by simp [show (n + 1) % 2 = 1 by omega, htwo, hother]⟩
      · exact ⟨0, by simp [hodd, htwo, hother]⟩
    · rcases Nat.mod_two_eq_zero_or_one n with heven | hodd
      · exact ⟨0, by simp [heven, hone, havoid]⟩
      · exact ⟨1, by simp [show (n + 1) % 2 = 0 by omega, hone, havoid]⟩

/-- An end that asks for an identifier of its own and lets the peer have one. -/
def withId (ourid : Eui64) : Ipv6cp where
  want := { noOptions with
    negIfaceid := true, acceptLocal := true, acceptRemote := true, optLocal := true, ourid }
  got := noOptions
  allow := { noOptions with negIfaceid := true }
  his := noOptions
  draws := twoDraws
  drawn := 0

def idOf : End → Eui64
  | .near => smallId 7
  | .far => smallId 9

/-- Both ends open, the first request is lost and sent again, and they hear each
other out. -/
def meet : List Move :=
  [.act .near ⟨.open, rfl⟩, .act .near ⟨.lowerup, rfl⟩, .lose .near 0,
    .act .near ⟨.timeout, rfl⟩, .act .far ⟨.open, rfl⟩, .act .far ⟨.lowerup, rfl⟩,
    .deliver .far, .deliver .near, .deliver .near, .deliver .far]

def met : Pair Ipv6cp :=
  (Pair.initial (fun _ => defaults 1500) fun e => withId (idOf e)).run ipv6cpCallbacks meet

theorem met_opened (e : End) : (met.ends e).state = .opened := by
  cases e <;> decide

theorem met_ids (e : End) : ids (met.ends e).log < 256 := by
  cases e <;> decide

theorem ipv6cp_opened_met :
    (met.ends .far).ci.his.hisid = (met.ends .near).ci.got.ourid ∧
      (met.ends .near).ci.his.hisid = (met.ends .far).ci.got.ourid ∧
      (met.ends .near).ci.got.ourid ≠ (met.ends .far).ci.got.ourid :=
  have h := ipv6cp_opened _ _ (fun _ => by decide) meet met rfl met_ids met_opened
  ⟨(h.1 .near (by decide)).2.2, (h.1 .far (by decide)).2.2, h.2 (by decide) (by decide)⟩

theorem opened_agree_met :
    ∃ r, (asked (met.ends .far).log).getLast? = some r ∧ r.id = (met.ends .near).reqid ∧
      r.data = ipv6cpCallbacks.request (met.ends .near).ci ∧
      knowsIfaceid (met.ends .far).ci r.data := by
  obtain ⟨r, hlast, hid, hdata, hknows⟩ := opened_agree honest_ipv6cp 18
    (fun ci => Nat.add_le_add_right (ipv6cpAddci_length ci.got) _) (by decide)
    (fun _ => defaults 1500) (fun e => withId (idOf e)) (fun _ => by decide) meet met rfl met_ids
    .near (met_opened .near)
  refine ⟨r, hlast, hid, hdata, ?_⟩
  rw [hdata]
  exact hknows (by decide)

theorem opened_suit_met :
    ∃ e : End, suitsIfaceid (ipv6cpCallbacks.request (met.ends e).ci)
      (ipv6cpCallbacks.request (met.ends e.other).ci) :=
  opened_suit honest_ipv6cp 18 (fun ci => Nat.add_le_add_right (ipv6cpAddci_length ci.got) _)
    (by decide) (fun _ => defaults 1500) (fun e => withId (idOf e)) (fun _ => by decide) meet met
    rfl met_ids met_opened

end GameAcc.Ppp
