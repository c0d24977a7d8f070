import GameAcc.Lua.FrontEnds
import GameAcc.Lua.GameListRequest
import GameAcc.Lua.VpnAnswered

/-!
`cc_entry.lua` with the modules of commands 3 and 7: which requests get one
response. The tests for nil stand at a few levels only, so a request needs
values that can be indexed wherever the code indexes, and lists that the
selection of the day can use.
-/

namespace GameAcc.Lua.Answered

open GameAcc.Redis GameAcc.Mysql Entry UploadInfo FrontEnds
open VpnIp (TableSort Random Keyless)
open GameListPortText (quoted)
open Statements (localhost newYear)

/-- The data the two modules answer from, and what the client of Redis returns
for a key that is nil. -/
structure Services where
  store : Store
  db : Database
  keyless : Keyless

section Modules

variable {τ : Type} (services : Services) (sorter : TableSort) (rng : Random)

def coded : Except Stop (Option Value) → Response
  | .ok data => .coded 0 data
  | .error (.exit errcode) => .coded errcode none
  | .error (.error message) => .failed message

def texted : Except Stop String → Response
  | .ok text => .text text
  | .error (.exit errcode) => .coded errcode none
  | .error (.error message) => .failed message

def vpnIpModule : Module τ := fun userreq w =>
  (coded (answer (VpnRequest.process services.keyless userreq services.db sorter rng)
    services.store), w)

/-- `saved` is what `saveuserhistory` leaves. -/
def gameListModule (saved : Json → World τ → World τ) : Module τ := fun userreq w =>
  (texted (answer (GameListRequest.process userreq services.db) services.store),
    saved userreq w)

/-- The modules that the front ends share; `others` are those of the other
commands. -/
def modules (saved : Json → World τ → World τ) (others : String → Option (Module τ))
    (name : String) : Option (Module τ) :=
  if name = "cc_getvpnip" then some (vpnIpModule services sorter rng)
  else if name = "cc_getgamelistporttext" then some (gameListModule services saved)
  else others name

end Modules

/-- One response: an object with a code, or the list between quotation marks. A
wrong shape gets a negative code, and a request that no node is eligible for
gets code 0. -/
structure Answers (response : Response) (wrong unserved : Prop) : Prop where
  one : (∃ errcode data, response = .coded errcode data) ∨
    ∃ gameiplist, response = .text (quoted gameiplist)
  negative : wrong → ∃ errcode, errcode < 0 ∧ response = .coded errcode none
  zero : unserved → ∃ data, response = .coded 0 data

section Responses

variable {wrong unserved : Prop}

theorem coded_negative {result : Except Stop (Option Value)} {errcode : Int}
    (hnegative : errcode < 0) :
    coded result = .coded errcode none ↔ result = .error (.exit errcode) := by
  rcases result with (errcode' | message) | data
  · simp [coded]
  · simp [coded]
  · simp only [coded, Response.coded.injEq, reduceCtorEq, iff_false]
    omega

theorem coded_zero {result : Except Stop (Option Value)} :
    (∃ data, coded result = .coded 0 data) ↔
      (∃ data, result = .ok data) ∨ result = .error (.exit 0) := by
  rcases result with (errcode' | message) | data
  · simp [coded]
  · simp [coded]
  · simp [coded]

theorem coded_one {result : Except Stop (Option Value)} :
    ((∃ errcode data, coded result = .coded errcode data) ∨
      ∃ gameiplist, coded result = .text (quoted gameiplist)) ↔
      ∀ message, result ≠ .error (.error message) := by
  rcases result with (errcode' | message) | data
  · simp [coded]
  · simp [coded]
  · simp [coded]

theorem answers_coded {result : Except Stop (Option Value)} :
    Answers (coded result) wrong unserved ↔ Guarantee result wrong unserved := by
  constructor
  · intro h
    refine ⟨coded_one.mp h.one, fun hwrong => ?_, fun hun => coded_zero.mp (h.zero hun)⟩
    obtain ⟨errcode, hnegative, hcode⟩ := h.negative hwrong
    exact ⟨errcode, hnegative, (coded_negative hnegative).mp hcode⟩
  · intro h
    refine ⟨coded_one.mpr h.answered, fun hwrong => ?_, fun hun => coded_zero.mpr (h.zero hun)⟩
    obtain ⟨errcode, hnegative, hexit⟩ := h.negative hwrong
    exact ⟨errcode, hnegative, (coded_negative hnegative).mpr hexit⟩

/-- The list of command 7 is never turned down for want of a node. -/
theorem answers_texted {result : Except Stop String}
    (hquoted : ∀ text, result = .ok text → ∃ gameiplist, text = quoted gameiplist)
    (hserved : ¬unserved) :
    Answers (texted result) wrong unserved ↔ Guarantee result wrong False := by
  rcases result with (errcode' | message) | text
  · constructor
    · intro h
      refine ⟨by simp, fun hwrong => ?_, False.elim⟩
      simpa [texted] using h.negative hwrong
    · intro h
      refine ⟨.inl ⟨errcode', none, rfl⟩, fun hwrong => ?_, fun hun => absurd hun hserved⟩
      simpa [texted] using h.negative hwrong
  · refine iff_of_false ?_ (not_guarantee_error rfl)
    rintro ⟨⟨_, _, hcode⟩ | ⟨_, htext⟩, _⟩
    · cases hcode
    · cases htext
  · obtain ⟨gameiplist, rfl⟩ := hquoted text rfl
    constructor
    · intro h
      apply guarantee_ok rfl
      intro hwrong
      obtain ⟨errcode, _, hcode⟩ := h.negative hwrong
      cases hcode
    · intro h
      refine ⟨.inr ⟨gameiplist, rfl⟩, fun hwrong => ?_, fun hun => absurd hun hserved⟩
      obtain ⟨errcode, _, hexit⟩ := h.negative hwrong
      cases hexit

end Responses

section Requests

/-- The input of a request has the wrong shape: the body is no object, or what
the module of its command expects is not there. -/
def WrongShape (decode : String → Option Json) (body : Option String) : Prop :=
  (∀ userdata, body.bind decode = some userdata → userdata.isObject = false) ∨
  (∃ userdata, dispatch ccGlobal ccBranches decode "POST" body =
      .ok ("cc_getvpnip", userdata) ∧
    ¬∃ data info, VpnRequest.WellShaped userdata data info) ∨
  ∃ userdata, dispatch ccGlobal ccBranches decode "POST" body =
      .ok ("cc_getgamelistporttext", userdata) ∧ ¬GameListRequest.WellShaped userdata

/-- No node is eligible for a request of command 3 of the right shape. -/
def Unserved (services : Services) (decode : String → Option Json) (body : Option String) :
    Prop :=
  ∃ userdata, dispatch ccGlobal ccBranches decode "POST" body =
      .ok ("cc_getvpnip", userdata) ∧
    VpnRequest.Unserved services.keyless services.store services.db userdata

/-- What a request needs: a body that can be indexed, and what the module of its
command needs. -/
def Answerable (services : Services) (decode : String → Option Json) (body : Option String) :
    Prop :=
  (∀ userdata, body.bind decode = some userdata → userdata.indexable = true) ∧
  (∀ userdata, dispatch ccGlobal ccBranches decode "POST" body =
      .ok ("cc_getvpnip", userdata) →
    VpnRequest.Answered services.keyless services.store services.db userdata) ∧
  ∀ userdata, dispatch ccGlobal ccBranches decode "POST" body =
      .ok ("cc_getgamelistporttext", userdata) →
    GameListRequest.Answered services.store userdata

/-- The request is of command 3 or 7, or turned down before a module is called. -/
def Handled (decode : String → Option Json) (body : Option String) : Prop :=
  ∀ called, dispatch ccGlobal ccBranches decode "POST" body = .ok called →
    called.1 = "cc_getvpnip" ∨ called.1 = "cc_getgamelistporttext"

end Requests

section Post

variable {τ : Type} {server : UploadInfo.Server τ} {services : Services}
  {saved : Json → World τ → World τ} {others : String → Option (Module τ)}
  {decode : String → Option Json} {body : Option String} {addr : Statements.RemoteAddr}
  {now : Statements.Date} {w : World τ}

/-- The response of `cc_entry` to a POST. -/
def respond (server : UploadInfo.Server τ) (services : Services) (sorter : TableSort)
    (rng : Random) (saved : Json → World τ → World τ) (others : String → Option (Module τ))
    (decode : String → Option Json) (body : Option String) (addr : Statements.RemoteAddr)
    (now : Statements.Date) (w : World τ) : Response :=
  (ccEntry server (modules services sorter rng saved others) decode
    ⟨"POST", body, addr, now⟩ w).1

theorem dispatch_no_body (h : body.bind decode = none) :
    ∃ errcode, errcode < 0 ∧ dispatch ccGlobal ccBranches decode "POST" body =
      .error (.exit errcode) := by
  unfold dispatch
  rw [if_neg (by decide)]
  cases body with
  | none => exact ⟨ccGlobal.ERR_NO_BODYDATA, by decide, rfl⟩
  | some bodyStr =>
    have hdecode : decode bodyStr = none := h
    simp only [hdecode]
    exact ⟨ccGlobal.ERR_INVALID_JSON_FORMAT, by decide, rfl⟩

theorem dispatch_body {userdata : Json} (h : body.bind decode = some userdata) :
    dispatch ccGlobal ccBranches decode "POST" body =
      select ccGlobal ccBranches userdata := by
  obtain ⟨bodyStr, rfl, hdecode⟩ := Option.bind_eq_some_iff.mp h
  unfold dispatch
  rw [if_neg (by decide)]
  simp only [hdecode]

theorem respond_exit {errcode : Int} (h : dispatch ccGlobal ccBranches decode "POST" body =
    .error (.exit errcode)) (sorter : TableSort) (rng : Random) :
    respond server services sorter rng saved others decode body addr now w =
      .coded errcode none := by
  rw [respond, ccEntry, entry, h]

theorem respond_error {message : String} (h : dispatch ccGlobal ccBranches decode "POST" body =
    .error (.error message)) (sorter : TableSort) (rng : Random) :
    respond server services sorter rng saved others decode body addr now w =
      .failed message := by
  rw [respond, ccEntry, entry, h]

theorem respond_vpnIp {userdata : Json} (h : dispatch ccGlobal ccBranches decode "POST" body =
    .ok ("cc_getvpnip", userdata)) (sorter : TableSort) (rng : Random) :
    respond server services sorter rng saved others decode body addr now w =
      coded (answer (VpnRequest.process services.keyless userdata services.db sorter rng)
        services.store) := by
  rw [respond, ccEntry, entry, h]
  rfl

theorem respond_gameList {userdata : Json}
    (h : dispatch ccGlobal ccBranches decode "POST" body =
      .ok ("cc_getgamelistporttext", userdata)) (sorter : TableSort) (rng : Random) :
    respond server services sorter rng saved others decode body addr now w =
      texted (answer (GameListRequest.process userdata services.db) services.store) := by
  rw [respond, ccEntry, entry, h]
  rfl

/-- A request that is turned down before its module is called. -/
theorem answers_of_exit {errcode : Int} (hnegative : errcode < 0)
    (h : dispatch ccGlobal ccBranches decode "POST" body = .error (.exit errcode))
    (sorter : TableSort) (rng : Random) :
    Answers (respond server services sorter rng saved others decode body addr now w)
      (WrongShape decode body) (Unserved services decode body) := by
  rw [respond_exit h]
  refine ⟨.inl ⟨errcode, none, rfl⟩, fun _ => ⟨errcode, hnegative, rfl⟩, ?_⟩
  rintro ⟨userdata, hcalled, _⟩
  rw [h] at hcalled
  cases hcalled

theorem answerable_of_error {e : Stop}
    (h : dispatch ccGlobal ccBranches decode "POST" body = .error e) :
    Answerable services decode body ↔
      ∀ userdata, body.bind decode = some userdata → userdata.indexable = true := by
  unfold Answerable
  rw [h]
  simp

theorem answers_vpnIp_iff {userdata : Json} (hbody : body.bind decode = some userdata)
    (h : dispatch ccGlobal ccBranches decode "POST" body = .ok ("cc_getvpnip", userdata))
    (hobject : userdata.isObject = true) :
    (∀ sorter rng,
      Answers (respond server services sorter rng saved others decode body addr now w)
        (WrongShape decode body) (Unserved services decode body)) ↔
      VpnRequest.Answered services.keyless services.store services.db userdata := by
  have hwrong : WrongShape decode body ↔
      ¬∃ data info, VpnRequest.WellShaped userdata data info := by
    simp [WrongShape, hbody, h, hobject]
  have hunserved : Unserved services decode body ↔
      VpnRequest.Unserved services.keyless services.store services.db userdata := by
    simp [Unserved, h]
  simp only [respond_vpnIp h, answers_coded, hwrong, hunserved]
  exact VpnRequest.guarantee_iff (Json.indexable_of_isObject hobject)

theorem answers_gameList_iff {userdata : Json} (hbody : body.bind decode = some userdata)
    (h : dispatch ccGlobal ccBranches decode "POST" body =
      .ok ("cc_getgamelistporttext", userdata)) (hobject : userdata.isObject = true)
    (sorter : TableSort) (rng : Random) :
    Answers (respond server services sorter rng saved others decode body addr now w)
        (WrongShape decode body) (Unserved services decode body) ↔
      GameListRequest.Answered services.store userdata := by
  have hwrong : WrongShape decode body ↔ ¬GameListRequest.WellShaped userdata := by
    simp [WrongShape, hbody, h, hobject]
  have hserved : ¬Unserved services decode body := by
    simp [Unserved, h]
  have hquoted : ∀ text, answer (GameListRequest.process userdata services.db)
      services.store = .ok text → ∃ gameiplist, text = quoted gameiplist := by
    intro text htext
    have hends : Command.Ends (fun text => ∃ gameiplist, text = quoted gameiplist)
        (GameListRequest.process userdata services.db) :=
      Command.Ends.bind (fun self => GameListRequest.process_quoted self services.db)
    exact hends.run _ htext
  rw [respond_gameList h, answers_texted hquoted hserved, hwrong]
  exact GameListRequest.guarantee_iff services.db (Json.indexable_of_isObject hobject)

/-- A request of command 3 or 7, or one that is turned down before, is answered
in every order that the sort can leave and for every random number exactly when
its body can be indexed and holds what its command needs. -/
theorem answered_iff (server : UploadInfo.Server τ) (services : Services)
    (saved : Json → World τ → World τ) (others : String → Option (Module τ))
    (decode : String → Option Json) (body : Option String) (addr : Statements.RemoteAddr)
    (now : Statements.Date) (w : World τ) (hhandled : Handled decode body) :
    (∀ sorter rng,
      Answers (respond server services sorter rng saved others decode body addr now w)
        (WrongShape decode body) (Unserved services decode body)) ↔
      Answerable services decode body := by
  have first : TableSort × Random :=
    ⟨Window.Sorter.stable _, ⟨fun _ => 1, fun _ _ => le_rfl, fun _ hn => hn⟩⟩
  cases hbody : body.bind decode with
  | none =>
    obtain ⟨errcode, hnegative, hdispatch⟩ := dispatch_no_body hbody
    refine iff_of_true (answers_of_exit hnegative hdispatch) ?_
    rw [answerable_of_error hdispatch, hbody]
    simp
  | some userdata =>
    have hselect := dispatch_body hbody
    cases hindex : userdata.indexable with
    | false =>
      obtain ⟨message, hraise⟩ := select_raises ccGlobal ccBranches hindex
      rw [hraise] at hselect
      refine iff_of_false (fun hanswers => ?_) (fun h => ?_)
      · have hone := (hanswers first.1 first.2).one
        rw [respond_error hselect] at hone
        simp at hone
      · rw [h.1 userdata hbody] at hindex
        cases hindex
    | true =>
      cases hcalled : select ccGlobal ccBranches userdata with
      | error e =>
        rw [hcalled] at hselect
        obtain ⟨errcode, hnegative, rfl⟩ := select_rejects hindex hcalled
        refine iff_of_true (answers_of_exit hnegative hselect) ?_
        rw [answerable_of_error hselect, hbody]
        simpa using hindex
      | ok called =>
        obtain ⟨name, userreq⟩ := called
        obtain rfl : userreq = userdata := select_userdata hcalled
        have hobject := isObject_of_select hcalled
        rw [hcalled] at hselect
        rcases hhandled _ hselect with hname | hname
        · obtain rfl : name = "cc_getvpnip" := hname
          rw [answers_vpnIp_iff hbody hselect hobject]
          simp [Answerable, hbody, hindex, hselect]
        · obtain rfl : name = "cc_getgamelistporttext" := hname
          have hanswerable : Answerable services decode body ↔
              GameListRequest.Answered services.store userreq := by
            simp [Answerable, hbody, hindex, hselect]
          rw [hanswerable]
          constructor
          · intro hanswers
            exact (answers_gameList_iff hbody hselect hobject first.1 first.2).mp
              (hanswers first.1 first.2)
          · intro hanswered sorter rng
            exact (answers_gameList_iff hbody hselect hobject sorter rng).mpr hanswered

end Post

section Examples

/-- A request of a command with its data. -/
def ask (cmdid : Double) (data : Json) : Json :=
  .obj "table: 0x1" [("uid", .str "u"), ("devicetype", .num 1101), ("usertype", .num 2),
    ("cmdid", .num cmdid), ("version", .str "0.1"), ("time", .num 1), ("data", data)]

theorem dispatch_ask (bodyStr : String) (data : Json) {cmdid : Double} {name : String}
    (hbranch : branch ccGlobal ccBranches cmdid = .ok name) :
    dispatch ccGlobal ccBranches (readsAs bodyStr (ask cmdid data)) "POST" (some bodyStr) =
      .ok (name, ask cmdid data) := by
  have hmissing : anyNil (ask cmdid data)
      ["uid", "devicetype", "usertype", "cmdid", "version", "time"] = .ok false := rfl
  have hdevice : (1101 : Double).rat = some 1101 := by
    decide +kernel
  have huser : (2 : Double).rat = some 2 := by
    decide +kernel
  have hcheck : check ccGlobal (ask cmdid data) = .ok cmdid := by
    simp [check, member, ask, List.lookup_cons, Json.index, Json.ofMember, Json.value,
      hdevice, huser, bind, Except.bind, Except.map, Value.tostring]
  simp [dispatch, readsAs_self, select, hmissing, hcheck, hbranch, bind, Except.bind]

/-- A Redis and a MySQL without a record. -/
def noServices : Services := ⟨.empty, ⟨[], [], [], [], [], []⟩, .refusal⟩

def respondNoServices (sorter : TableSort) (rng : Random) (bodyStr : String)
    (userdata : Json) : Response :=
  respond permissive noServices sorter rng (fun _ w => w) (fun _ => none)
    (readsAs bodyStr userdata) (some bodyStr) localhost newYear empty

/-- A game list asked for without a node. -/
def listAsked : Json := ask 7 (.obj "table: 0x2" [("gameid", .num 1), ("regionid", .num 1)])

def listBody : String :=
  "\x7b\"uid\":\"u\",\"devicetype\":1101,\"usertype\":2,\"cmdid\":7,\"version\":\"0.1\"," ++
    "\"time\":1,\"data\":\x7b\"gameid\":1,\"regionid\":1\x7d\x7d"

theorem list_answered :
    Handled (readsAs listBody listAsked) (some listBody) ∧ ∀ sorter rng,
      Answers (respondNoServices sorter rng listBody listAsked)
        (WrongShape (readsAs listBody listAsked) (some listBody))
        (Unserved noServices (readsAs listBody listAsked) (some listBody)) := by
  have hdispatch : dispatch ccGlobal ccBranches (readsAs listBody listAsked) "POST"
      (some listBody) = .ok ("cc_getgamelistporttext", listAsked) :=
    dispatch_ask listBody _ (by decide +kernel)
  have hdecode : (some listBody).bind (readsAs listBody listAsked) = some listAsked :=
    readsAs_self listBody listAsked
  have hhandled : Handled (readsAs listBody listAsked) (some listBody) := by
    intro called hcalled
    obtain rfl := Except.ok.inj (hdispatch.symm.trans hcalled)
    exact .inr rfl
  refine ⟨hhandled, (answered_iff permissive noServices (fun _ w => w) (fun _ => none)
    (readsAs listBody listAsked) (some listBody) localhost newYear empty hhandled).mpr
      ⟨?_, ?_, ?_⟩⟩
  · intro userdata huserdata
    obtain rfl := Option.some.inj (hdecode.symm.trans huserdata)
    rfl
  · intro userdata hcalled
    obtain ⟨hname, _⟩ := Prod.mk.inj (Except.ok.inj (hdispatch.symm.trans hcalled))
    simp at hname
  · intro userdata hcalled data hdata
    obtain ⟨_, rfl⟩ := Prod.mk.inj (Except.ok.inj (hdispatch.symm.trans hcalled))
    obtain rfl := Option.some.inj (hdata.symm.trans rfl)
    refine ⟨rfl, ?_⟩
    intro place _ svpninfo hsvpninfo
    cases hsvpninfo

/-- A request of command 3 that measured no node. -/
def vpnAsked : Json := ask 3 (.obj "table: 0x2" [("gameid", .num 1), ("regionid", .num 1),
  ("info", .arr "table: 0x3" [])])

def vpnBody : String :=
  "\x7b\"uid\":\"u\",\"devicetype\":1101,\"usertype\":2,\"cmdid\":3,\"version\":\"0.1\"," ++
    "\"time\":1,\"data\":\x7b\"gameid\":1,\"regionid\":1,\"info\":[]\x7d\x7d"

/-- A request of command 7 whose `svpninfo` is null. -/
def nodeAsked : Json := ask 7 (.obj "table: 0x2" [("gameid", .num 1), ("regionid", .num 1),
  ("svpninfo", .null)])

def nodeBody : String :=
  "\x7b\"uid\":\"u\",\"devicetype\":1101,\"usertype\":2,\"cmdid\":7,\"version\":\"0.1\"," ++
    "\"time\":1,\"data\":\x7b\"gameid\":1,\"regionid\":1,\"svpninfo\":null\x7d\x7d"

/-- A handled request that ends in an error of Lua. -/
def Unanswered (bodyStr : String) (userdata : Json) : Prop :=
  Handled (readsAs bodyStr userdata) (some bodyStr) ∧ ∀ sorter rng,
    (∃ message, respondNoServices sorter rng bodyStr userdata = .failed message) ∧
    ¬Answers (respondNoServices sorter rng bodyStr userdata)
      (WrongShape (readsAs bodyStr userdata) (some bodyStr))
      (Unserved noServices (readsAs bodyStr userdata) (some bodyStr))

theorem unanswered_of_failed {bodyStr : String} {userdata : Json}
    (hhandled : Handled (readsAs bodyStr userdata) (some bodyStr))
    (hfailed : ∀ sorter rng, ∃ message,
      respondNoServices sorter rng bodyStr userdata = .failed message) :
    Unanswered bodyStr userdata := by
  refine ⟨hhandled, fun sorter rng => ⟨hfailed sorter rng, fun hanswers => ?_⟩⟩
  obtain ⟨message, hmessage⟩ := hfailed sorter rng
  rw [hmessage] at hanswers
  rcases hanswers.one with ⟨_, _, hcode⟩ | ⟨_, htext⟩
  · cases hcode
  · cases htext

theorem requests_unanswered :
    Unanswered vpnBody vpnAsked ∧ Unanswered "null" .null ∧ Unanswered nodeBody nodeAsked := by
  refine ⟨?_, ?_, ?_⟩
  · have hdispatch : dispatch ccGlobal ccBranches (readsAs vpnBody vpnAsked) "POST"
        (some vpnBody) = .ok ("cc_getvpnip", vpnAsked) :=
      dispatch_ask vpnBody _ (by decide +kernel)
    apply unanswered_of_failed
    · intro called hcalled
      obtain rfl := Except.ok.inj (hdispatch.symm.trans hcalled)
      exact .inl rfl
    · intro sorter rng
      rw [respondNoServices, respond_vpnIp hdispatch]
      exact ⟨_, rfl⟩
  · have hdecode : (some "null").bind (readsAs "null" .null) = some .null :=
      readsAs_self "null" .null
    have hdispatch : dispatch ccGlobal ccBranches (readsAs "null" .null) "POST"
        (some "null") = .error (.error "attempt to index a userdata value") :=
      (dispatch_body hdecode).trans rfl
    apply unanswered_of_failed
    · intro called hcalled
      cases hdispatch.symm.trans hcalled
    · intro sorter rng
      rw [respondNoServices, respond_error hdispatch]
      exact ⟨_, rfl⟩
  · have hdispatch : dispatch ccGlobal ccBranches (readsAs nodeBody nodeAsked) "POST"
        (some nodeBody) = .ok ("cc_getgamelistporttext", nodeAsked) :=
      dispatch_ask nodeBody _ (by decide +kernel)
    apply unanswered_of_failed
    · intro called hcalled
      obtain rfl := Except.ok.inj (hdispatch.symm.trans hcalled)
      exact .inr rfl
    · intro sorter rng
      rw [respondNoServices, respond_gameList hdispatch]
      exact ⟨_, rfl⟩

end Examples

end GameAcc.Lua.Answered
