import GameAcc.Lua.BillRow

/-!
`billing_uploadbilling.lua`: the check of a bill and its way into the table. The
request is logged as a text first, and then the ten keywords of its order are
checked one after the other; every way out names its code in a table of the module. A failed INSERT asks for a name that is not
there, so its answer has no code.
-/

namespace GameAcc.Lua.UploadBilling

open Statements SqlText

/-- What the client receives: an object, in which a code may be missing, or the
page of a Lua error. The time in the object is left out. -/
inductive Reply where
  | coded (errcode : Option Int)
  | failed (message : String)
  deriving DecidableEq

section Codes

def ERR_BASE_ERROR : Int := -20000

def ERR_DB_ALLOC : Int := ERR_BASE_ERROR - 8

def ERR_DBINIT : Int := ERR_BASE_ERROR - 9

def ERR_DBDEINIT : Int := ERR_BASE_ERROR - 10

def ERR_MOD_GETCCLST_BASE : Int := ERR_BASE_ERROR - 400

def MOD_ERR_BASE : Int := ERR_MOD_GETCCLST_BASE

/-- The codes of the module by name. -/
def modErr : List (String × Int) :=
  [("MOD_ERR_INVALID_PARAM", MOD_ERR_BASE - 1), ("MOD_ERR_INVALID_TYPE", MOD_ERR_BASE - 2),
    ("MOD_ERR_SAVE_BILLING", MOD_ERR_BASE - 3)]

/-- `self[name]`: a name that is not there is nil. -/
def self (name : String) : Option Int := modErr.lookup name

end Codes

section Check

def returnwithcode {α : Type} (errcode : Option Int) : Except Reply α := .error (.coded errcode)

def index (v : Json) (key : String) : Except Reply (Option Json) :=
  match v.index key with
  | .ok member => .ok member
  | .error (.exit errcode) => returnwithcode (some errcode)
  | .error (.error message) => .error (.failed message)

/-- One keyword: it is there, and its conversion has the type it should have. -/
def checkKeyword {α : Type} (orderdata : Json) (checkfun : Value → Option α) (keyword : String) :
    Except Reply α := do
  let member ← index orderdata keyword
  match member with
  | none => returnwithcode (self "MOD_ERR_INVALID_PARAM")
  | some value =>
    match checkfun value.value with
    | none => returnwithcode (self "MOD_ERR_INVALID_TYPE")
    | some checkv => .ok checkv

/-- `tostring`, which converts everything. -/
def tostring (value : Value) : Option String := some value.tostring

/-- The loop over the keywords, their conversions and their types. -/
def checkKeywords (orderdata : Json) : Except Reply Bill := do
  let orderID ← checkKeyword orderdata tostring "orderID"
  let deviceID ← checkKeyword orderdata tostring "deviceID"
  let userID ← checkKeyword orderdata tostring "userID"
  let userType ← checkKeyword orderdata tostring "userType"
  let orderType ← checkKeyword orderdata tostring "orderType"
  let money ← checkKeyword orderdata Value.tonumber "money"
  let startTime ← checkKeyword orderdata Value.tonumber "startTime"
  let duringTime ← checkKeyword orderdata Value.tonumber "duringTime"
  let refundTime ← checkKeyword orderdata Value.tonumber "refundTime"
  let refundFee ← checkKeyword orderdata Value.tonumber "refundFee"
  .ok ⟨orderID, deviceID, userID, userType, orderType, money, startTime, duringTime, refundTime,
    refundFee⟩

def checkparm (userreq : Json) : Except Reply Bill := do
  let data ← index userreq "data"
  match data with
  | none => returnwithcode (self "MOD_ERR_INVALID_PARAM")
  | some reqdata =>
    if reqdata.encodable = false then
      .error (.failed "Cannot serialise number: must not be NaN or Inf")
    else do
      let orderinfo ← index reqdata "orderinfo"
      match orderinfo with
      | none => returnwithcode (self "MOD_ERR_INVALID_PARAM")
      | some orderdata => checkKeywords orderdata

end Check

section Database

/-- What the calls of the database return. -/
structure Calls where
  new : Bool
  connect : Bool
  query : Bool
  close : Bool

def initConn (db : Calls) : Except Reply Unit :=
  if db.new = false then returnwithcode (some ERR_DB_ALLOC)
  else if db.connect = false then returnwithcode (some ERR_DBINIT)
  else .ok ()

def deinitConn (db : Calls) : Except Reply Unit :=
  if db.close = false then returnwithcode (some ERR_DBDEINIT) else .ok ()

/-- A connection whose INSERT has failed is closed first, and that may fail as
well. -/
def uploadbill (db : Calls) : Except Reply Unit :=
  if db.query = false then do
    deinitConn db
    returnwithcode (self "MOD_ERR_SAVEBILLING")
  else .ok ()

/-- The statement that MySQL has executed. -/
def executed (db : Calls) (bill : Bill) : Option String :=
  if db.new ∧ db.connect ∧ db.query then some (uploadBill bill) else none

/-- The reply, and the statement that MySQL has executed. -/
def save (db : Calls) (bill : Bill) : Reply × Option String :=
  match (do
    initConn db
    uploadbill db
    deinitConn db : Except Reply Unit) with
  | .error reply => (reply, executed db bill)
  | .ok () => (.coded (some 0), executed db bill)

end Database

def process (db : Calls) (userreq : Json) : Reply × Option String :=
  match checkparm userreq with
  | .error reply => (reply, none)
  | .ok bill => save db bill

section Converts

/-- The member that is there, as its conversion. -/
def Member {α : Type} (orderdata : Json) (checkfun : Value → Option α) (keyword : String) (x : α) :
    Prop :=
  ∃ m, orderdata.get? keyword = some m ∧ checkfun m.value = some x

/-- The order has all keywords, and the bill what they convert to. -/
structure Fields (orderdata : Json) (bill : Bill) : Prop where
  orderID : Member orderdata tostring "orderID" bill.orderID
  deviceID : Member orderdata tostring "deviceID" bill.deviceID
  userID : Member orderdata tostring "userID" bill.userID
  userType : Member orderdata tostring "userType" bill.userType
  orderType : Member orderdata tostring "orderType" bill.orderType
  money : Member orderdata Value.tonumber "money" bill.money
  startTime : Member orderdata Value.tonumber "startTime" bill.startTime
  duringTime : Member orderdata Value.tonumber "duringTime" bill.duringTime
  refundTime : Member orderdata Value.tonumber "refundTime" bill.refundTime
  refundFee : Member orderdata Value.tonumber "refundFee" bill.refundFee

/-- The request has an order with all keywords. -/
def Converts (userreq : Json) (bill : Bill) : Prop :=
  ∃ data orderdata, userreq.get? "data" = some data ∧ data.get? "orderinfo" = some orderdata ∧
    Fields orderdata bill

/-- The data have a text, and nothing that is indexed is null, a truth value or a
number. -/
def Answerable (userreq : Json) : Prop :=
  userreq.indexable = true ∧ ∀ data, userreq.get? "data" = some data →
    data.encodable = true ∧ data.indexable = true ∧
      ∀ orderinfo, data.get? "orderinfo" = some orderinfo → orderinfo.indexable = true

theorem except_bind_ok {α β : Type} {x : Except Reply α} {f : α → Except Reply β} {y : β} :
    x >>= f = .ok y ↔ ∃ a, x = .ok a ∧ f a = .ok y := by
  cases x <;> simp [bind, Except.bind]

theorem index_eq {v : Json} (h : v.indexable = true) (key : String) :
    index v key = .ok (v.get? key) := by
  rw [index, Json.index_of_indexable h]

theorem index_raises {v : Json} (h : v.indexable = false) :
    ∃ message, ∀ key, index v key = .error (.failed message) := by
  obtain ⟨message, hindex⟩ := Json.index_of_not_indexable h
  refine ⟨message, ?_⟩
  intro key
  rw [index, hindex]

theorem index_some {v member : Json} {key : String} :
    index v key = .ok (some member) ↔ v.get? key = some member := by
  cases hv : v.indexable with
  | true =>
    rw [index_eq hv, Except.ok.injEq]
  | false =>
    obtain ⟨message, hindex⟩ := index_raises hv
    have hobject : v.isObject = false := by
      cases hobject : v.isObject with
      | false => rfl
      | true => rw [Json.indexable_of_isObject hobject] at hv; cases hv
    rw [hindex, Json.get?_of_not_object hobject]
    constructor
    · intro h
      cases h
    · intro h
      cases h

theorem checkKeyword_ok {α : Type} {orderdata : Json} {checkfun : Value → Option α}
    {keyword : String} {x : α} :
    checkKeyword orderdata checkfun keyword = .ok x ↔ Member orderdata checkfun keyword x := by
  unfold checkKeyword Member
  rw [except_bind_ok]
  constructor
  · rintro ⟨member, hindex, hcheck⟩
    cases member with
    | none => cases hcheck
    | some m =>
      refine ⟨m, index_some.mp hindex, ?_⟩
      dsimp only at hcheck
      split at hcheck
      · cases hcheck
      · next hvalue => rw [hvalue, Except.ok.inj hcheck]
  · rintro ⟨m, hmember, hvalue⟩
    refine ⟨some m, index_some.mpr hmember, ?_⟩
    simp only [hvalue]

theorem checkKeywords_ok {orderdata : Json} {bill : Bill} :
    checkKeywords orderdata = .ok bill ↔ Fields orderdata bill := by
  simp only [checkKeywords, except_bind_ok, checkKeyword_ok, Except.ok.injEq]
  constructor
  · rintro ⟨_, h1, _, h2, _, h3, _, h4, _, h5, _, h6, _, h7, _, h8, _, h9, _, h10, rfl⟩
    exact ⟨h1, h2, h3, h4, h5, h6, h7, h8, h9, h10⟩
  · intro h
    exact ⟨_, h.orderID, _, h.deviceID, _, h.userID, _, h.userType, _, h.orderType, _, h.money,
      _, h.startTime, _, h.duringTime, _, h.refundTime, _, h.refundFee, rfl⟩

/-- The check passes exactly the orders that convert. -/
theorem checkparm_ok {userreq : Json} {bill : Bill} (h : Answerable userreq) :
    checkparm userreq = .ok bill ↔ Converts userreq bill := by
  unfold checkparm Converts
  rw [except_bind_ok]
  constructor
  · rintro ⟨data, hdata, hcheck⟩
    cases data with
    | none => cases hcheck
    | some reqdata =>
      dsimp only at hcheck
      split at hcheck
      · cases hcheck
      obtain ⟨orderinfo, horderinfo, hcheck⟩ := except_bind_ok.mp hcheck
      cases orderinfo with
      | none => cases hcheck
      | some orderdata =>
        exact ⟨reqdata, orderdata, index_some.mp hdata, index_some.mp horderinfo,
          checkKeywords_ok.mp hcheck⟩
  · rintro ⟨reqdata, orderdata, hdata, horderinfo, hfields⟩
    refine ⟨some reqdata, index_some.mpr hdata, ?_⟩
    dsimp only
    rw [(h.2 reqdata hdata).1, if_neg Bool.true_eq_false.mp]
    exact except_bind_ok.mpr ⟨some orderdata, index_some.mpr horderinfo,
      checkKeywords_ok.mpr hfields⟩

end Converts

section Refusals

/-- An object whose code is a number other than 0. -/
def Reply.Nonzero (reply : Reply) : Prop :=
  ∃ errcode, errcode ≠ 0 ∧ reply = .coded (some errcode)

/-- A check that turns a request down only with a code. -/
def Refuses {α : Type} (check : Except Reply α) : Prop :=
  ∀ reply, check = .error reply → reply.Nonzero

theorem refuses_ok {α : Type} (x : α) : Refuses (.ok x) := by
  intro reply h
  cases h

theorem refuses_code {α : Type} {errcode : Int} (h : errcode ≠ 0) :
    Refuses (returnwithcode (some errcode) : Except Reply α) := by
  intro reply heq
  exact ⟨errcode, h, (Except.error.inj heq).symm⟩

theorem Refuses.bind {α β : Type} {check : Except Reply α} (h : Refuses check)
    {next : α → Except Reply β} (hnext : ∀ x, Refuses (next x)) : Refuses (check >>= next) := by
  cases check with
  | error reply =>
    intro other heq
    rw [← Except.error.inj heq]
    exact h reply rfl
  | ok x => exact hnext x

theorem checkKeyword_refuses {α : Type} {orderdata : Json} (h : orderdata.indexable = true)
    (checkfun : Value → Option α) (keyword : String) :
    Refuses (checkKeyword orderdata checkfun keyword) := by
  unfold checkKeyword
  rw [index_eq h]
  apply (refuses_ok _).bind
  intro member
  cases member with
  | none => exact refuses_code (by decide)
  | some m =>
    cases hvalue : checkfun m.value with
    | none =>
      simp only [hvalue]
      exact refuses_code (by decide)
    | some x =>
      simp only [hvalue]
      exact refuses_ok x

theorem checkKeywords_refuses {orderdata : Json} (h : orderdata.indexable = true) :
    Refuses (checkKeywords orderdata) := by
  unfold checkKeywords
  iterate 10
    apply (checkKeyword_refuses h _ _).bind
    intro _
  exact refuses_ok _

theorem checkparm_refuses {userreq : Json} (h : Answerable userreq) :
    Refuses (checkparm userreq) := by
  unfold checkparm
  rw [index_eq h.1]
  cases hdata : userreq.get? "data" with
  | none => exact refuses_code (by decide)
  | some reqdata =>
    obtain ⟨hencodable, hreqdata, horder⟩ := h.2 reqdata hdata
    change Refuses (if reqdata.encodable = false then _ else _)
    rw [hencodable, if_neg Bool.true_eq_false.mp]
    rw [index_eq hreqdata]
    cases horderinfo : reqdata.get? "orderinfo" with
    | none => exact refuses_code (by decide)
    | some orderdata => exact checkKeywords_refuses (horder orderdata horderinfo)

theorem checkKeywords_raises {orderdata : Json} (h : orderdata.indexable = false) :
    ∃ message, checkKeywords orderdata = .error (.failed message) := by
  obtain ⟨message, hindex⟩ := index_raises h
  refine ⟨message, ?_⟩
  rw [checkKeywords, checkKeyword, hindex]
  rfl

/-- A request that cannot be indexed ends in a Lua error. -/
theorem checkparm_raises {userreq : Json} (h : ¬Answerable userreq) :
    ∃ message, checkparm userreq = .error (.failed message) := by
  simp only [Answerable, not_and, not_forall, Bool.not_eq_true] at h
  unfold checkparm
  cases hrequest : userreq.indexable with
  | false =>
    obtain ⟨message, hindex⟩ := index_raises hrequest
    exact ⟨message, by rw [hindex]; rfl⟩
  | true =>
    obtain ⟨reqdata, hdata, hreqdata⟩ := h hrequest
    rw [index_some.mpr hdata]
    change ∃ message, (if reqdata.encodable = false then _ else _) =
      Except.error (Reply.failed message)
    by_cases hencodable : reqdata.encodable = false
    · exact ⟨_, if_pos hencodable⟩
    rw [if_neg hencodable]
    have hreqdata := hreqdata (by simpa using hencodable)
    cases hindexable : reqdata.indexable with
    | false =>
      obtain ⟨message, hindex⟩ := index_raises hindexable
      exact ⟨message, by rw [hindex]; rfl⟩
    | true =>
      obtain ⟨orderdata, horderinfo, hlast⟩ := hreqdata hindexable
      rw [index_some.mpr horderinfo]
      exact checkKeywords_raises hlast

end Refusals

section Bills

/-- The rows that an executed statement may have inserted: the row that it
says, or anything where it says no row. -/
def Inserts (executed : Option String) (rows : List (List Cell)) : Prop :=
  match executed with
  | none => rows = []
  | some sql => ∀ row, billRow? sql = some row → rows = [row]

/-- One row with exactly the values of the bill. -/
def Carries (rows : List (List Cell)) (bill : Bill) : Prop :=
  ∃ row, rows = [row] ∧ bill.Holds row

/-- A bill is stored if and only if it is acknowledged. -/
structure StoredIffAcknowledged (db : Calls) (userreq : Json) : Prop where
  stored : ∀ rows, Inserts (process db userreq).2 rows → rows ≠ [] →
    ∃ bill, Converts userreq bill ∧ Carries rows bill
  acknowledged : (process db userreq).1 = .coded (some 0) → (process db userreq).2.isSome = true
  refused : (process db userreq).1 ≠ .coded (some 0) → (process db userreq).1.Nonzero ∧
    ∀ rows, Inserts (process db userreq).2 rows → rows = []

/-- The request can be logged and indexed; and for a bill that reaches MySQL, the
close ends as the INSERT did, and a statement that is executed has the bill's
row. -/
structure Sound (db : Calls) (userreq : Json) : Prop where
  answerable : Answerable userreq
  saved : ∀ bill, Converts userreq bill → db.new = true → db.connect = true →
    db.close = db.query ∧ (db.query = true → bill.Exact)

variable {db : Calls} {userreq : Json} {bill : Bill} {reply : Reply}

theorem process_of_converts (db : Calls) (hrequest : Answerable userreq)
    (h : Converts userreq bill) : process db userreq = save db bill := by
  rw [process, (checkparm_ok hrequest).mpr h]

theorem Converts.unique {other : Bill} (h : Converts userreq bill)
    (hrequest : Answerable userreq) (hother : Converts userreq other) : bill = other :=
  Except.ok.inj (((checkparm_ok hrequest).mpr h).symm.trans ((checkparm_ok hrequest).mpr hother))

theorem save_unopened (db : Calls) (bill : Bill) (h : db.new = false ∨ db.connect = false) :
    ∃ errcode, errcode ≠ 0 ∧ save db bill = (.coded (some errcode), none) := by
  obtain ⟨new, connect, query, close⟩ := db
  cases new with
  | false => exact ⟨ERR_DB_ALLOC, by decide, rfl⟩
  | true =>
    cases connect with
    | false => exact ⟨ERR_DBINIT, by decide, rfl⟩
    | true => rcases h with h | h <;> cases h

theorem save_failed (bill : Bill) (query : Bool) :
    save ⟨true, true, query, false⟩ bill =
      (.coded (some ERR_DBDEINIT), if query then some (uploadBill bill) else none) := by
  cases query <;> rfl

/-- The name of the code has lost an underscore. -/
theorem save_nameless (bill : Bill) :
    save ⟨true, true, false, true⟩ bill = (.coded none, none) := rfl

theorem save_stored (bill : Bill) :
    save ⟨true, true, true, true⟩ bill = (.coded (some 0), some (uploadBill bill)) := rfl

/-- A refusal with a code that has inserted nothing. -/
theorem storedIffAcknowledged_of_refused (h : process db userreq = (reply, none))
    (hreply : reply.Nonzero) : StoredIffAcknowledged db userreq := by
  refine ⟨?_, ?_, ?_⟩
  · intro rows hrows hne
    rw [h] at hrows
    exact absurd hrows hne
  · intro hzero
    obtain ⟨errcode, hne, rfl⟩ := hreply
    rw [h] at hzero
    exact absurd (Option.some.inj (Reply.coded.inj hzero)) hne
  · intro _
    rw [h]
    exact ⟨hreply, fun rows hrows => hrows⟩

theorem storedIffAcknowledged_of_exact (hbill : Converts userreq bill)
    (h : process db userreq = (.coded (some 0), some (uploadBill bill))) (hexact : bill.Exact) :
    StoredIffAcknowledged db userreq := by
  obtain ⟨row, hrow, hholds⟩ := (billRow_iff bill).mpr hexact
  refine ⟨?_, ?_, ?_⟩
  · intro rows hrows _
    rw [h] at hrows
    exact ⟨bill, hbill, row, hrows row hrow, hholds⟩
  · intro _
    rw [h]
    rfl
  · intro hne
    rw [h] at hne
    exact absurd rfl hne

/-- Where the statement does not have the bill's row, something else may be
stored. -/
theorem exact_of_storedIffAcknowledged (hrequest : Answerable userreq)
    (hbill : Converts userreq bill)
    (h : process db userreq = (.coded (some 0), some (uploadBill bill)))
    (hstored : StoredIffAcknowledged db userreq) : bill.Exact := by
  have hholds : ∀ row, (∀ row', billRow? (uploadBill bill) = some row' → row' = row) →
      bill.Holds row := by
    intro row hrow
    have hinserts : Inserts (process db userreq).2 [row] := by
      rw [h]
      intro row' hrow'
      rw [hrow row' hrow']
    obtain ⟨other, hother, row', hrow', hholds⟩ :=
      hstored.stored [row] hinserts (List.cons_ne_nil _ _)
    obtain ⟨rfl, _⟩ := List.cons.inj hrow'
    rwa [hbill.unique hrequest hother]
  apply (billRow_iff bill).mp
  cases hread : billRow? (uploadBill bill) with
  | none =>
    have hnone := hholds [] (fun row' hrow' => absurd hrow' (by simp [hread]))
    cases hnone
  | some row =>
    refine ⟨row, rfl, hholds row ?_⟩
    intro row' hrow'
    rw [hread] at hrow'
    exact (Option.some.inj hrow').symm

theorem not_storedIffAcknowledged_of_uncoded {executed : Option String}
    (h : process db userreq = (reply, executed))
    (hreply : ∀ errcode, reply ≠ .coded (some errcode)) : ¬StoredIffAcknowledged db userreq := by
  intro hstored
  have hrefused := hstored.refused
  rw [h] at hrefused
  obtain ⟨⟨errcode, _, heq⟩, _⟩ := hrefused (hreply 0)
  exact hreply errcode heq

/-- A statement that is executed inserts, whatever is answered. -/
theorem not_storedIffAcknowledged_of_executed {errcode : Int} {sql : String} (hne : errcode ≠ 0)
    (h : process db userreq = (.coded (some errcode), some sql)) :
    ¬StoredIffAcknowledged db userreq := by
  intro hstored
  have hrefused := hstored.refused
  rw [h] at hrefused
  obtain ⟨_, hrows⟩ := hrefused (by simpa using hne)
  cases hread : billRow? sql with
  | none => exact absurd (hrows [[]] (fun row hrow => absurd hrow (by simp [hread]))) (by simp)
  | some row =>
    refine absurd (hrows [row] (fun row' hrow' => ?_)) (by simp)
    rw [hread] at hrow'
    rw [Option.some.inj hrow']

theorem storedIffAcknowledged_converts (hrequest : Answerable userreq)
    (hbill : Converts userreq bill) :
    StoredIffAcknowledged db userreq ↔ (db.new = true → db.connect = true →
      db.close = db.query ∧ (db.query = true → bill.Exact)) := by
  have hprocess := process_of_converts db hrequest hbill
  obtain ⟨new, connect, query, close⟩ := db
  by_cases hopen : new = true ∧ connect = true
  · obtain ⟨rfl, rfl⟩ := hopen
    cases close with
    | false =>
      rw [save_failed] at hprocess
      cases query with
      | false =>
        have hholds := storedIffAcknowledged_of_refused hprocess ⟨ERR_DBDEINIT, by decide, rfl⟩
        simpa using hholds
      | true =>
        have hfails := not_storedIffAcknowledged_of_executed (by decide) hprocess
        simpa using hfails
    | true =>
      cases query with
      | false =>
        have hfails := not_storedIffAcknowledged_of_uncoded (hprocess.trans (save_nameless bill))
          (by simp)
        simpa using hfails
      | true =>
        have hstored := hprocess.trans (save_stored bill)
        simp only [forall_const, true_and]
        exact ⟨exact_of_storedIffAcknowledged hrequest hbill hstored,
          storedIffAcknowledged_of_exact hbill hstored⟩
  · have hunopened : new = false ∨ connect = false := by
      rwa [Classical.not_and_iff_not_or_not, Bool.not_eq_true, Bool.not_eq_true] at hopen
    obtain ⟨errcode, hne, hsave⟩ := save_unopened ⟨new, connect, query, close⟩ bill hunopened
    refine iff_of_true ?_ (fun hnew hconnect => absurd ⟨hnew, hconnect⟩ hopen)
    exact storedIffAcknowledged_of_refused (hprocess.trans hsave) ⟨errcode, hne, rfl⟩

end Bills

section FailedInsert

/-- An order with its ten keywords. -/
def anOrder : Json :=
  .obj "table: 0x1" [("data", .obj "table: 0x2" [("orderinfo", .obj "table: 0x3"
    [("orderID", .str "A1"), ("deviceID", .str "D1"), ("userID", .str "U1"),
      ("userType", .str "vip"), ("orderType", .num 1), ("money", .num 30),
      ("startTime", .num 1), ("duringTime", .num 2), ("refundTime", .num 0),
      ("refundFee", .num 0)])])]

end FailedInsert

end GameAcc.Lua.UploadBilling
