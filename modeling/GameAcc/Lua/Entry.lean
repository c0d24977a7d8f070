import GameAcc.Lua.Json

/-!
`cc_entry.lua` and its copies for the other customers: the check of a request
and the choice of the module that serves it. The copies have error tables of
their own, and `ccfei_entry.lua` names one module of its own, which
`ccwei_entry.lua` names as well.
-/

namespace GameAcc.Lua.Entry

/-- The error table of a front end. -/
structure Global where
  ERR_INVALID_METHOD : Int
  ERR_NO_BODYDATA : Int
  ERR_INVALID_PARAM : Int
  ERR_PARAM_TYPE : Int
  ERR_UNSUPPORT_VERSION : Int
  ERR_UNSUPPORT_CMD : Int
  ERR_UNSUPPORT_DEVICE : Int
  ERR_UNSUPPORT_USERTYPE : Int
  ERR_INVALID_JSON_FORMAT : Int
  ERR_DB_ALLOC : Int
  ERR_DBINIT : Int
  ERR_DBDEINIT : Int
  ERR_MOD_UPLOADINFO_BASE : Int
  deriving DecidableEq

/-- The table as every front end writes it, over its own base. -/
def globalOf (ERR_BASE_ERROR : Int) : Global where
  ERR_INVALID_METHOD := ERR_BASE_ERROR - 1
  ERR_NO_BODYDATA := ERR_BASE_ERROR - 2
  ERR_INVALID_PARAM := ERR_BASE_ERROR - 3
  ERR_PARAM_TYPE := ERR_BASE_ERROR - 4
  ERR_UNSUPPORT_VERSION := ERR_BASE_ERROR - 5
  ERR_UNSUPPORT_CMD := ERR_BASE_ERROR - 6
  ERR_UNSUPPORT_DEVICE := ERR_BASE_ERROR - 7
  ERR_UNSUPPORT_USERTYPE := ERR_BASE_ERROR - 8
  ERR_INVALID_JSON_FORMAT := ERR_BASE_ERROR - 9
  ERR_DB_ALLOC := ERR_BASE_ERROR - 10
  ERR_DBINIT := ERR_BASE_ERROR - 11
  ERR_DBDEINIT := ERR_BASE_ERROR - 12
  ERR_MOD_UPLOADINFO_BASE := ERR_BASE_ERROR - 200

def ccGlobal : Global := globalOf (-20000)

def ccfeiGlobal : Global := globalOf (-20000)

def ccweiGlobal : Global := globalOf (-20000)

/-- The modules by command, as the branches of an entry name them. -/
abbrev Branches : Type := List (ℚ × String)

def branchesOf (uploadinfo : String) : Branches :=
  [(1, "cc_getgamelist"), (2, uploadinfo), (3, "cc_getvpnip"), (4, "cc_getlistversion"),
    (5, "cc_getvpnlist"), (6, "cc_getgamelistport"), (7, "cc_getgamelistporttext")]

def ccBranches : Branches := branchesOf "cc_uploadinfo"

def ccfeiBranches : Branches := branchesOf "ccfei_uploadinfo"

/-- The entry of the third customer names the upload module of the second one. -/
def ccweiBranches : Branches := branchesOf "ccfei_uploadinfo"

/-- Whether one of the members is nil; the first one that is ends the test. -/
def anyNil (userdata : Json) : List String → Except Stop Bool
  | [] => .ok false
  | key :: rest => do
    let member ← userdata.index key
    if member.isNone then .ok true else anyNil userdata rest

def member (userdata : Json) (key : String) : Except Stop Value :=
  (userdata.index key).map Json.ofMember

theorem member_of_indexable {v : Json} (h : v.indexable = true) (key : String) :
    member v key = .ok (Json.ofMember (v.get? key)) := by
  rw [member, Json.index_of_indexable h]
  rfl

/-- An evaluation of a handler that asks no server. -/
def evaluate {α : Type} : Except Stop α → Handler α
  | .ok a => .done a
  | .error e => .stop e

/-- A request is answered: it never ends in a Lua error, a wrong shape gets a
negative code, and code 0 is what it gets when nothing is there to serve it
with. -/
structure Guarantee {α : Type} (result : Except Stop α) (wrong unserved : Prop) : Prop where
  answered : ∀ message, result ≠ .error (.error message)
  negative : wrong → ∃ errcode, errcode < 0 ∧ result = .error (.exit errcode)
  zero : unserved → (∃ a, result = .ok a) ∨ result = .error (.exit 0)

section Guarantee

variable {α : Type} {result : Except Stop α} {wrong unserved : Prop}

theorem guarantee_exit {errcode : Int} (h : result = .error (.exit errcode))
    (hnegative : errcode < 0) (hserved : ¬unserved) : Guarantee result wrong unserved where
  answered := by
    rintro message rfl
    cases h
  negative := fun _ => ⟨errcode, hnegative, h⟩
  zero := fun hunserved => absurd hunserved hserved

theorem guarantee_ok {a : α} (h : result = .ok a) (hright : ¬wrong) :
    Guarantee result wrong unserved where
  answered := by
    rintro message rfl
    cases h
  negative := fun hwrong => absurd hwrong hright
  zero := fun _ => .inl ⟨a, h⟩

theorem not_guarantee_error {message : String} (h : result = .error (.error message)) :
    ¬Guarantee result wrong unserved := fun hguarantee => hguarantee.answered message h

/-- A wrong shape that is not turned down. -/
theorem not_guarantee_wrong (hwrong : wrong)
    (h : ∀ e, result = .error e → e.IsError) : ¬Guarantee result wrong unserved := by
  intro hguarantee
  obtain ⟨errcode, _, hexit⟩ := hguarantee.negative hwrong
  exact h _ hexit

end Guarantee

section Dispatch

variable (global : Global) (branches : Branches)

/-- The tests of the members' types and values; what is left is the command. -/
def check (userdata : Json) : Except Stop Double := do
  let devicetype ← member userdata "devicetype"
  let usertype ← member userdata "usertype"
  let cmdid ← member userdata "cmdid"
  let version ← member userdata "version"
  let reqtime ← member userdata "time"
  match devicetype.tonumber, usertype.tonumber, cmdid.tonumber, reqtime.tonumber with
  | some devicetype, some usertype, some cmdid, some _ =>
    if devicetype.rat ≠ some 1101 ∧ devicetype.rat ≠ some 1102 then
      .error (.exit global.ERR_UNSUPPORT_DEVICE)
    else if usertype.rat ≠ some 2 ∧ usertype.rat ≠ some 1 then
      .error (.exit global.ERR_UNSUPPORT_USERTYPE)
    else if version.tostring = "0.1" then .ok cmdid
    else .error (.exit global.ERR_UNSUPPORT_VERSION)
  | _, _, _, _ => .error (.exit global.ERR_PARAM_TYPE)

def branch (cmdid : Double) : Except Stop String :=
  match cmdid.rat.bind (branches.lookup ·) with
  | some name => .ok name
  | none => .error (.exit global.ERR_UNSUPPORT_CMD)

def select (userdata : Json) : Except Stop (String × Json) := do
  let missing ← anyNil userdata ["uid", "devicetype", "usertype", "cmdid", "version", "time"]
  if missing = true then .error (.exit global.ERR_INVALID_PARAM)
  else do
    let cmdid ← check global userdata
    let name ← branch global branches cmdid
    .ok (name, userdata)

/-- A request up to the call of its module: the module's name and the decoded
body. `cjson.decode` fails on a text that is no JSON. -/
def dispatch (decode : String → Option Json) (method : String) (body : Option String) :
    Except Stop (String × Json) :=
  if method ≠ "POST" then .error (.exit global.ERR_INVALID_METHOD)
  else
    match body with
    | none => .error (.exit global.ERR_NO_BODYDATA)
    | some bodyStr =>
      match decode bodyStr with
      | none => .error (.exit global.ERR_INVALID_JSON_FORMAT)
      | some userdata => select global branches userdata

end Dispatch

section Rejections

variable {userdata : Json}

theorem anyNil_indexable (h : userdata.indexable = true) (keys : List String) :
    anyNil userdata keys = .ok (keys.any (fun key => (userdata.get? key).isNone)) := by
  induction keys with
  | nil => rfl
  | cons key rest ih =>
    simp only [anyNil, Json.index_of_indexable h, bind, Except.bind, ih, List.any_cons]
    cases (userdata.get? key).isNone <;> rfl

theorem check_rejects (h : userdata.indexable = true) {e : Stop}
    (hcheck : check ccGlobal userdata = .error e) :
    ∃ errcode, errcode < 0 ∧ e = .exit errcode := by
  simp only [check, member_of_indexable h, bind, Except.bind] at hcheck
  split at hcheck
  · split at hcheck
    · exact ⟨_, by decide, (Except.error.inj hcheck).symm⟩
    split at hcheck
    · exact ⟨_, by decide, (Except.error.inj hcheck).symm⟩
    split at hcheck
    · cases hcheck
    · exact ⟨_, by decide, (Except.error.inj hcheck).symm⟩
  · exact ⟨_, by decide, (Except.error.inj hcheck).symm⟩

/-- A body that can be indexed is never an error of Lua before its module is
called, and what is turned down gets a negative code. -/
theorem select_rejects (h : userdata.indexable = true) {e : Stop}
    (hselect : select ccGlobal ccBranches userdata = .error e) :
    ∃ errcode, errcode < 0 ∧ e = .exit errcode := by
  unfold select at hselect
  rw [anyNil_indexable h] at hselect
  simp only [bind, Except.bind] at hselect
  split at hselect
  · exact ⟨_, by decide, (Except.error.inj hselect).symm⟩
  cases hcheck : check ccGlobal userdata with
  | error e' =>
    simp only [hcheck] at hselect
    obtain rfl := Except.error.inj hselect
    exact check_rejects h hcheck
  | ok cmdid =>
    simp only [hcheck, branch] at hselect
    cases hlookup : cmdid.rat.bind (ccBranches.lookup ·) with
    | none =>
      simp only [hlookup] at hselect
      exact ⟨_, by decide, (Except.error.inj hselect).symm⟩
    | some name =>
      simp only [hlookup] at hselect
      cases hselect

/-- A body that cannot is an error of Lua. -/
theorem select_raises (global : Global) (branches : Branches) (h : userdata.indexable = false) :
    ∃ message, select global branches userdata = .error (.error message) := by
  obtain ⟨message, hindex⟩ := Json.index_of_not_indexable h
  refine ⟨message, ?_⟩
  simp only [select, anyNil, hindex]
  rfl

/-- A module is called with an object. -/
theorem isObject_of_select {global : Global} {branches : Branches} {called : String × Json}
    (h : select global branches userdata = .ok called) : userdata.isObject = true := by
  by_contra hnot
  have hget := Json.get?_of_not_object (Bool.eq_false_iff.mpr hnot)
  cases hindex : userdata.indexable with
  | false =>
    obtain ⟨message, hraise⟩ := select_raises global branches hindex
    rw [hraise] at h
    cases h
  | true =>
    unfold select at h
    simp only [anyNil_indexable hindex, hget] at h
    cases h

end Rejections

section Names

/-- The module's name in a front end whose upload module is `uploadinfo`. -/
def rename (uploadinfo name : String) : String :=
  if name = "cc_uploadinfo" then uploadinfo else name

variable {global : Global}

theorem branch_rename (uploadinfo : String) (cmdid : Double) :
    branch global (branchesOf uploadinfo) cmdid =
      (branch global ccBranches cmdid).map (rename uploadinfo) := by
  have hlookup : ∀ q : ℚ, (branchesOf uploadinfo).lookup q =
      (ccBranches.lookup q).map (rename uploadinfo) := by
    intro q
    simp only [ccBranches, branchesOf, List.lookup_cons, List.lookup_nil]
    repeat' split
    all_goals rfl
  unfold branch
  cases cmdid.rat with
  | none => rfl
  | some q =>
    simp only [Option.bind_some, hlookup]
    cases ccBranches.lookup q <;> rfl

theorem select_rename (uploadinfo : String) (userdata : Json) :
    select global (branchesOf uploadinfo) userdata =
      (select global ccBranches userdata).map
        (fun called => (rename uploadinfo called.1, called.2)) := by
  unfold select
  cases anyNil userdata ["uid", "devicetype", "usertype", "cmdid", "version", "time"] with
  | error e => rfl
  | ok missing =>
    cases missing with
    | true => rfl
    | false =>
      cases hcheck : check global userdata with
      | error e => rfl
      | ok cmdid =>
        show (branch global (branchesOf uploadinfo) cmdid).bind _ = Except.map _
          ((branch global ccBranches cmdid).bind _)
        rw [branch_rename]
        cases branch global ccBranches cmdid <;> rfl

/-- The front ends call the same modules, but for that of the uploads. -/
theorem dispatch_rename (uploadinfo : String) (decode : String → Option Json)
    (method : String) (body : Option String) :
    dispatch global (branchesOf uploadinfo) decode method body =
      (dispatch global ccBranches decode method body).map
        (fun called => (rename uploadinfo called.1, called.2)) := by
  unfold dispatch
  split
  · rfl
  cases body with
  | none => rfl
  | some bodyStr =>
    cases hdecode : decode bodyStr with
    | none => simp only [hdecode]; rfl
    | some userdata =>
      simp only [hdecode]
      exact select_rename uploadinfo userdata

theorem ok_of_bind {α β : Type} {p : Except Stop α} {f : α → Except Stop β} {b : β}
    (h : p >>= f = .ok b) : ∃ a, p = .ok a ∧ f a = .ok b := by
  cases p with
  | error e => cases h
  | ok a => exact ⟨a, rfl, h⟩

/-- A module is called with the decoded body. -/
theorem select_userdata {branches : Branches} {userdata : Json} {called : String × Json}
    (h : select global branches userdata = .ok called) : called.2 = userdata := by
  unfold select at h
  obtain ⟨missing, _, h⟩ := ok_of_bind h
  split at h
  · cases h
  obtain ⟨cmdid, _, h⟩ := ok_of_bind h
  obtain ⟨name, _, h⟩ := ok_of_bind h
  obtain rfl := Except.ok.inj h
  rfl

end Names

end GameAcc.Lua.Entry
