import GameAcc.Lua.UploadRows

/-!
The three front ends `cc_entry.lua`, `ccfei_entry.lua` and `ccwei_entry.lua`.
They share every module but the one for uploads. The second is the same service
as the first wherever the uploaded document does not break out of its literal,
but for the mark its rows carry. The third one calls the upload module of the
second, so every row it inserts carries the mark of the second.
-/

namespace GameAcc.Lua.FrontEnds

open SqlText Statements Entry UploadInfo

/-- A request as nginx hands it over. -/
structure Request where
  method : String
  body : Option String
  addr : RemoteAddr
  now : Date

section Entries

variable {τ : Type} (server : Server τ) (shared : String → Option (Module τ))
  (decode : String → Option Json)

/-- `require`: the upload modules, and those that all front ends share. -/
def package (req : Request) (name : String) : Option (Module τ) :=
  if name = "cc_uploadinfo" then some (process server ccGlobal .cc req.addr req.now)
  else if name = "ccfei_uploadinfo" then
    some (process server ccfeiGlobal .fei req.addr req.now)
  else if name = "ccwei_uploadinfo" then
    some (process server ccweiGlobal .wei req.addr req.now)
  else shared name

/-- A front end with its error table and its branches. -/
def entry (global : Global) (branches : Branches) (req : Request) (w : World τ) :
    Response × World τ :=
  match dispatch global branches decode req.method req.body with
  | .error (.exit errcode) => (.coded errcode none, w)
  | .error (.error message) => (.failed message, w)
  | .ok (name, userdata) =>
    match package server shared req name with
    | none => (.failed "module not found", w)
    | some handler => handler userdata w

def ccEntry : Request → World τ → Response × World τ :=
  entry server shared decode ccGlobal ccBranches

def ccfeiEntry : Request → World τ → Response × World τ :=
  entry server shared decode ccfeiGlobal ccfeiBranches

def ccweiEntry : Request → World τ → Response × World τ :=
  entry server shared decode ccweiGlobal ccweiBranches

end Entries

/-- The two answers are one, and so is what they leave; an upload leaves
everything as it is, or one row that differs in the mark. -/
def SameButMark {τ : Type} (mark : Int) (upload : Prop) (w : World τ)
    (cc marked : Response × World τ) : Prop :=
  marked.1 = cc.1 ∧
    ((marked.2 = cc.2 ∧ (upload → cc.2 = w)) ∨
      upload ∧ ∃ clientip uploadtime content,
        cc.2 = w.insert [⟨clientip, uploadtime, content, none⟩] ∧
        marked.2 = w.insert [⟨clientip, uploadtime, content, some mark⟩])

section Service

variable {τ : Type} {server : Server τ} {shared : String → Option (Module τ)}
  {decode : String → Option Json} {req : Request} {w : World τ}

/-- The request is one that `cc_uploadinfo` serves. -/
def IsUpload (decode : String → Option Json) (req : Request) : Prop :=
  ∃ userdata, dispatch ccGlobal ccBranches decode req.method req.body =
    .ok ("cc_uploadinfo", userdata)

/-- What an upload answers and leaves, by what its statement does. -/
def outcome (server : Server τ) (w : World τ) (userdata : Json) (result : Option (World τ)) :
    Response × World τ :=
  if server.alloc = false then (.coded ccGlobal.ERR_DB_ALLOC none, w)
  else if server.connects = false then (.coded ccGlobal.ERR_DBINIT none, w)
  else if userdata.encodable = false then
    (.failed "Cannot serialise number: must not be NaN or Inf", w)
  else
    match result with
    | none => (.coded (ccGlobal.ERR_MOD_UPLOADINFO_BASE - 3) none, w)
    | some w' =>
      if server.closes = false then (.coded ccGlobal.ERR_DBDEINIT none, w')
      else (.coded 0 none, w')

theorem process_eq (customer : Customer) (userdata : Json) :
    process server ccGlobal customer req.addr req.now userdata w =
      outcome server w userdata (server.query (uploadInfo customer req.addr req.now
        (String.ofList userdata.encode)) w) := by
  unfold process outcome
  split
  · rfl
  split
  · rfl
  split
  · rfl
  cases server.query (uploadInfo customer req.addr req.now (String.ofList userdata.encode)) w with
  | none => rfl
  | some w' => rfl

theorem outcome_none (userdata : Json) : outcome server w userdata none =
    ((outcome server w userdata none).1, w) := by
  unfold outcome
  split
  · rfl
  split
  · rfl
  split <;> rfl

/-- An inserted row is there exactly when the connection was made and the
document has a text. -/
theorem outcome_some (server : Server τ) (w : World τ) (userdata : Json) :
    ∃ response sent, ∀ w' : World τ, outcome server w userdata (some w') =
      (response, if sent = true then w' else w) := by
  unfold outcome
  by_cases halloc : server.alloc = false
  · refine ⟨.coded ccGlobal.ERR_DB_ALLOC none, false, fun w' => ?_⟩
    rw [if_pos halloc]
    rfl
  by_cases hconnects : server.connects = false
  · refine ⟨.coded ccGlobal.ERR_DBINIT none, false, fun w' => ?_⟩
    rw [if_neg halloc, if_pos hconnects]
    rfl
  by_cases hencodable : userdata.encodable = false
  · refine ⟨.failed "Cannot serialise number: must not be NaN or Inf", false, fun w' => ?_⟩
    rw [if_neg halloc, if_neg hconnects, if_pos hencodable]
    rfl
  by_cases hcloses : server.closes = false
  · refine ⟨.coded ccGlobal.ERR_DBDEINIT none, true, fun w' => ?_⟩
    rw [if_neg halloc, if_neg hconnects, if_neg hencodable]
    exact if_pos hcloses
  · refine ⟨.coded 0 none, true, fun w' => ?_⟩
    rw [if_neg halloc, if_neg hconnects, if_neg hencodable]
    exact if_neg hcloses

/-- A document without a text sends no statement. -/
theorem outcome_unencodable {userdata : Json} (h : userdata.encodable = false)
    (result : Option (World τ)) :
    outcome server w userdata result = outcome server w userdata none := by
  unfold outcome
  simp only [if_pos h]

theorem outcome_coded (server : Server τ) (w w' : World τ) {userdata : Json}
    (hup : server.alloc = true) (hconnects : server.connects = true)
    (hcloses : server.closes = true) (hencodable : userdata.encodable = true) :
    outcome server w userdata none = (.coded (-20203) none, w) ∧
      outcome server w userdata (some w') = (.coded 0 none, w') := by
  have hcode : ccGlobal.ERR_MOD_UPLOADINFO_BASE - 3 = -20203 := rfl
  constructor
  · simp [outcome, hup, hconnects, hencodable, hcode]
  · simp [outcome, hup, hconnects, hencodable, hcloses]

/-- The statement of an upload. -/
def statement (req : Request) (userdata : Json) (customer : Customer) : String :=
  uploadInfo customer req.addr req.now (String.ofList userdata.encode)

/-- An upload in each of the front ends: the third one sends the statement of
the second. -/
theorem entries_upload (server : Server τ) (shared : String → Option (Module τ)) (w : World τ)
    {userdata : Json} (h : dispatch ccGlobal ccBranches decode req.method req.body =
      .ok ("cc_uploadinfo", userdata)) :
    ccEntry server shared decode req w =
        outcome server w userdata (server.query (statement req userdata .cc) w) ∧
      ccfeiEntry server shared decode req w =
        outcome server w userdata (server.query (statement req userdata .fei) w) ∧
      ccweiEntry server shared decode req w =
        outcome server w userdata (server.query (statement req userdata .fei) w) := by
  have hrename : ∀ uploadinfo, dispatch ccGlobal (branchesOf uploadinfo) decode req.method
      req.body = .ok (uploadinfo, userdata) := by
    intro uploadinfo
    rw [dispatch_rename, h]
    rfl
  have hfei : dispatch ccfeiGlobal ccfeiBranches decode req.method req.body =
      .ok ("ccfei_uploadinfo", userdata) := hrename _
  have hwei : dispatch ccweiGlobal ccweiBranches decode req.method req.body =
      .ok ("ccfei_uploadinfo", userdata) := hrename _
  refine ⟨?_, ?_, ?_⟩
  · rw [ccEntry, entry, h]
    exact process_eq .cc userdata
  · rw [ccfeiEntry, entry, hfei]
    exact process_eq .fei userdata
  · rw [ccweiEntry, entry, hwei]
    exact process_eq .fei userdata

/-- The front ends are one service on every other request. -/
theorem entries_same (server : Server τ) (shared : String → Option (Module τ)) (w : World τ)
    (h : ¬IsUpload decode req) :
    ccfeiEntry server shared decode req w = ccEntry server shared decode req w ∧
      ccweiEntry server shared decode req w = ccEntry server shared decode req w := by
  have hfei : dispatch ccfeiGlobal ccfeiBranches decode req.method req.body =
      (dispatch ccGlobal ccBranches decode req.method req.body).map
        (fun called => (rename "ccfei_uploadinfo" called.1, called.2)) :=
    dispatch_rename _ _ _ _
  have hwei : dispatch ccweiGlobal ccweiBranches decode req.method req.body =
      (dispatch ccGlobal ccBranches decode req.method req.body).map
        (fun called => (rename "ccfei_uploadinfo" called.1, called.2)) :=
    dispatch_rename _ _ _ _
  unfold ccEntry ccfeiEntry ccweiEntry entry
  rw [hfei, hwei]
  cases hdispatch : dispatch ccGlobal ccBranches decode req.method req.body with
  | error e => cases e <;> exact ⟨rfl, rfl⟩
  | ok called =>
    obtain ⟨name, userdata⟩ := called
    have hname : name ≠ "cc_uploadinfo" := by
      rintro rfl
      exact h ⟨userdata, hdispatch⟩
    constructor <;> simp only [Except.map, rename, if_neg hname]

/-- An upload of one literal inserts one row, with the mark of the module. -/
theorem same_of_literal (server : Server τ) (w : World τ) {userdata : Json}
    (h : OneLiteral userdata.encode) :
    SameButMark 2 True w (outcome server w userdata (server.query (statement req userdata .cc) w))
      (outcome server w userdata (server.query (statement req userdata .fei) w)) := by
  obtain ⟨text, hliteral⟩ := h
  unfold statement
  simp only [query_literal server _ req.addr req.now hliteral]
  by_cases haccepts : server.accepts w req.addr.text.toList req.now.chars text.reverse = true
  · obtain ⟨response, sent, hsome⟩ := outcome_some server w userdata
    simp only [if_pos haccepts, hsome]
    cases sent with
    | false => exact ⟨rfl, .inl ⟨rfl, fun _ => rfl⟩⟩
    | true => exact ⟨rfl, .inr ⟨trivial, _, _, _, rfl, rfl⟩⟩
  · simp only [if_neg haccepts]
    exact ⟨rfl, .inl ⟨rfl, fun _ => by rw [outcome_none userdata]⟩⟩

/-- MySQL refuses the statement of an upload in either form. -/
def BothRefused (req : Request) (userdata : Json) : Prop :=
  Refused (statement req userdata .cc) ∧ Refused (statement req userdata .fei)

theorem same_of_refused (server : Server τ) (w : World τ) {userdata : Json}
    (h : BothRefused req userdata) (mark : Int) :
    SameButMark mark True w (outcome server w userdata (server.query (statement req userdata .cc) w))
      (outcome server w userdata (server.query (statement req userdata .fei) w)) := by
  simp only [query_refused server h.1, query_refused server h.2]
  exact ⟨rfl, .inl ⟨rfl, fun _ => by rw [outcome_none userdata]⟩⟩

theorem same_of_unencodable (server : Server τ) (w : World τ) {userdata : Json}
    (h : userdata.encodable = false) (mark : Int) :
    SameButMark mark True w
      (outcome server w userdata (server.query (statement req userdata .cc) w))
      (outcome server w userdata (server.query (statement req userdata .fei) w)) := by
  rw [outcome_unencodable h, outcome_unencodable h (server.query (statement req userdata .fei) w)]
  exact ⟨rfl, .inl ⟨rfl, fun _ => by rw [outcome_none userdata]⟩⟩

theorem SameButMark.of_upload {mark : Int} {upload : Prop} {cc marked : Response × World τ}
    (hupload : upload) (h : SameButMark mark True w cc marked) :
    SameButMark mark upload w cc marked := by
  obtain ⟨hresponse, ⟨hworld, hkept⟩ | ⟨_, hrow⟩⟩ := h
  · exact ⟨hresponse, .inl ⟨hworld, fun _ => hkept trivial⟩⟩
  · exact ⟨hresponse, .inr ⟨hupload, hrow⟩⟩

theorem SameButMark.of_other {mark : Int} {upload : Prop} {cc marked : Response × World τ}
    (hother : ¬upload) (h : marked = cc) : SameButMark mark upload w cc marked := by
  subst h
  exact ⟨rfl, .inl ⟨rfl, fun hupload => absurd hupload hother⟩⟩

end Service

section Agreement

/-- Whatever MySQL and the shared modules do, the second front end is the same
service as the first on the request, up to its mark. -/
def FeiAgrees (decode : String → Option Json) (req : Request) : Prop :=
  ∀ (τ : Type) (server : Server τ) (shared : String → Option (Module τ)) (w : World τ),
    SameButMark 2 (IsUpload decode req) w (ccEntry server shared decode req w)
      (ccfeiEntry server shared decode req w)

/-- The three front ends are one service on the request, up to their marks. -/
def FrontEndsAgree (decode : String → Option Json) (req : Request) : Prop :=
  ∀ (τ : Type) (server : Server τ) (shared : String → Option (Module τ)) (w : World τ),
    SameButMark 2 (IsUpload decode req) w (ccEntry server shared decode req w)
        (ccfeiEntry server shared decode req w) ∧
      SameButMark 3 (IsUpload decode req) w (ccEntry server shared decode req w)
        (ccweiEntry server shared decode req w)

variable {decode : String → Option Json} {req : Request} {userdata : Json}

theorem statement_ne : statement req userdata .cc ≠ statement req userdata .fei := by
  intro h
  have hlength := congrArg String.length h
  have hcc : (uploadHead .cc).length + Customer.cc.mark.length = 70 := by
    decide +kernel
  have hfei : (uploadHead .fei).length + Customer.fei.mark.length = 83 := by
    decide +kernel
  simp only [statement, uploadInfo, String.length_append] at hlength
  omega

/-- A server that takes everything, and no other statement. -/
def permissive : Server Unit := ⟨true, true, true, fun _ _ _ _ => true, fun _ _ => none⟩

/-- A server that takes one statement only. -/
def only (sql : String) : Server Unit :=
  ⟨true, true, true, fun _ _ _ _ => false, fun sql' w => if sql' = sql then some w else none⟩

def empty : World Unit := ⟨[], ()⟩

theorem permissive_rows {sql : String}
    (h : (permissive.query sql empty).isSome = true) : ∃ tokens insert rows,
      lex sql.toList = some tokens ∧ parseInsert tokens = some insert ∧
      insert.rows.mapM (uploadRow insert.columns) = some rows ∧
      permissive.query sql empty = some (empty.insert rows) := by
  obtain ⟨w', hquery⟩ := Option.isSome_iff_exists.mp h
  obtain ⟨tokens, hlex, ⟨_, hother⟩ | ⟨insert, rows, hparse, hrows, _, rfl⟩⟩ :=
    query_some permissive hquery
  · cases hother
  · exact ⟨tokens, insert, rows, hlex, hparse, hrows, hquery⟩

theorem only_takes {sql : String} {tokens : List Token} (hlex : lex sql.toList = some tokens)
    (hparse : parseInsert tokens = none) : (only sql).query sql empty = some empty := by
  rw [query_other (only sql) hlex hparse]
  exact if_pos rfl

theorem only_taken {sql sql' : String} {w : World Unit}
    (h : ((only sql).query sql' w).isSome = true) : sql' = sql := by
  obtain ⟨w', hquery⟩ := Option.isSome_iff_exists.mp h
  obtain ⟨tokens, _, ⟨_, hother⟩ | ⟨insert, rows, hparse, hrows, htakes, _⟩⟩ :=
    query_some (only sql) hquery
  · exact (Option.ite_none_right_eq_some.mp hother).1
  · exfalso
    have hpos := parseInsert_rows hparse
    rw [← mapM_length hrows] at hpos
    obtain ⟨row, rest, rfl⟩ := List.exists_cons_of_length_pos hpos
    simp [Server.takes, only] at htakes

/-- On an agreed upload the server takes both statements, or none. -/
theorem queries_agree (hagree : FeiAgrees decode req)
    (hupload : dispatch ccGlobal ccBranches decode req.method req.body =
      .ok ("cc_uploadinfo", userdata)) (hencodable : userdata.encodable = true)
    (server : Server Unit) (hup : server.alloc = true)
    (hconnects : server.connects = true) (hcloses : server.closes = true) (w : World Unit) :
    (server.query (statement req userdata .fei) w).isSome =
      (server.query (statement req userdata .cc) w).isSome := by
  obtain ⟨hcc, hfei, _⟩ := entries_upload server (fun _ => none) w hupload
  obtain ⟨hresponse, _⟩ := hagree Unit server (fun _ => none) w
  rw [hcc, hfei] at hresponse
  have hcoded := fun w' => outcome_coded server w w' hup hconnects hcloses hencodable
  cases hquery : server.query (statement req userdata .fei) w with
  | none =>
    cases hquery' : server.query (statement req userdata .cc) w with
    | none => rfl
    | some w' =>
      rw [hquery, hquery', (hcoded w).1, (hcoded w').2] at hresponse
      simp at hresponse
  | some w'' =>
    cases hquery' : server.query (statement req userdata .cc) w with
    | none =>
      rw [hquery, hquery', (hcoded w'').1, (hcoded w'').2] at hresponse
      simp at hresponse
    | some w' => rfl

/-- A server that takes one statement only sees the front ends apart when it is
no INSERT. -/
theorem parse_of_agree (hagree : FeiAgrees decode req)
    (hupload : dispatch ccGlobal ccBranches decode req.method req.body =
      .ok ("cc_uploadinfo", userdata)) (hencodable : userdata.encodable = true)
    {customer : Customer} (hsent : customer = .cc ∨ customer = .fei) {tokens : List Token}
    (hlex : lex (statement req userdata customer).toList = some tokens) :
    ∃ insert, parseInsert tokens = some insert := by
  cases hparse : parseInsert tokens with
  | some insert => exact ⟨insert, rfl⟩
  | none =>
    exfalso
    have hall := queries_agree hagree hupload hencodable (only (statement req userdata customer))
      rfl rfl rfl empty
    have htakes := congrArg Option.isSome (only_takes hlex hparse)
    rcases hsent with rfl | rfl
    · exact statement_ne (only_taken (hall.trans htakes)).symm
    · exact statement_ne (only_taken (hall.symm.trans htakes))

/-- One row of the permissive server is the one of its values. -/
theorem single_of_row {customer : Customer} {row : UploadRow} {tokens : List Token}
    {insert : Insert}
    (hlex : lex (statement req userdata customer).toList = some tokens)
    (hparse : parseInsert tokens = some insert)
    (hrows : insert.rows.mapM (uploadRow insert.columns) = some [row]) :
    ∃ rest others, readFrom (.quoted '\'' [])
        (userdata.encode ++ '\'' :: (customer.mark ++ ")").toList) = some rest ∧
      parseValues rest = some (others, []) ∧
      others.length + 2 = (columns customer).length := by
  obtain ⟨values, hvalues⟩ : ∃ values, insert.rows = [values] := by
    have hlength := mapM_length hrows
    exact List.length_eq_one_iff.mp hlength.symm
  obtain ⟨rest, others, hrest, hothers, hlength⟩ := values_of_single hlex hparse hvalues
  refine ⟨rest, others, hrest, hothers, ?_⟩
  rw [← hlength, ← columns_of_upload hlex hparse]
  by_contra hne
  have hmem : values ∈ insert.rows := by
    rw [hvalues]
    exact List.mem_singleton_self values
  rw [rows_misfit ⟨values, hmem, hne⟩] at hrows
  cases hrows

/-- A document that one of the two statements gets through is one literal. -/
theorem literal_of_agree (hagree : FeiAgrees decode req)
    (hupload : dispatch ccGlobal ccBranches decode req.method req.body =
      .ok ("cc_uploadinfo", userdata)) (hencodable : userdata.encodable = true)
    {customer : Customer} (hsent : customer = .cc ∨ customer = .fei)
    (h : ¬Refused (statement req userdata customer)) : OneLiteral userdata.encode := by
  have hfits : (permissive.query (statement req userdata customer) empty).isSome = true := by
    unfold Refused at h
    push Not at h
    obtain ⟨tokens, hlex, hwidth⟩ := h
    obtain ⟨insert, hparse⟩ := parse_of_agree hagree hupload hencodable hsent hlex
    have hcolumns := columns_of_upload hlex hparse
    have hfits : ∀ values ∈ insert.rows, values.length = (columns customer).length := by
      intro values hvalues
      rw [hwidth insert hparse values hvalues, hcolumns]
    obtain ⟨rows, hrows, _⟩ := rows_fit hfits
    rw [← hcolumns] at hrows
    have htakes : rows.all (permissive.takes empty) = true := by
      simp [Server.takes, permissive]
    rw [query_insert permissive hlex hparse hrows, if_pos htakes]
    rfl
  have hall := queries_agree hagree hupload hencodable permissive rfl rfl rfl empty
  obtain ⟨hcc, hfei⟩ :
      (permissive.query (statement req userdata .cc) empty).isSome = true ∧
        (permissive.query (statement req userdata .fei) empty).isSome = true := by
    rcases hsent with rfl | rfl
    · exact ⟨hfits, hall.trans hfits⟩
    · exact ⟨hall.symm.trans hfits, hfits⟩
  obtain ⟨tokens, insert, rows, hlex, hparse, hrows, hquery⟩ := permissive_rows hcc
  obtain ⟨tokens', insert', rows', hlex', hparse', hrows', hquery'⟩ := permissive_rows hfei
  obtain ⟨hentry, hentry', _⟩ := entries_upload permissive (fun _ => none) empty hupload
  have hsame := hagree Unit permissive (fun _ => none) empty
  have hcoded := fun w' => (outcome_coded permissive empty w' rfl rfl rfl hencodable).2
  rw [hentry, hentry', hquery, hquery', hcoded, hcoded] at hsame
  obtain ⟨_, ⟨_, hkept⟩ | ⟨_, clientip, uploadtime, content, hcc, hfei⟩⟩ := hsame
  · have hnone : rows = [] := congrArg World.uploads (hkept ⟨userdata, hupload⟩)
    have hpos := parseInsert_rows hparse
    rw [← mapM_length hrows, hnone] at hpos
    cases hpos
  · obtain rfl : rows = [⟨clientip, uploadtime, content, none⟩] := congrArg World.uploads hcc
    obtain rfl : rows' = [⟨clientip, uploadtime, content, some 2⟩] :=
      congrArg World.uploads hfei
    obtain ⟨rest, others, hrest, hvalues, hlength⟩ := single_of_row hlex hparse hrows
    obtain ⟨rest', others', hrest', hvalues', hlength'⟩ := single_of_row hlex' hparse' hrows'
    obtain ⟨token, value, more, rfl, ⟨_, rfl⟩ | ⟨tail, _, htail⟩⟩ := parseValues_cons hvalues
    · obtain ⟨token', value', more', rfl, ⟨rfl, _⟩ | ⟨tail', rfl, _⟩⟩ :=
        parseValues_cons hvalues'
      · cases hlength'
      · exact oneLiteral_of_rows hrest hrest'
    · obtain ⟨_, _, _, rfl, _⟩ := parseValues_cons htail
      cases hlength

/-- The second front end is the same service as the first up to its mark exactly
when the request is no upload, the uploaded document has no text or is one
literal, or MySQL refuses both statements as it reads. -/
theorem fei_agrees_iff (decode : String → Option Json) (req : Request) :
    FeiAgrees decode req ↔
      ∀ userdata, dispatch ccGlobal ccBranches decode req.method req.body =
          .ok ("cc_uploadinfo", userdata) → userdata.encodable = true →
        OneLiteral userdata.encode ∨ BothRefused req userdata := by
  constructor
  · intro hagree userdata hupload hencodable
    by_cases hcc : Refused (statement req userdata .cc)
    · by_cases hfei : Refused (statement req userdata .fei)
      · exact .inr ⟨hcc, hfei⟩
      · exact .inl (literal_of_agree hagree hupload hencodable (.inr rfl) hfei)
    · exact .inl (literal_of_agree hagree hupload hencodable (.inl rfl) hcc)
  · intro h τ server shared w
    by_cases hupload : IsUpload decode req
    · obtain ⟨userdata, hdispatch⟩ := id hupload
      obtain ⟨hcc, hfei, _⟩ := entries_upload server shared w hdispatch
      rw [hcc, hfei]
      apply SameButMark.of_upload hupload
      cases hencodable : userdata.encodable with
      | false => exact same_of_unencodable server w hencodable 2
      | true =>
        rcases h userdata hdispatch hencodable with hliteral | hrefused
        · exact same_of_literal server w hliteral
        · exact same_of_refused server w hrefused 2
    · exact SameButMark.of_other hupload (entries_same server shared w hupload).1

/-- An upload of one literal through the third front end has the wrong mark. -/
theorem wei_wrong_mark (hupload : dispatch ccGlobal ccBranches decode req.method req.body =
      .ok ("cc_uploadinfo", userdata)) (hencodable : userdata.encodable = true)
    (hliteral : OneLiteral userdata.encode) :
    ¬FrontEndsAgree decode req := by
  intro hagree
  obtain ⟨text, htext⟩ := hliteral
  obtain ⟨hcc, _, hwei⟩ := entries_upload permissive (fun _ => none) empty hupload
  obtain ⟨_, hsame⟩ := hagree Unit permissive (fun _ => none) empty
  have hquery : ∀ customer, permissive.query (statement req userdata customer) empty =
      some (empty.insert [⟨req.addr.text.toList, req.now.chars, text.reverse,
        customerid customer⟩]) :=
    fun customer => query_literal permissive customer req.addr req.now htext empty
  have hcoded := fun w' => (outcome_coded permissive empty w' rfl rfl rfl hencodable).2
  rw [hcc, hwei, hquery .cc, hquery .fei, hcoded, hcoded] at hsame
  obtain ⟨_, ⟨_, hkept⟩ | ⟨_, clientip, uploadtime, content, _, hmarked⟩⟩ := hsame
  · have hnone := congrArg World.uploads (hkept ⟨userdata, hupload⟩)
    cases hnone
  · have hrows : [(⟨req.addr.text.toList, req.now.chars, text.reverse, some 2⟩ : UploadRow)] =
        [⟨clientip, uploadtime, content, some 3⟩] := congrArg World.uploads hmarked
    have hmark := congrArg UploadRow.customerid (List.cons.inj hrows).1
    have htwo : (2 : Int) = 3 := Option.some.inj hmark
    omega

/-- The three front ends are one service up to their marks exactly on the requests
that are no uploads, on uploads of a document without a text, and on uploads
whose statements MySQL refuses as it reads. -/
theorem front_ends_agree_iff (decode : String → Option Json) (req : Request) :
    FrontEndsAgree decode req ↔
      ∀ userdata, dispatch ccGlobal ccBranches decode req.method req.body =
          .ok ("cc_uploadinfo", userdata) → userdata.encodable = true →
        BothRefused req userdata := by
  constructor
  · intro hagree userdata hupload hencodable
    have hfei : FeiAgrees decode req := fun τ server shared w => (hagree τ server shared w).1
    rcases (fei_agrees_iff decode req).mp hfei userdata hupload hencodable with hliteral | hrefused
    · exact absurd hagree (wei_wrong_mark hupload hencodable hliteral)
    · exact hrefused
  · intro h τ server shared w
    have hfei : FeiAgrees decode req :=
      (fei_agrees_iff decode req).mpr fun userdata hupload hencodable =>
        .inr (h userdata hupload hencodable)
    refine ⟨hfei τ server shared w, ?_⟩
    by_cases hupload : IsUpload decode req
    · obtain ⟨userdata, hdispatch⟩ := id hupload
      obtain ⟨hcc, _, hwei⟩ := entries_upload server shared w hdispatch
      rw [hcc, hwei]
      apply SameButMark.of_upload hupload
      cases hencodable : userdata.encodable with
      | false => exact same_of_unencodable server w hencodable 3
      | true => exact same_of_refused server w (h userdata hdispatch hencodable) 3
    · exact SameButMark.of_other hupload (entries_same server shared w hupload).2

end Agreement

section Mark

/-- A decoder of one text. -/
def readsAs (bodyStr : String) (userdata : Json) (s : String) : Option Json :=
  if s = bodyStr then some userdata else none

theorem readsAs_self (bodyStr : String) (userdata : Json) :
    readsAs bodyStr userdata bodyStr = some userdata := if_pos rfl

def plainUpload : Json :=
  .obj "table: 0x1" [("uid", .str "u1"), ("devicetype", .str "1101"), ("usertype", .str "2"),
    ("cmdid", .str "2"), ("version", .str "0.1"), ("time", .str "1")]

def plainUploadBody : String :=
  "\x7b\"uid\":\"u1\",\"devicetype\":\"1101\",\"usertype\":\"2\",\"cmdid\":\"2\"," ++
    "\"version\":\"0.1\",\"time\":\"1\"\x7d"

def plainUploadRequest : Request := ⟨"POST", some plainUploadBody, localhost, newYear⟩

theorem plainUpload_dispatch : dispatch ccGlobal ccBranches
    (readsAs plainUploadBody plainUpload) plainUploadRequest.method plainUploadRequest.body =
      .ok ("cc_uploadinfo", plainUpload) := by
  have hmissing : anyNil plainUpload
      ["uid", "devicetype", "usertype", "cmdid", "version", "time"] = .ok false := rfl
  have hcheck : check ccGlobal plainUpload = .ok 2 := by
    have h1101 : (Value.str "1101").tonumber = some 1101 := by
      decide +kernel
    have h2 : (Value.str "2").tonumber = some 2 := by
      decide +kernel
    have h1 : (Value.str "1").tonumber = some 1 := by
      decide +kernel
    have hdevice : (1101 : Double).rat = some 1101 := by
      decide +kernel
    have huser : (2 : Double).rat = some 2 := by
      decide +kernel
    simp [check, member, plainUpload, List.lookup_cons, Json.index, Json.ofMember, Json.value,
      h1101, h2, h1, hdevice, huser, bind, Except.bind, Except.map, Value.tostring]
  have hbranch : branch ccGlobal ccBranches 2 = .ok "cc_uploadinfo" := by
    decide +kernel
  simp [dispatch, plainUploadRequest, readsAs_self, select, hmissing, hcheck, hbranch, bind,
    Except.bind]

/-- A plain upload through the third front end is stored as one of the second. -/
theorem plain_upload_misattributed :
    ((ccweiEntry permissive (fun _ => none) (readsAs plainUploadBody plainUpload)
        plainUploadRequest empty).2.uploads.map UploadRow.customerid = [some 2]) ∧
      ¬FrontEndsAgree (readsAs plainUploadBody plainUpload) plainUploadRequest := by
  have hquote : OneLiteral plainUpload.encode := by
    have hall : (plainUpload.texts.all fun s => s.toList.all fun c => c != '\'') = true := by
      decide +kernel
    exact oneLiteral_of_no_quote (by simpa using hall)
  have hencodable : plainUpload.encodable = true := by
    simp [Json.encodable, plainUpload, Json.numbers, Json.numbersMembers]
  refine ⟨?_, wei_wrong_mark plainUpload_dispatch hencodable hquote⟩
  obtain ⟨text, hliteral⟩ := hquote
  rw [(entries_upload permissive (fun _ => none) empty plainUpload_dispatch).2.2, statement,
    query_literal permissive .fei _ _ hliteral]
  rfl

end Mark

end GameAcc.Lua.FrontEnds
