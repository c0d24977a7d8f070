import GameAcc.Lua.Json

/-!
The SQL statements that carry values of a request, as texts. The values are put
between quotes without an escape, except the order type of a bill, which has no
quotes at all. So a value stays data when MySQL reads it back as it is; a
document that is uploaded does when its text needs no escape in JSON and has no
quote.
-/

namespace GameAcc.Lua.Statements

open SqlText

/-- `os.date("%Y-%m-%d %H:%M:%S")`. -/
structure Date where
  year : Nat
  month : Nat
  day : Nat
  hour : Nat
  min : Nat
  sec : Nat

def twoDigits (n : Nat) : List Char := (Nat.toDigits 10 n).leftpad 2 '0'

def Date.chars (d : Date) : List Char :=
  Nat.toDigits 10 d.year ++ '-' :: (twoDigits d.month ++ '-' :: (twoDigits d.day ++
    ' ' :: (twoDigits d.hour ++ ':' :: (twoDigits d.min ++ ':' :: twoDigits d.sec))))

def Date.text (d : Date) : String := String.ofList d.chars

/-- `ngx.var.remote_addr`: an IPv4 or IPv6 address, or the mark of a local
socket. -/
structure RemoteAddr where
  text : String
  address : text.toList.all (fun c => c.isAlphanum || c == '.' || c == ':') = true

/-- The statement up to the quote before the name. -/
def historyHead : String :=
  "insert into game_user_history_tbl(username,starttime,gameid,gameregionid) values ("

def saveUserHistory (now : Date) (gameid regionid : Double) (uid : String) : String :=
  historyHead ++ "'" ++ uid ++ "','" ++ now.text ++ "'," ++ numberText gameid ++ "," ++
    numberText regionid ++ ")"

def acctHead : String :=
  "select UNIX_TIMESTAMP(starttime),gameid,gameregionid from game_user_history_tbl where username="

def queryAcct (timestart timeend count : Double) (uid : String) : String :=
  acctHead ++ "'" ++ uid ++ "' and starttime>FROM_UNIXTIME(" ++ numberText timestart ++
    ") and starttime<FROM_UNIXTIME(" ++ numberText timeend ++ ")" ++
    (if count.rat ≠ some 0 then " limit " ++ numberText count else "")

/-- The front ends that upload: the one without a mark and the marked ones. -/
inductive Customer where
  | cc
  | fei
  | wei
  deriving DecidableEq

/-- The column of the mark. -/
def Customer.column : Customer → String
  | .cc => ""
  | .fei => ",customerid"
  | .wei => ",customerid"

def Customer.mark : Customer → String
  | .cc => ""
  | .fei => ",2"
  | .wei => ",3"

def uploadHead (customer : Customer) : String :=
  "insert into game_sdk_upload_tbl (clientip,uploadtime,content" ++ customer.column ++
    ") values ("

def uploadInfo (customer : Customer) (addr : RemoteAddr) (now : Date) (infostr : String) :
    String :=
  uploadHead customer ++ "'" ++ addr.text ++ "','" ++ now.text ++ "','" ++ infostr ++ "'" ++
    customer.mark ++ ")"

/-- What `checkparm` leaves of a bill. -/
structure Bill where
  orderID : String
  deviceID : String
  userID : String
  userType : String
  orderType : String
  money : Double
  startTime : Double
  duringTime : Double
  refundTime : Double
  refundFee : Double

/-- The members from `money` on, and the end of the statement. -/
def Bill.amounts (bill : Bill) : String :=
  "," ++ numberText bill.money ++ "," ++ numberText bill.startTime ++ "," ++
    numberText bill.duringTime ++ "," ++ numberText bill.refundTime ++ "," ++
    numberText bill.refundFee ++ ")"

def billHead : String :=
  "insert into game_billing_tbl (orderID,deviceID,userID,userType,orderType,money,startTime,duringTime,refundTime,refundFee) values ("

def uploadBill (bill : Bill) : String :=
  billHead ++ "'" ++ bill.orderID ++ "','" ++ bill.deviceID ++ "','" ++ bill.userID ++
    "','" ++ bill.userType ++ "'," ++ bill.orderType ++ bill.amounts

inductive BillField where
  | orderID
  | deviceID
  | userID
  | userType
  | orderType
  deriving DecidableEq

/-- The bill with another text in one field. -/
def Bill.set (bill : Bill) : BillField → String → Bill
  | .orderID, v => { bill with orderID := v }
  | .deviceID, v => { bill with deviceID := v }
  | .userID, v => { bill with userID := v }
  | .userType, v => { bill with userType := v }
  | .orderType, v => { bill with orderType := v }

/-- The texts of the bill are letters and digits. -/
structure Bill.Plain (bill : Bill) : Prop where
  orderID : Alphanumeric bill.orderID.toList
  deviceID : Alphanumeric bill.deviceID.toList
  userID : Alphanumeric bill.userID.toList
  userType : Alphanumeric bill.userType.toList
  orderType : Alphanumeric bill.orderType.toList

/-- The value stays data in the statement built from it. -/
def StaysText (build : String → String) (v : String) : Prop :=
  StaysData (fun w => (build (String.ofList w)).toList) v.toList

section Parts

/-- A character of the statements' own parts. -/
def own (c : Char) : Bool := isCode c && c != '\\'

theorem own_alphanumeric {c : Char} (h : c.isAlphanum = true) : own c = true := by
  have hne : ∀ d : Char, d.isAlphanum = false → c ≠ d := by
    rintro d hnot rfl
    rw [h] at hnot
    cases hnot
  simp [own, isCode, isQuote, hne '\'' (by decide), hne '\\' (by decide),
    hne '"' (by decide), hne '/' (by decide), hne '\u0060' (by decide)]

def Own (s : String) : Prop := s.toList.all own = true

instance (s : String) : Decidable (Own s) :=
  inferInstanceAs (Decidable (s.toList.all own = true))

theorem Own.append {s s' : String} (h : Own s) (h' : Own s') : Own (s ++ s') := by
  unfold Own at h h' ⊢
  rw [String.toList_append, List.all_append, h, h']
  rfl

theorem Own.code {s : String} (h : Own s) : ∀ c ∈ s.toList, isCode c = true :=
  fun c hc => (Bool.and_eq_true_iff.mp (List.all_eq_true.mp h c hc)).1

theorem Own.gap {s : String} (h : Own s) :
    ∀ c ∈ s.toList, isCode c = true ∧ c ≠ '\\' := by
  intro c hc
  obtain ⟨hcode, hescape⟩ := Bool.and_eq_true_iff.mp (List.all_eq_true.mp h c hc)
  exact ⟨hcode, by simpa using hescape⟩

theorem own_number (q : Double) : Own (numberText q) := by
  apply numberText_all _ (by decide)
  intro c hdigit
  exact own_alphanumeric (by simp [Char.isAlphanum, hdigit])

theorem Date.chars_code (d : Date) :
    ∀ c ∈ d.chars, c ≠ '\'' ∧ c ≠ '\\' := by
  have hnumber : ∀ n : Nat, ∀ c ∈ Nat.toDigits 10 n, c ≠ '\'' ∧ c ≠ '\\' := by
    intro n c hc
    have hd := Nat.isDigit_of_mem_toDigits (by decide) (by decide) hc
    constructor
    · rintro rfl
      exact absurd hd (by decide)
    · rintro rfl
      exact absurd hd (by decide)
  have htwo : ∀ n : Nat, ∀ c ∈ twoDigits n, c ≠ '\'' ∧ c ≠ '\\' := by
    intro n c hc
    rcases List.mem_append.mp hc with hzero | hdigit
    · rw [List.eq_of_mem_replicate hzero]
      decide
    · exact hnumber n c hdigit
  intro c hc
  simp only [Date.chars, List.mem_append, List.mem_cons] at hc
  rcases hc with hc | rfl | hc | rfl | hc | rfl | hc | rfl | hc | rfl | hc
  · exact hnumber _ c hc
  · decide
  · exact htwo _ c hc
  · decide
  · exact htwo _ c hc
  · decide
  · exact htwo _ c hc
  · decide
  · exact htwo _ c hc
  · decide
  · exact htwo _ c hc

theorem Date.chars_ne_nil (d : Date) : d.chars ≠ [] := by
  simp [Date.chars]

theorem Date.chars_plain (d : Date) : plain d.chars = true :=
  (Segment.chars d.chars_code).plain_eq

theorem RemoteAddr.plain (addr : RemoteAddr) : plain addr.text.toList = true := by
  apply (Segment.chars _).plain_eq
  intro c hc
  have haddress := List.all_eq_true.mp addr.address c hc
  simp only [Bool.or_eq_true, beq_iff_eq, or_assoc] at haddress
  rcases haddress with halnum | rfl | rfl
  · constructor
    · rintro rfl
      exact absurd halnum (by decide)
    · rintro rfl
      exact absurd halnum (by decide)
  · decide
  · decide

end Parts

section Places

theorem staysText_iff {build : String → String} (t : Template)
    (h : ∀ w, (build (String.ofList w)).toList = t.fill w) (v : String) :
    StaysText build v ↔ plain v.toList = true := by
  unfold StaysText
  simp only [h]
  exact t.staysData_iff v.toList

theorem historyHead_ready : Ready historyHead.toList := by
  decide +kernel

theorem acctHead_ready : Ready acctHead.toList := by
  decide +kernel

theorem uploadHead_ready (customer : Customer) : Ready (uploadHead customer).toList := by
  cases customer <;> decide +kernel

theorem billHead_ready : Ready billHead.toList := by
  decide +kernel

theorem saveUserHistory_stays (now : Date) (gameid regionid : Double) (uid : String) :
    StaysText (saveUserHistory now gameid regionid) uid ↔ plain uid.toList = true := by
  have htail : Own (numberText gameid ++ "," ++ numberText regionid ++ ")") :=
    (((own_number _).append (by decide)).append (own_number _)).append (by decide)
  apply staysText_iff (Template.followed _ now.chars [] _ historyHead_ready
    ⟨now.chars_ne_nil, now.chars_plain⟩ (by simp) htail.code)
  intro w
  simp [saveUserHistory, Template.followed, Template.fill, item, Date.text]

theorem queryAcct_stays (timestart timeend count : Double) (uid : String) :
    StaysText (queryAcct timestart timeend count) uid ↔ plain uid.toList = true := by
  have hlimit : Own (if count.rat ≠ some 0 then " limit " ++ numberText count else "") := by
    split
    · exact Own.append (by decide) (own_number _)
    · decide
  have hgap : Own (" and starttime>FROM_UNIXTIME(" ++ numberText timestart ++
      ") and starttime<FROM_UNIXTIME(" ++ numberText timeend ++ ")" ++
      (if count.rat ≠ some 0 then " limit " ++ numberText count else "")) :=
    (((((by decide +kernel : Own " and starttime>FROM_UNIXTIME(").append
      (own_number _)).append (by decide +kernel)).append (own_number _)).append
        (by decide)).append hlimit
  apply staysText_iff (Template.last _ _ acctHead_ready (by simp) hgap.gap)
  intro w
  simp [queryAcct, Template.last, Template.fill]

theorem uploadInfo_stays (customer : Customer) (addr : RemoteAddr) (now : Date)
    (infostr : String) :
    StaysText (uploadInfo customer addr now) infostr ↔ plain infostr.toList = true := by
  have hbefore : Ready ((uploadHead customer).toList ++
      [addr.text.toList, now.chars].flatMap item) := by
    apply (uploadHead_ready customer).append
    apply ready_items
    intro v hv
    simp only [List.mem_cons, List.not_mem_nil, or_false] at hv
    rcases hv with rfl | rfl
    · exact addr.plain
    · exact now.chars_plain
  have hgap : Own (customer.mark ++ ")") := by
    cases customer <;> decide
  apply staysText_iff (Template.last _ _ hbefore (by simp) hgap.gap)
  intro w
  simp [uploadInfo, Template.last, Template.fill, item, Date.text]

theorem Own.value {s : String} (h : Own s) (q : Double) : Own (s ++ "," ++ numberText q) := by
  have hcomma : Own "," := by
    decide
  exact (h.append hcomma).append (own_number q)

theorem own_amounts (bill : Bill) : Own bill.amounts := by
  have hmoney : Own ("," ++ numberText bill.money) :=
    Own.append (by decide) (own_number _)
  have hvalues := (((hmoney.value bill.startTime).value bill.duringTime).value
    bill.refundTime).value bill.refundFee
  exact hvalues.append (by decide)

theorem Bill.Plain.own_tail {bill : Bill} (h : bill.Plain) :
    Own (bill.orderType ++ bill.amounts) :=
  Own.append (List.all_eq_true.mpr (fun c hc =>
    own_alphanumeric (List.all_eq_true.mp h.orderType.2 c hc))) (own_amounts bill)

theorem billHead_items {items : List (List Char)}
    (h : ∀ v ∈ items, SqlText.Alphanumeric v) :
    Ready (billHead.toList ++ items.flatMap item) :=
  billHead_ready.append (ready_items (fun v hv => plain_of_alphanumeric (h v hv).2))

theorem next_of_alphanumeric {v : List Char} (h : SqlText.Alphanumeric v) :
    v ≠ [] ∧ plain v = true :=
  ⟨h.1, plain_of_alphanumeric h.2⟩

theorem uploadBill_stays {bill : Bill} (h : bill.Plain) (field : BillField) (v : String) :
    StaysText (fun w => uploadBill (bill.set field w)) v ↔
      field ≠ .orderType ∧ plain v.toList = true := by
  cases field with
  | orderID =>
    rw [and_iff_right (by decide)]
    apply staysText_iff (Template.followed _ _ [bill.userID.toList, bill.userType.toList]
      _ billHead_ready (next_of_alphanumeric h.deviceID)
      (by simp [plain_of_alphanumeric h.userID.2, plain_of_alphanumeric h.userType.2])
      h.own_tail.code)
    intro w
    simp [uploadBill, Bill.set, Bill.amounts, Template.followed, Template.fill, item]
  | deviceID =>
    rw [and_iff_right (by decide)]
    apply staysText_iff (Template.followed _ _ [bill.userType.toList] _
      (billHead_items (List.forall_mem_singleton.mpr h.orderID))
      (next_of_alphanumeric h.userID)
      (by simp [plain_of_alphanumeric h.userType.2]) h.own_tail.code)
    intro w
    simp [uploadBill, Bill.set, Bill.amounts, Template.followed, Template.fill, item]
  | userID =>
    rw [and_iff_right (by decide)]
    apply staysText_iff (Template.followed _ _ [] _
      (billHead_items (List.forall_mem_cons.mpr
        ⟨h.orderID, List.forall_mem_singleton.mpr h.deviceID⟩))
      (next_of_alphanumeric h.userType) (by simp) h.own_tail.code)
    intro w
    simp [uploadBill, Bill.set, Bill.amounts, Template.followed, Template.fill, item]
  | userType =>
    rw [and_iff_right (by decide)]
    have hgap : Own ("," ++ (bill.orderType ++ bill.amounts)) :=
      Own.append (by decide) h.own_tail
    apply staysText_iff (Template.last _ _ (billHead_items (List.forall_mem_cons.mpr
      ⟨h.orderID, List.forall_mem_cons.mpr
        ⟨h.deviceID, List.forall_mem_singleton.mpr h.userID⟩⟩)) (by simp) hgap.gap)
    intro w
    simp [uploadBill, Bill.set, Bill.amounts, Template.last, Template.fill, item]
  | orderType =>
    refine iff_of_false ?_ (fun hne => hne.1 rfl)
    have hready := billHead_items (List.forall_mem_cons.mpr
      ⟨h.orderID, List.forall_mem_cons.mpr ⟨h.deviceID, List.forall_mem_cons.mpr
        ⟨h.userID, List.forall_mem_singleton.mpr h.userType⟩⟩⟩)
    have hcloses : (lex bill.amounts.toList).isSome :=
      readFrom_code trivial (own_amounts bill).code
    have hamounts : bill.amounts.toList = ',' :: bill.amounts.toList.tail := by
      simp [Bill.amounts]
    have hbare := bare_not_data (Prod.ext rfl hready) hamounts (by decide) hcloses v.toList
    unfold StaysText
    convert hbare using 2
    simp [uploadBill, Bill.set, Bill.amounts, item]

end Places

/-- A name stays data when it has no quote and its backslashes stand before a
percent sign or an underscore. A document does when its texts have no quote, no
double quote, no slash of either kind and no control character. Of a bill the
first four texts are like names, and the order type never is data. -/
theorem user_data_stays_iff (v : String) (doc : Json) {bill : Bill} (hbill : bill.Plain)
    (field : BillField) (customer : Customer) (addr : RemoteAddr) (now : Date)
    (gameid regionid timestart timeend count : Double) :
    (StaysText (saveUserHistory now gameid regionid) v ↔ plain v.toList = true) ∧
    (StaysText (queryAcct timestart timeend count) v ↔ plain v.toList = true) ∧
    (StaysText (uploadInfo customer addr now) (String.ofList doc.encode) ↔
      ∀ text ∈ doc.texts, ∀ c ∈ text.toList, Json.cleanChar c = true) ∧
    (StaysText (fun w => uploadBill (bill.set field w)) v ↔
      field ≠ .orderType ∧ plain v.toList = true) := by
  refine ⟨saveUserHistory_stays _ _ _ _, queryAcct_stays _ _ _ _, ?_,
    uploadBill_stays hbill _ _⟩
  rw [uploadInfo_stays, String.toList_ofList, (Json.segment_encode doc).plain_eq]
  simp [Json.clean]

section Examples

def newYear : Date := ⟨2018, 1, 1, 0, 0, 0⟩

def localhost : RemoteAddr := ⟨"127.0.0.1", by decide +kernel⟩

def oneBill : Bill := ⟨"o1", "d1", "u1", "t1", "1", 10, 1, 2, 0, 0⟩

theorem oneBill_plain : oneBill.Plain where
  orderID := ⟨by decide, by decide +kernel⟩
  deviceID := ⟨by decide, by decide +kernel⟩
  userID := ⟨by decide, by decide +kernel⟩
  userType := ⟨by decide, by decide +kernel⟩
  orderType := ⟨by decide, by decide +kernel⟩

def uploadOf (uid : String) : Json := .obj "table: 0x1" [("uid", .str uid), ("cmdid", .num 2)]

theorem uploadOf_texts (uid : String) : (uploadOf uid).texts = ["uid", uid, "cmdid"] := by
  simp [uploadOf, Json.texts, Json.textsMembers]

theorem user_data_stays_player :
    StaysText (saveUserHistory newYear 5 1) "player 1" ∧
    StaysText (queryAcct 0 100 0) "player 1" ∧
    StaysText (uploadInfo .cc localhost newYear)
      (String.ofList (uploadOf "player 1").encode) ∧
    StaysText (fun w => uploadBill (oneBill.set .userID w)) "player 1" := by
  have hplain : plain "player 1".toList = true := by
    decide +kernel
  have hclean : Json.clean ["uid", "player 1", "cmdid"] = true := by
    decide +kernel
  obtain ⟨hhistory, hacct, hupload, hbill⟩ := user_data_stays_iff "player 1"
    (uploadOf "player 1") oneBill_plain .userID .cc localhost newYear 5 1 0 100 0
  refine ⟨hhistory.mpr hplain, hacct.mpr hplain, hupload.mpr ?_,
    hbill.mpr ⟨by decide, hplain⟩⟩
  rw [uploadOf_texts]
  simpa [Json.clean] using hclean

/-- A quote in a name, a condition in one, a double quote in a document, and any
order type. -/
theorem quote_breaks_out :
    ¬StaysText (saveUserHistory newYear 5 1) "O'Neill" ∧
    ¬StaysText (queryAcct 0 100 0) "x' or 'a'='a" ∧
    ¬StaysText (uploadInfo .cc localhost newYear)
      (String.ofList (uploadOf "say \"hi\"").encode) ∧
    ¬StaysText (fun w => uploadBill (oneBill.set .orderType w)) "1" := by
  have hquote : plain "O'Neill".toList = false := by
    decide +kernel
  have hcondition : plain "x' or 'a'='a".toList = false := by
    decide +kernel
  have hescape : Json.clean ["uid", "say \"hi\"", "cmdid"] = false := by
    decide +kernel
  refine ⟨?_, ?_, ?_, ?_⟩
  · rw [saveUserHistory_stays, hquote]
    decide
  · rw [queryAcct_stays, hcondition]
    decide
  · rw [uploadInfo_stays, String.toList_ofList, (Json.segment_encode _).plain_eq,
      uploadOf_texts, hescape]
    decide
  · rw [uploadBill_stays oneBill_plain]
    exact fun h => h.1 rfl

end Examples

end GameAcc.Lua.Statements
