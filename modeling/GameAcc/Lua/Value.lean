import GameAcc.Redis.Keys

/-!
Lua values as the request handlers see them, and the calls of the two services
into Redis. Numbers are doubles, which `%.14g` puts into texts.
-/

namespace GameAcc.Lua

open GameAcc.Redis GameAcc.Command

/-- `null` is `ngx.null` and `cjson.null`; of a table only the text `tostring`
makes of it is used, and whether `cjson.encode` has a text for it. -/
inductive Value where
  | nil
  | null
  | bool (value : Bool)
  | num (value : Double)
  | str (value : String)
  | table (text : String) (encodable : Bool)
  deriving DecidableEq

/-- The text of a number. -/
def numberText (value : Double) : String := value.text

theorem numberText_int {n : Int} (h : n.natAbs < 10 ^ 14) :
    numberText (.ofRat n) = Numeral.decimal n := Double.text_ofInt h

/-- A test that digits and the other characters of printed numbers pass. -/
theorem numberText_all {p : Char → Bool} (hdigit : ∀ c, c.isDigit = true → p c = true)
    (hsigns : ['.', '+', '-', 'e', 'i', 'n', 'f', 'a'].all p = true) (value : Double) :
    (numberText value).toList.all p = true := by
  have hsign := List.all_eq_true.mp hsigns
  have hword : ∀ word : List Char, word ⊆ ['-', 'n', 'i', 'f', 'a'] → word.all p = true := by
    intro word hword
    apply List.all_eq_true.mpr
    intro c hc
    apply hsign
    have hin := hword hc
    simp only [List.mem_cons, List.not_mem_nil, or_false] at hin ⊢
    tauto
  cases value with
  | nan => exact hword ['n', 'a', 'n'] (by simp)
  | infinity negative =>
    cases negative with
    | false => exact hword ['i', 'n', 'f'] (by simp)
    | true => exact hword ['-', 'i', 'n', 'f'] (by simp)
  | finite negative magnitude =>
    apply List.all_eq_true.mpr
    intro c hc
    rw [numberText, Double.text, String.toList_ofList] at hc
    rcases List.mem_append.mp hc with hminus | hc
    · cases negative with
      | false => cases hminus
      | true =>
        obtain rfl := List.mem_singleton.mp hminus
        exact hsign _ (by simp)
    · rcases Double.printMagnitude_chars _ c hc with hin | rfl | rfl | rfl | rfl
      · exact hdigit c hin
      all_goals exact hsign _ (by simp)

theorem numberText_ne_empty (value : Double) : (numberText value).toList ≠ [] := by
  cases value with
  | nan => decide
  | infinity negative => cases negative <;> decide
  | finite negative magnitude =>
    obtain ⟨d, rest, hprint, _⟩ := Double.printMagnitude_head magnitude.value
    rw [numberText, Double.text, String.toList_ofList, hprint]
    exact List.append_ne_nil_of_right_ne_nil _ (List.cons_ne_nil d rest)

/-- No printed number ends early or starts with white space. -/
theorem numberText_plain (value : Double) :
    ∀ c ∈ (numberText value).toList, c ≠ '\x00' ∧ Numeral.isSpace c = false := by
  intro c hc
  have hall := numberText_all (p := fun c => decide (c ≠ '\x00') && !Numeral.isSpace c) ?_
    (by decide) value
  · simpa using List.all_eq_true.mp hall c hc
  · intro d hdigit
    have hzero : d ≠ '\x00' := by
      rintro rfl
      exact absurd hdigit (by decide)
    simp [hzero, Numeral.digit_not_space hdigit]

/-- A bound that is a printed number is that number with 14 digits. -/
theorem readBound_numberText {value : Double} {x : Extended} (h : value.extended = some x) :
    readBound (numberText value) = some (Double.reprint x) := by
  have hplain := numberText_plain value
  have hcString : cString (numberText value) = (numberText value).toList := by
    apply List.takeWhile_eq_self_iff.mpr
    intro c hc
    exact decide_eq_true (hplain c hc).1
  have htrim : (numberText value).toList.dropWhile Numeral.isSpace = (numberText value).toList := by
    apply List.dropWhile_eq_self_iff.mpr
    intro hlength
    rw [(hplain _ (List.getElem_mem hlength)).2]
    exact Bool.false_ne_true
  obtain ⟨d, hread, hvalue⟩ := Double.read_text h
  rw [readBound, hcString, if_neg (numberText_ne_empty value), htrim, numberText, hread]
  exact hvalue

/-- A row's id equals the text of a number in a statement; `nan` and `inf` are
no numbers there. -/
def SelectsId (id : Double) (column : Int) : Prop :=
  Numeral.readRat (numberText id).toList = some (column : ℚ)

instance (id : Double) (column : Int) : Decidable (SelectsId id column) :=
  inferInstanceAs (Decidable (_ = _))

/-- The number of an id selects the rows of that id. -/
theorem selectsId_iff {id : Double} {n column : Int} (h : numberText id = Numeral.decimal n) :
    SelectsId id column ↔ column = n := by
  rw [SelectsId, h, Numeral.readRat_decimal, Option.some.injEq, Int.cast_inj, eq_comm]

theorem selectsId_of_rat {id : Double} {n column : Int} (h : id.rat = some (n : ℚ))
    (hn : n.natAbs < 10 ^ 14) : SelectsId id column ↔ column = n := by
  rw [SelectsId, numberText, Double.readRat_of_rat h,
    Numeral.significant.signedNearest_intCast (fun _ hmem => by cases hmem) hn,
    Option.some.injEq, Int.cast_inj, eq_comm]

namespace Value

/-- `tonumber(value)`: texts may have white space around the number. -/
def tonumber : Value → Option Double
  | .num value => some value
  | .str s => Double.read (Numeral.trim s.toList)
  | _ => none

/-- The finite number of a value, which is what an equation with a number
compares. -/
def rat (value : Value) : Option ℚ := value.tonumber.bind Double.rat

/-- The number of a value as the order of numbers sees it. -/
def extended (value : Value) : Option Extended := value.tonumber.bind Double.extended

/-- `tostring(value)`, which also makes the text of a command's argument. -/
def tostring : Value → String
  | .nil => "nil"
  | .null => "userdata: NULL"
  | .bool true => "true"
  | .bool false => "false"
  | .num value => numberText value
  | .str s => s
  | .table text _ => text

/-- `cjson.encode` writes the value: it raises on a number that is not finite. -/
def encodable : Value → Bool
  | .num value => value.rat.isSome
  | .table _ encodable => encodable
  | _ => true

@[simp] theorem tonumber_num (value : Double) : (Value.num value).tonumber = some value := rfl

@[simp] theorem extended_num (value : Double) : (Value.num value).extended = value.extended := rfl

@[simp] theorem rat_num (value : Double) : (Value.num value).rat = value.rat := rfl

theorem rat_eq_some {value : Value} {q : ℚ} :
    value.rat = some q ↔ value.extended = some (.fin q) := by
  unfold rat extended
  cases value.tonumber with
  | none => simp
  | some d => exact Double.rat_eq_some

theorem tonumber_of_extended {value : Value} {x : Extended} (h : value.extended = some x) :
    ∃ d, value.tonumber = some d ∧ d.extended = some x := Option.bind_eq_some_iff.mp h

/-- The texts of the store that stand for integers are numbers to Lua. -/
@[simp] theorem extended_decimal (n : Int) :
    (Value.str (Numeral.decimal n)).extended = some (Rounding.round n) := by
  obtain ⟨d, hd, hvalue⟩ := Double.read_of_readRat (Numeral.readRat_decimal n)
  rw [extended, tonumber, Numeral.trim_of_not_space (Numeral.decimal_not_space n), hd]
  exact hvalue

theorem rat_decimal {n m : Int} (h : m.natAbs + 1 < 2 ^ 53) :
    (Value.str (Numeral.decimal n)).rat = some (m : ℚ) ↔ n = m := by
  rw [rat_eq_some, extended_decimal, Option.some.injEq, Rounding.round_eq_intCast h]

theorem rat_decimal_self (n : Int) (h : n.natAbs + 1 < 2 ^ 53) :
    (Value.str (Numeral.decimal n)).rat = some (n : ℚ) := (rat_decimal h).mpr rfl

end Value

/-- Why a handler stops: `ngx.exit` behind an error code, or a Lua error. -/
inductive Stop where
  | exit (errcode : Int)
  | error (message : String)
  deriving DecidableEq

abbrev Handler := Client Stop

def returnwithcode {α : Type} (errcode : Int) : Handler α := .stop (.exit errcode)

def luaError {α : Type} (message : String) : Handler α := .stop (.error message)

/-- `a < b` on the results of two `tonumber` calls. -/
def less (a b : Option Double) : Handler Bool :=
  match a, b with
  | some x, some y => .done (decide (x < y))
  | _, _ => luaError "attempt to compare nil with number"

theorem less_of_extended {a b : Value} {x y : Extended} (ha : a.extended = some x)
    (hb : b.extended = some y) : less a.tonumber b.tonumber = .done (decide (x < y)) := by
  obtain ⟨d, hd, hx⟩ := Value.tonumber_of_extended ha
  obtain ⟨e, he, hy⟩ := Value.tonumber_of_extended hb
  rw [hd, he]
  simp only [less, Double.lt_iff hx hy]

/-- An operand of `..`. -/
def concatText : Value → Handler String
  | .num value => .done (numberText value)
  | .str s => .done s
  | _ => luaError "attempt to concatenate a non-string value"

def redisHashGet (hashname key : String) : Handler Value := do
  let exist ← hexists hashname key
  if exist = false then
    .done .nil
  else
    let retval ← hget hashname key
    match retval with
    | some text => .done (.str text)
    | none => .done .null

theorem only_redisHashGet (hashname key : String) :
    Only Cmd.Reads (redisHashGet hashname key) := by
  refine ⟨.hexists _ _, ?_⟩
  intro exist
  cases exist with
  | false => trivial
  | true =>
    refine ⟨.hget _ _, ?_⟩
    intro retval
    cases retval <;> trivial

theorem only_concatText (value : Value) : Only Cmd.Reads (concatText value) := by
  cases value <;> trivial

theorem only_less (a b : Option Double) : Only Cmd.Reads (less a b) := by
  cases a <;> cases b <;> trivial

abbrev redis : Server Cmd Cmd.Reply Stop Store := serve Stop.error

/-- What a handler answers on a store that nobody changes meanwhile. -/
def answer {α : Type} (p : Handler α) (s : Store) : Except Stop α := (run redis p s).1

section Answer

variable {α β : Type} (s : Store)

@[simp] theorem answer_done (a : α) : answer (.done a) s = .ok a := rfl

@[simp] theorem answer_stop (e : Stop) : answer (.stop e : Handler α) s = .error e := rfl

@[simp] theorem answer_hexists (key field : String) (f : Bool → Handler α) :
    answer (hexists key field >>= f) s = answer (f (s.hash key field).isSome) s := rfl

@[simp] theorem answer_hget (key field : String) (f : Option String → Handler α) :
    answer (hget key field >>= f) s = answer (f (s.hash key field)) s := rfl

@[simp] theorem answer_sismember (key member : String) (f : Bool → Handler α) :
    answer (sismember key member >>= f) s =
      answer (f (decide (member ∈ s.set key))) s := rfl

@[simp] theorem answer_zrangebyscore (key min max : String)
    (f : Option (List String) → Handler α) :
    answer (zrangebyscore key min max >>= f) s =
      answer (f ((s.zset key).rangeByBounds min max)) s := rfl

def Value.ofReply : Option String → Value
  | some text => .str text
  | none => .nil

/-- A field that exists when it is asked for exists when it is fetched. -/
@[simp] theorem answer_redisHashGet (hashname key : String) (f : Value → Handler α) :
    answer (redisHashGet hashname key >>= f) s =
      answer (f (Value.ofReply (s.hash hashname key))) s := by
  have hfirst : answer (redisHashGet hashname key >>= f) s =
      answer ((if (s.hash hashname key).isSome = false then
          (.done .nil : Handler Value)
        else do
          let retval ← hget hashname key
          match retval with
          | some text => .done (.str text)
          | none => .done .null) >>= f) s := rfl
  rw [hfirst]
  cases hreply : s.hash hashname key with
  | none => rfl
  | some text =>
    have hget : answer (hget hashname key >>= fun retval =>
        (match retval with
          | some text => (.done (.str text) : Handler Value)
          | none => .done .null) >>= f) s =
        answer ((match s.hash hashname key with
          | some text => (.done (.str text) : Handler Value)
          | none => .done .null) >>= f) s := rfl
    rw [hreply] at hget
    exact hget

end Answer

/-- What a handler answers when it continues with `f`. -/
theorem answer_bind {α β : Type} (p : Handler α) (f : α → Handler β) (s : Store)
    (hreads : Only Cmd.Reads p) :
    answer (p >>= f) s =
      match answer p s with
      | .ok a => answer (f a) s
      | .error e => .error e := by
  induction p with
  | done a => rfl
  | stop e => rfl
  | issue c next ih =>
    obtain ⟨r, hr⟩ := serve_reads Stop.error hreads.1 s
    have hleft : answer (Program.issue c next >>= f) s = answer (next r >>= f) s := by
      simp only [answer, Program.issue_bind, run, hr]
    have hright : answer (Program.issue c next) s = answer (next r) s := by
      simp only [answer, run, hr]
    rw [hleft, hright, ih r (hreads.2 r)]

/-- A handler that only reads takes its steps to its answer. -/
theorem steps_of_answer {α : Type} {p : Handler α} (hreads : Only Cmd.Reads p) {s : Store}
    {a : α} (h : answer p s = .ok a) : Steps redis p s (.done a) s := by
  induction p with
  | done b =>
    obtain rfl := Except.ok.inj h
    exact .refl _ _
  | stop e => cases h
  | issue c next ih =>
    obtain ⟨r, hr⟩ := serve_reads Stop.error hreads.1 s
    have hnext : answer (Program.issue c next) s = answer (next r) s := by
      simp only [answer, run, hr]
    exact .step hr (ih r (hreads.2 r) (hnext.symm.trans h))

section Errors

/-- A Lua error, and no exit behind a code. -/
def Stop.IsError : Stop → Prop
  | .exit _ => False
  | .error _ => True

theorem answer_isError {α : Type} {p : Handler α} (hp : Stops Stop.IsError p) {s : Store}
    {e : Stop} (h : answer p s = .error e) : e.IsError := by
  apply hp.run _ s h
  intro c s e hexec
  obtain ⟨message, rfl⟩ := serve_error hexec
  trivial

theorem stops_redisHashGet (hashname key : String) :
    Stops Stop.IsError (redisHashGet hashname key) := by
  intro exist
  cases exist with
  | false => trivial
  | true =>
    intro retval
    cases retval <;> trivial

theorem stops_less (a b : Option Double) : Stops Stop.IsError (less a b) := by
  cases a <;> cases b <;> trivial

theorem stops_concatText (value : Value) : Stops Stop.IsError (concatText value) := by
  cases value <;> trivial

end Errors

/-- The request names an active game, and region 0 or one of its regions. -/
def Accepts (s : Store) (gameid regionid : Double) : Prop :=
  numberText gameid ∈ s.set ACTIVE_GAMEID_SET ∧
    (regionid.rat ≠ some 0 → numberText regionid ∈ s.set (gameRegionKey (numberText gameid)))

end GameAcc.Lua
