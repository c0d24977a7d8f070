import GameAcc.Lua.Statements

/-!
The row that the statement of a bill inserts, read off its tokens as MySQL reads
them: ten constants between parentheses, texts between quotes or numerals. What
a statement with anything else there does is left open. The row has the values of
the bill when its texts come back as they are and its numerals are read as the
amounts, which stand there with 14 digits.
-/

namespace GameAcc.Lua.Statements

open SqlText

/-- A constant of a row. -/
inductive Cell where
  | text (chars : List Char)
  | numeral (chars : List Char)
  deriving DecidableEq

/-- Digits, and the exponent that stands behind them. -/
def digits? (word : List Char) (rest : List Token) : Option (List Char × List Token) :=
  if word.all Char.isDigit then some (word, rest)
  else
    match word.getLast?, rest with
    | some 'e', .symbol sign :: .word power :: rest' =>
      if word.dropLast.all Char.isDigit ∧ (sign = '+' ∨ sign = '-') ∧ power.all Char.isDigit then
        some (word ++ sign :: power, rest')
      else none
    | _, _ => none

def magnitude? : List Token → Option (List Char × List Token)
  | .word whole :: .symbol '.' :: .word fraction :: rest =>
    if whole.all Char.isDigit then
      (digits? fraction rest).map (fun (chars, rest') => (whole ++ '.' :: chars, rest'))
    else none
  | .word whole :: rest => digits? whole rest
  | _ => none

def cell? : List Token → Option (Cell × List Token)
  | .literal text :: rest => some (.text text, rest)
  | .symbol '-' :: rest =>
    (magnitude? rest).map (fun (chars, rest') => (.numeral ('-' :: chars), rest'))
  | tokens => (magnitude? tokens).map (fun (chars, rest') => (.numeral chars, rest'))

/-- As many constants as there are columns, and nothing behind them. -/
def cells? : Nat → List Token → Option (List Cell)
  | 0, _ => none
  | 1, tokens =>
    (cell? tokens).bind (fun (cell, rest) => if rest = [.symbol ')'] then some [cell] else none)
  | n + 2, tokens =>
    (cell? tokens).bind (fun (cell, rest) =>
      match rest with
      | .symbol ',' :: more => (cells? (n + 1) more).map (fun cells => cell :: cells)
      | _ => none)

/-- The tokens up to the first value. -/
def billTokens : List Token := (run .between billHead.toList).1

def billRow? (sql : String) : Option (List Cell) :=
  (lex sql.toList).bind (fun tokens =>
    if billTokens <+: tokens then cells? 10 (tokens.drop billTokens.length) else none)

def numeral (value : Double) : Cell := .numeral (numberText value).toList

/-- The row that the statement says. Its order type stands there without quotes. -/
def Bill.row (bill : Bill) : List Cell :=
  [.text bill.orderID.toList, .text bill.deviceID.toList, .text bill.userID.toList,
    .text bill.userType.toList, .numeral bill.orderType.toList, numeral bill.money,
    numeral bill.startTime, numeral bill.duringTime, numeral bill.refundTime,
    numeral bill.refundFee]

/-- The numeral is read as the number. -/
def Denotes (chars : List Char) (value : Double) : Prop :=
  ∃ x q, Numeral.readRat chars = some x ∧ (Double.ofRat x).rat = some q ∧ value.rat = some q

/-- The numeral is the text of the number that it is read as. -/
def IsNumberText (chars : List Char) : Prop :=
  ∃ x, Numeral.readRat chars = some x ∧ chars = (numberText (.ofRat x)).toList

/-- The row has exactly the values of the bill: its texts, the text of a number
as its order type, and numerals that are read as its amounts. -/
inductive Bill.Holds (bill : Bill) : List Cell → Prop
  | cells {money startTime duringTime refundTime refundFee : List Char}
      (orderType : IsNumberText bill.orderType.toList)
      (hmoney : Denotes money bill.money) (hstart : Denotes startTime bill.startTime)
      (hduring : Denotes duringTime bill.duringTime)
      (hrefund : Denotes refundTime bill.refundTime) (hfee : Denotes refundFee bill.refundFee) :
      Bill.Holds bill [.text bill.orderID.toList, .text bill.deviceID.toList,
        .text bill.userID.toList, .text bill.userType.toList, .numeral bill.orderType.toList,
        .numeral money, .numeral startTime, .numeral duringTime, .numeral refundTime,
        .numeral refundFee]

section Text

theorem readFrom_item (v tail : List Char) :
    readFrom .between (item v ++ tail) =
      readFrom (.quoted '\'' []) (v ++ '\'' :: ',' :: tail) := by
  have hopen : step .between '\'' = ([], .quoted '\'' []) := by
    decide
  have hsplit : item v ++ tail = '\'' :: (v ++ '\'' :: ',' :: tail) := by
    simp [item]
  rw [hsplit, readFrom_cons, hopen]
  simp

theorem literal_of_cell {tokens rest : List Token} {v : List Char}
    (h : cell? tokens = some (.text v, rest)) : tokens = .literal v :: rest := by
  unfold cell? at h
  split at h
  · obtain ⟨htext, rfl⟩ := Prod.mk.inj (Option.some.inj h)
    rw [Cell.text.inj htext]
  · obtain ⟨_, _, heq⟩ := Option.map_eq_some_iff.mp h
    cases (Prod.mk.inj heq).1
  · obtain ⟨_, _, heq⟩ := Option.map_eq_some_iff.mp h
    cases (Prod.mk.inj heq).1

/-- A text between quotes is the text of its column exactly when it is plain. -/
theorem cells_item_iff {n : Nat} {v tail : List Char} {cells : List Cell} :
    (readFrom .between (item v ++ tail)).bind (cells? (n + 2)) = some (.text v :: cells) ↔
      plain v = true ∧ (readFrom .between tail).bind (cells? (n + 1)) = some cells := by
  have hcells : ∀ tokens, cells? (n + 2) (.literal v :: .symbol ',' :: tokens) =
      (cells? (n + 1) tokens).map (fun cells => .text v :: cells) := fun _ => rfl
  have hread : plain v = true → (readFrom .between (item v ++ tail)).bind (cells? (n + 2)) =
      ((readFrom .between tail).bind (cells? (n + 1))).map (fun cells => .text v :: cells) := by
    intro hplain
    rw [readFrom_append, run_item hplain]
    cases readFrom .between tail with
    | none => rfl
    | some tokens => exact hcells tokens
  constructor
  · intro h
    have hplain : plain v = true := by
      obtain ⟨tokens, htokens, hrow⟩ := Option.bind_eq_some_iff.mp h
      obtain ⟨⟨cell, rest⟩, hcell, hrest⟩ := Option.bind_eq_some_iff.mp hrow
      have hfirst : cell = .text v := by
        dsimp only at hrest
        split at hrest
        · obtain ⟨_, _, heq⟩ := Option.map_eq_some_iff.mp hrest
          exact (List.cons_eq_cons.mp heq).1
        · cases hrest
      rw [hfirst] at hcell
      rw [readFrom_item, literal_of_cell hcell] at htokens
      exact plain_of_literal (by decide) htokens
    refine ⟨hplain, ?_⟩
    rw [hread hplain] at h
    obtain ⟨cells', hcells', heq⟩ := Option.map_eq_some_iff.mp h
    rw [hcells', (List.cons_eq_cons.mp heq).2]
  · rintro ⟨hplain, htail⟩
    rw [hread hplain, htail]
    rfl

end Text

section Numeral

def Digits (ds : List Char) : Prop := ds ≠ [] ∧ ∀ d ∈ ds, d.isDigit = true

theorem Digits.all {ds : List Char} (h : Digits ds) : ds.all Char.isDigit = true :=
  List.all_eq_true.mpr h.2

theorem Digits.word {ds : List Char} (h : Digits ds) : ∀ d ∈ ds, isWord d = true := by
  intro d hd
  simp [isWord, Char.isAlphanum, h.2 d hd]

theorem digits_toDigits (n : Nat) : Digits (Nat.toDigits 10 n) :=
  ⟨Nat.toDigits_ne_nil, Numeral.toDigits_digits n⟩

theorem Digits.leftpad {ds : List Char} (h : Digits ds) (k : Nat) : Digits (ds.leftpad k '0') := by
  constructor
  · intro hnil
    rw [List.leftpad, List.append_eq_nil_iff] at hnil
    exact h.1 hnil.2
  · exact Numeral.leftpad_digits h.2 k

/-- Digits, and an exponent behind them or none. -/
inductive Scaled : List Char → Prop
  | plain {ds : List Char} (h : Digits ds) : Scaled ds
  | power {ds ps : List Char} {sign : Char} (h : Digits ds) (hsign : sign = '+' ∨ sign = '-')
      (hps : Digits ps) : Scaled (ds ++ 'e' :: sign :: ps)

/-- The text of a number: a sign, digits, digits behind a point, an exponent. -/
inductive NumberText : List Char → Prop
  | whole {sign digits : List Char} (hsign : sign = [] ∨ sign = ['-']) (h : Scaled digits) :
      NumberText (sign ++ digits)
  | point {sign whole digits : List Char} (hsign : sign = [] ∨ sign = ['-'])
      (hwhole : Digits whole) (h : Scaled digits) : NumberText (sign ++ (whole ++ '.' :: digits))

theorem Scaled.ofParts {ds : List Char} (h : Digits ds) {power : List Char}
    (hpower : power = [] ∨ ∃ sign ps, power = 'e' :: sign :: ps ∧ (sign = '+' ∨ sign = '-') ∧
      Digits ps) : Scaled (ds ++ power) := by
  rcases hpower with rfl | ⟨sign, ps, rfl, hsign, hps⟩
  · rw [List.append_nil]
    exact .plain h
  · exact .power h hsign hps

theorem numberText_fixed {sign : List Char} (hsign : sign = [] ∨ sign = ['-']) (n places : Nat)
    {power : List Char} (hpower : power = [] ∨ ∃ mark ps, power = 'e' :: mark :: ps ∧
      (mark = '+' ∨ mark = '-') ∧ Digits ps) :
    NumberText (sign ++ (Numeral.fixed n places ++ power)) := by
  let fraction :=
    ((Nat.toDigits 10 (n % 10 ^ places)).leftpad places '0').rdropWhile (· == '0')
  have htext : Numeral.fixed n places = Nat.toDigits 10 (n / 10 ^ places) ++
      if fraction = [] then [] else '.' :: fraction := rfl
  rw [htext]
  by_cases hnil : fraction = []
  · rw [if_pos hnil, List.append_nil]
    exact .whole hsign (.ofParts (digits_toDigits _) hpower)
  · have hfraction : Digits fraction := ⟨hnil, fun c hc =>
      ((digits_toDigits _).leftpad places).2 c ((List.rdropWhile_prefix _ _).subset hc)⟩
    rw [if_neg hnil, List.append_assoc, List.cons_append]
    exact .point hsign (digits_toDigits _) (.ofParts hfraction hpower)

theorem printMagnitude_cases (x : ℚ) : ∃ n places,
    Numeral.printMagnitude x = Numeral.fixed n places ∨
      ∃ e, Numeral.printMagnitude x = Numeral.fixed n places ++ Numeral.exponentText e := by
  unfold Numeral.printMagnitude
  dsimp only
  split
  · exact ⟨_, _, .inl rfl⟩
  · exact ⟨_, _, .inr ⟨_, rfl⟩⟩

/-- What is printed of a finite number. -/
theorem numberText_of_finite {value : Double} (h : value.rat.isSome = true) :
    NumberText (numberText value).toList := by
  cases value with
  | nan => cases h
  | infinity negative => cases h
  | finite negative magnitude =>
    rw [numberText, Double.text, String.toList_ofList]
    have hsign : (if negative then ['-'] else []) = [] ∨
        (if negative then ['-'] else []) = ['-'] := by
      cases negative
      · exact .inl rfl
      · exact .inr rfl
    obtain ⟨n, places, hplain | ⟨e, hpower⟩⟩ := printMagnitude_cases magnitude.value
    · have hfixed := numberText_fixed hsign n places (.inl rfl)
      rw [List.append_nil] at hfixed
      rw [hplain]
      exact hfixed
    · rw [hpower]
      apply numberText_fixed hsign
      refine .inr ⟨_, _, rfl, ?_, (digits_toDigits _).leftpad 2⟩
      split
      · exact .inr rfl
      · exact .inl rfl

theorem run_word {ds : List Char} (h : ∀ d ∈ ds, isWord d = true) (text : List Char) :
    run (.word text) ds = ([], .word (ds.reverse ++ text)) := by
  induction ds generalizing text with
  | nil => rfl
  | cons d rest ih =>
    simp only [run, step, h d List.mem_cons_self, if_true, emit, List.nil_append,
      ih (fun e he => h e (List.mem_cons_of_mem d he))]
    simp

/-- A word up to the character that ends it. -/
theorem run_word_end {d : Char} {ds : List Char} (h : ∀ e ∈ ds, isWord e = true) {c : Char}
    (hc : isWord c = false) {st : State} {tokens : List Token}
    (hst : step st d = (tokens, .word [d])) :
    run st (d :: ds ++ [c]) = (tokens ++ .word (d :: ds) :: (start c).1, (start c).2) := by
  have hfirst : run st (d :: ds ++ [c]) = emit (step st d).1 (run (step st d).2 (ds ++ [c])) := rfl
  have hlast : run (.word (ds.reverse ++ [d])) [c] =
      (.word (d :: ds) :: (start c).1, (start c).2) := by
    simp [run, step, hc, emit]
  rw [hfirst, hst, run_append, run_word h, hlast]
  rfl

theorem step_digit {d : Char} (hd : d.isDigit = true) :
    step .between d = ([], .word [d]) ∧ step .dash d = ([.symbol '-'], .word [d]) := by
  have hword : isWord d = true := by
    simp [isWord, Char.isAlphanum, hd]
  have hstart : start d = ([], .word [d]) := by
    simp [start, hword]
  have hdash : d ≠ '-' := by
    rintro rfl
    cases hd
  constructor
  · exact hstart
  · rw [step, if_neg hdash, hstart]
    rfl

/-- The digits up to a character that ends them. -/
theorem Digits.run {ds : List Char} (h : Digits ds) {more : List Char}
    (hmore : ∀ d ∈ more, isWord d = true) {c : Char} (hc : isWord c = false) {st : State}
    {tokens : List Token} (hst : ∀ d : Char, d.isDigit = true → step st d = (tokens, .word [d])) :
    run st (ds ++ more ++ [c]) =
      (tokens ++ .word (ds ++ more) :: (start c).1, (start c).2) := by
  obtain ⟨d, rest, rfl⟩ := List.exists_cons_of_ne_nil h.1
  apply run_word_end _ hc (hst d (h.2 d List.mem_cons_self))
  intro e he
  rcases List.mem_append.mp he with hrest | hin
  · exact h.word e (List.mem_cons_of_mem d hrest)
  · exact hmore e hin

/-- The symbol that ends a number. -/
def Ends (c : Char) : Prop := c = ',' ∨ c = ')'

theorem Ends.start {c : Char} (h : Ends c) :
    isWord c = false ∧ start c = ([.symbol c], .between) ∧ c ≠ '.' := by
  rcases h with rfl | rfl <;> decide

/-- Digits and their exponent are read back. -/
theorem Scaled.read {chars : List Char} (h : Scaled chars) {c : Char} (hc : Ends c) {st : State}
    {tokens : List Token} (hst : ∀ d : Char, d.isDigit = true → step st d = (tokens, .word [d])) :
    ∃ word more, run st (chars ++ [c]) =
        (tokens ++ .word word :: (more ++ [.symbol c]), .between) ∧
      (∀ rest, digits? word (more ++ .symbol c :: rest) = some (chars, .symbol c :: rest)) ∧
      ∀ rest, (more ++ .symbol c :: rest).head? ≠ some (.symbol '.') := by
  obtain ⟨hword, hstart, hpoint⟩ := hc.start
  cases h with
  | plain hds =>
    refine ⟨chars, [], ?_, ?_, ?_⟩
    · have hnone : ∀ d ∈ ([] : List Char), isWord d = true := by
        simp
      have hrun := hds.run hnone hword hst
      rwa [List.append_nil, hstart] at hrun
    · intro rest
      unfold digits?
      rw [if_pos hds.all]
      rfl
    · intro rest hhead
      exact hpoint (Token.symbol.inj (Option.some.inj hhead))
  | @power ds ps sign hds hsign hps =>
    have hletter : ∀ d ∈ ['e'], isWord d = true := by
      intro d hd
      rw [List.mem_singleton.mp hd]
      rfl
    have hsplit : ds ++ 'e' :: sign :: ps ++ [c] = (ds ++ ['e'] ++ [sign]) ++ (ps ++ [] ++ [c]) := by
      simp
    have hexponent : run st (ds ++ 'e' :: sign :: ps ++ [c]) =
        (tokens ++ .word (ds ++ ['e']) :: [.symbol sign, .word ps, .symbol c], .between) := by
      rw [hsplit, run_append]
      rcases hsign with rfl | rfl
      · have hplus : start '+' = ([.symbol '+'], .between) := by
          decide
        rw [hds.run hletter (by decide) hst, hplus]
        simp only
        rw [hps.run (by simp) hword (fun d hd => (step_digit hd).1), hstart]
        simp [emit]
      · have hminus : start '-' = ([], .dash) := by
          decide
        rw [hds.run hletter (by decide) hst, hminus]
        simp only
        rw [hps.run (by simp) hword (fun d hd => (step_digit hd).2), hstart]
        simp [emit]
    refine ⟨ds ++ ['e'], [.symbol sign, .word ps], hexponent, ?_, ?_⟩
    · intro rest
      have hnot : (ds ++ ['e']).all Char.isDigit = false := by
        simp
      have hpower : (ds ++ ['e']).dropLast.all Char.isDigit = true ∧
          (sign = '+' ∨ sign = '-') ∧ ps.all Char.isDigit = true :=
        ⟨by simpa using hds.2, hsign, hps.all⟩
      unfold digits?
      rw [hnot, if_neg Bool.false_ne_true, List.getLast?_concat]
      simp only [List.cons_append, List.nil_append]
      rw [if_pos hpower]
      simp
    · intro rest hhead
      obtain rfl := Token.symbol.inj (Option.some.inj hhead)
      rcases hsign with hsign | hsign <;> cases hsign

/-- The text of a number up to the symbol that ends it, without its sign. -/
theorem read_magnitude {chars : List Char}
    (h : Scaled chars ∨ ∃ whole digits, chars = whole ++ '.' :: digits ∧ Digits whole ∧
      Scaled digits) {c : Char} (hc : Ends c) {st : State} {tokens : List Token}
    (hst : ∀ d : Char, d.isDigit = true → step st d = (tokens, .word [d])) :
    ∃ word more, run st (chars ++ [c]) =
        (tokens ++ .word word :: (more ++ [.symbol c]), .between) ∧
      ∀ rest, magnitude? (.word word :: (more ++ .symbol c :: rest)) =
        some (chars, .symbol c :: rest) := by
  rcases h with hscaled | ⟨whole, digits, rfl, hwhole, hscaled⟩
  · obtain ⟨word, more, hrun, hdigits, hhead⟩ := hscaled.read hc hst
    refine ⟨word, more, hrun, ?_⟩
    intro rest
    rw [← hdigits rest]
    have hnot := hhead rest
    generalize more ++ .symbol c :: rest = tail at hnot
    unfold magnitude?
    split
    · next heq =>
      obtain ⟨_, rfl⟩ := List.cons.inj heq
      exact absurd rfl hnot
    · next heq =>
      obtain ⟨hword, rfl⟩ := List.cons.inj heq
      rw [Token.word.inj hword]
    · next _ hother => exact (hother _ _ rfl).elim
  · obtain ⟨word, more, hrun, hdigits, _⟩ := hscaled.read hc (fun d hd => (step_digit hd).1)
    have hdot : isWord '.' = false ∧ start '.' = ([.symbol '.'], .between) := by
      decide
    have hsplit : whole ++ '.' :: digits ++ [c] = (whole ++ [] ++ ['.']) ++ (digits ++ [c]) := by
      simp
    refine ⟨whole, .symbol '.' :: .word word :: more, ?_, ?_⟩
    · rw [hsplit, run_append, hwhole.run (by simp) hdot.1 hst, hdot.2, hrun]
      simp [emit]
    · intro rest
      rw [List.cons_append, List.cons_append, magnitude?, if_pos hwhole.all, hdigits]
      rfl

/-- The text of a number is read back as its column's numeral. -/
theorem NumberText.read {chars : List Char} (h : NumberText chars) {c : Char} (hc : Ends c) :
    ∃ tokens, run .between (chars ++ [c]) = (tokens ++ [.symbol c], .between) ∧
      ∀ rest, cell? (tokens ++ .symbol c :: rest) =
        some (.numeral chars, .symbol c :: rest) := by
  obtain ⟨sign, magnitude, rfl, hsign, hmagnitude⟩ : ∃ sign magnitude,
      chars = sign ++ magnitude ∧ (sign = [] ∨ sign = ['-']) ∧
        (Scaled magnitude ∨ ∃ whole digits, magnitude = whole ++ '.' :: digits ∧ Digits whole ∧
          Scaled digits) := by
    cases h with
    | whole hsign hdigits => exact ⟨_, _, rfl, hsign, .inl hdigits⟩
    | point hsign hwhole hdigits =>
      exact ⟨_, _, rfl, hsign, .inr ⟨_, _, rfl, hwhole, hdigits⟩⟩
  rcases hsign with rfl | rfl
  · obtain ⟨word, more, hrun, hread⟩ := read_magnitude hmagnitude hc (fun d hd => (step_digit hd).1)
    refine ⟨.word word :: more, hrun, ?_⟩
    intro rest
    have hcell : cell? (.word word :: (more ++ .symbol c :: rest)) =
        (magnitude? (.word word :: (more ++ .symbol c :: rest))).map
          (fun (chars, rest') => (.numeral chars, rest')) := rfl
    rw [List.cons_append, hcell, hread]
    rfl
  · obtain ⟨word, more, hrun, hread⟩ := read_magnitude hmagnitude hc (fun d hd => (step_digit hd).2)
    refine ⟨.symbol '-' :: .word word :: more, ?_, ?_⟩
    · have hdash : step .between '-' = ([], .dash) := by decide
      have hsplit : ['-'] ++ magnitude ++ [c] = '-' :: (magnitude ++ [c]) := by simp
      rw [hsplit, SqlText.run, hdash, hrun]
      rfl
    · intro rest
      rw [List.cons_append, List.cons_append, cell?, hread]
      rfl

/-- What is printed of a number that is not finite is no constant. -/
theorem read_not_finite {value : Double} (h : value.rat = none) {c : Char} (hc : Ends c) :
    ∃ tokens, run .between ((numberText value).toList ++ [c]) = (tokens, .between) ∧
      ∀ rest, cell? (tokens ++ rest) = none := by
  have hall : ∀ chars ∈ ["nan", "inf", "-inf"], ∃ tokens,
      run .between (chars.toList ++ [c]) = (tokens, .between) ∧
        ∀ rest, cell? (tokens ++ rest) = none := by
    intro chars hchars
    simp only [List.mem_cons, List.not_mem_nil, or_false] at hchars
    rcases hc with rfl | rfl <;> rcases hchars with rfl | rfl | rfl <;>
      exact ⟨_, Prod.ext rfl (by decide +kernel), fun rest => rfl⟩
  apply hall
  cases value with
  | nan => decide
  | infinity negative => cases negative <;> decide
  | finite negative magnitude => cases h

/-- A number, followed by other values. -/
theorem cells_number_iff {n : Nat} {value : Double} {tail : List Char} {cells : List Cell} :
    (readFrom .between ((numberText value).toList ++ ',' :: tail)).bind (cells? (n + 2)) =
        some cells ↔
      value.rat.isSome = true ∧ ∃ rest,
        (readFrom .between tail).bind (cells? (n + 1)) = some rest ∧
          cells = numeral value :: rest := by
  have hsplit : (numberText value).toList ++ ',' :: tail =
      ((numberText value).toList ++ [',']) ++ tail := by simp
  rw [hsplit, readFrom_append]
  cases hfinite : value.rat with
  | none =>
    obtain ⟨tokens, hrun, hcell⟩ := read_not_finite hfinite (.inl rfl)
    rw [hrun]
    cases readFrom .between tail with
    | none => simp
    | some more => simp [cells?, hcell]
  | some q =>
    have htext : NumberText (numberText value).toList :=
      numberText_of_finite (by rw [hfinite]; rfl)
    obtain ⟨tokens, hrun, hcell⟩ := htext.read (.inl rfl)
    rw [hrun]
    cases readFrom .between tail with
    | none => simp
    | some more =>
      simp only [Option.map_some, Option.bind_some, cells?, List.append_assoc,
        List.singleton_append, hcell, Option.isSome_some, true_and]
      rw [Option.map_eq_some_iff]
      simp only [numeral, eq_comm]

/-- A number at the end of the row. -/
theorem cells_last_iff {value : Double} {cells : List Cell} :
    (readFrom .between ((numberText value).toList ++ [')'])).bind (cells? 1) = some cells ↔
      value.rat.isSome = true ∧ cells = [numeral value] := by
  cases hfinite : value.rat with
  | none =>
    obtain ⟨tokens, hrun, hcell⟩ := read_not_finite hfinite (.inr rfl)
    have hnone := hcell []
    rw [List.append_nil] at hnone
    simp [readFrom, hrun, finish, cells?, hnone]
  | some q =>
    have htext : NumberText (numberText value).toList :=
      numberText_of_finite (by rw [hfinite]; rfl)
    obtain ⟨tokens, hrun, hcell⟩ := htext.read (.inr rfl)
    simp only [readFrom, hrun, finish, Option.map_some, Option.bind_some, List.append_nil, cells?,
      hcell, if_true, Option.isSome_some, true_and, Option.some.injEq]
    simp only [numeral, eq_comm]

end Numeral

section Row

theorem uploadBill_items (bill : Bill) : (uploadBill bill).toList = billHead.toList ++
    (item bill.orderID.toList ++ (item bill.deviceID.toList ++ (item bill.userID.toList ++
      (item bill.userType.toList ++ (bill.orderType ++ bill.amounts).toList)))) := by
  simp [uploadBill, item]

theorem bind_behind {α : Type} (head : List Token) (f : List Token → Option α)
    (reading : Option (List Token)) :
    (reading.map (fun tokens => head ++ tokens)).bind (fun tokens =>
      if head <+: tokens then f (tokens.drop head.length) else none) = reading.bind f := by
  cases reading with
  | none => rfl
  | some tokens =>
    rw [Option.map_some, Option.bind_some, Option.bind_some, if_pos (List.prefix_append _ _),
      List.drop_left]

theorem billRow_uploadBill (bill : Bill) : billRow? (uploadBill bill) =
    (readFrom .between (item bill.orderID.toList ++ (item bill.deviceID.toList ++
      (item bill.userID.toList ++ (item bill.userType.toList ++
        (bill.orderType ++ bill.amounts).toList))))).bind (cells? 10) := by
  rw [billRow?, billTokens, uploadBill_items, lex, readFrom_append, billHead_ready.run_eq]
  exact bind_behind _ (cells? 10) _

theorem Denotes.finite {chars : List Char} {value : Double} (h : Denotes chars value) :
    value.rat.isSome = true := by
  obtain ⟨_, q, _, _, hq⟩ := h
  rw [hq]
  rfl

/-- The text of a number is what is printed of a finite one. -/
theorem IsNumberText.finite {chars : List Char} (h : IsNumberText chars) :
    ∃ value : Double, chars = (numberText value).toList ∧ value.rat.isSome = true := by
  obtain ⟨x, hread, htext⟩ := h
  refine ⟨.ofRat x, htext, ?_⟩
  have hother : ∀ text ∈ ["nan", "inf", "-inf"], Numeral.readRat text.toList = none := by
    decide +kernel
  cases hvalue : Double.ofRat x with
  | nan =>
    rw [htext, hvalue, hother _ (by decide)] at hread
    cases hread
  | infinity negative =>
    have hmem : numberText (.infinity negative) ∈ ["nan", "inf", "-inf"] := by
      cases negative <;> decide
    rw [htext, hvalue, hother _ hmem] at hread
    cases hread
  | finite negative magnitude => rfl

/-- An order type that is a number, and the amounts behind it. -/
theorem cells_amounts_iff (bill : Bill) {value : Double}
    (h : bill.orderType.toList = (numberText value).toList) {cells : List Cell} :
    (readFrom .between (bill.orderType ++ bill.amounts).toList).bind (cells? 6) = some cells ↔
      (value.rat.isSome = true ∧ bill.money.rat.isSome = true ∧
        bill.startTime.rat.isSome = true ∧ bill.duringTime.rat.isSome = true ∧
        bill.refundTime.rat.isSome = true ∧ bill.refundFee.rat.isSome = true) ∧
      cells = bill.row.drop 4 := by
  have hsplit : (bill.orderType ++ bill.amounts).toList =
      (numberText value).toList ++ ',' :: ((numberText bill.money).toList ++ ',' ::
        ((numberText bill.startTime).toList ++ ',' :: ((numberText bill.duringTime).toList ++ ',' ::
          ((numberText bill.refundTime).toList ++ ',' ::
            ((numberText bill.refundFee).toList ++ [')']))))) := by
    simp [h, Bill.amounts]
  have hrow : bill.row.drop 4 = [numeral value, numeral bill.money, numeral bill.startTime,
      numeral bill.duringTime, numeral bill.refundTime, numeral bill.refundFee] := by
    simp [Bill.row, numeral, h]
  rw [hsplit, hrow, cells_number_iff (n := 4)]
  simp only [cells_number_iff (n := 3), cells_number_iff (n := 2), cells_number_iff (n := 1),
    cells_number_iff (n := 0), zero_add, cells_last_iff]
  constructor
  · rintro ⟨h1, _, ⟨h2, _, ⟨h3, _, ⟨h4, _, ⟨h5, _, ⟨h6, rfl⟩, rfl⟩, rfl⟩, rfl⟩, rfl⟩, rfl⟩
    exact ⟨⟨h1, h2, h3, h4, h5, h6⟩, rfl⟩
  · rintro ⟨⟨h1, h2, h3, h4, h5, h6⟩, rfl⟩
    exact ⟨h1, _, ⟨h2, _, ⟨h3, _, ⟨h4, _, ⟨h5, _, ⟨h6, rfl⟩, rfl⟩, rfl⟩, rfl⟩, rfl⟩, rfl⟩

/-- The texts between quotes are plain, the order type is the text of a number,
and 14 digits are enough for the amounts. -/
structure Bill.Exact (bill : Bill) : Prop where
  orderID : plain bill.orderID.toList = true
  deviceID : plain bill.deviceID.toList = true
  userID : plain bill.userID.toList = true
  userType : plain bill.userType.toList = true
  orderType : IsNumberText bill.orderType.toList
  money : Denotes (numberText bill.money).toList bill.money
  startTime : Denotes (numberText bill.startTime).toList bill.startTime
  duringTime : Denotes (numberText bill.duringTime).toList bill.duringTime
  refundTime : Denotes (numberText bill.refundTime).toList bill.refundTime
  refundFee : Denotes (numberText bill.refundFee).toList bill.refundFee

/-- The statement of a bill inserts a row with the bill's values exactly when its
texts come back as they are and its amounts need no more than 14 digits. -/
theorem billRow_iff (bill : Bill) :
    (∃ row, billRow? (uploadBill bill) = some row ∧ bill.Holds row) ↔ bill.Exact := by
  have hread : ∀ cells : List Cell, billRow? (uploadBill bill) =
      some (.text bill.orderID.toList :: .text bill.deviceID.toList ::
        .text bill.userID.toList :: .text bill.userType.toList :: cells) ↔
      plain bill.orderID.toList = true ∧ plain bill.deviceID.toList = true ∧
        plain bill.userID.toList = true ∧ plain bill.userType.toList = true ∧
        (readFrom .between (bill.orderType ++ bill.amounts).toList).bind (cells? 6) =
          some cells := by
    intro cells
    rw [billRow_uploadBill, cells_item_iff (n := 8), cells_item_iff (n := 7),
      cells_item_iff (n := 6), cells_item_iff (n := 5)]
  constructor
  · rintro ⟨row, hrow, hholds⟩
    cases hholds with
    | cells horderType hmoney hstart hduring hrefund hfee =>
      obtain ⟨horderID, hdeviceID, huserID, huserType, hamounts⟩ := (hread _).mp hrow
      obtain ⟨value, hvalue, _⟩ := horderType.finite
      obtain ⟨_, hcells⟩ := (cells_amounts_iff bill hvalue).mp hamounts
      simp only [Bill.row, numeral, List.drop_succ_cons, List.drop_zero, List.cons.injEq,
        Cell.numeral.injEq, and_true, true_and] at hcells
      obtain ⟨rfl, rfl, rfl, rfl, rfl⟩ := hcells
      exact ⟨horderID, hdeviceID, huserID, huserType, horderType, hmoney, hstart, hduring,
        hrefund, hfee⟩
  · intro h
    refine ⟨bill.row, (hread _).mpr ⟨h.orderID, h.deviceID, h.userID, h.userType, ?_⟩,
      .cells h.orderType h.money h.startTime h.duringTime h.refundTime h.refundFee⟩
    obtain ⟨value, hvalue, hfinite⟩ := h.orderType.finite
    exact (cells_amounts_iff bill hvalue).mpr ⟨⟨hfinite, h.money.finite, h.startTime.finite,
      h.duringTime.finite, h.refundTime.finite, h.refundFee.finite⟩, rfl⟩

end Row

end GameAcc.Lua.Statements
