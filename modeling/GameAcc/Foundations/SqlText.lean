import GameAcc.Foundations.Numeral

/-!
The tokens of an SQL statement as MySQL reads them: words, symbols, comments,
and texts between quotes, in which a doubled quote stands for the quote and a
backslash starts an escape. The reader goes through the characters with a state,
so what it makes of a statement put together from parts is what it makes of the
parts one after the other.

The question for such a statement is which values can be put between two quotes
and come back as one literal with that value. `Template.staysData_iff` answers
it: the values without a quote in which every backslash stands before a percent
sign or an underscore, the two escapes that MySQL leaves as they are.
-/

namespace GameAcc.SqlText

inductive Token where
  | word (text : List Char)
  | literal (text : List Char)
  | identifier (text : List Char)
  | symbol (c : Char)
  deriving DecidableEq

/-- Where the reader stands; the texts are those read so far, in reverse. After
a quote it has to see whether another one follows. -/
inductive State where
  | between
  | word (text : List Char)
  | quoted (quote : Char) (text : List Char)
  | escaped (quote : Char) (text : List Char)
  | closing (quote : Char) (text : List Char)
  | dash
  | dashes
  | slash
  | line
  | block
  | star
  deriving DecidableEq

def isWord (c : Char) : Bool := c.isAlphanum || c == '_' || c == '$'

def isQuote (c : Char) : Bool := c == '\'' || c == '"' || c == '\u0060'

def isControl (c : Char) : Bool := c.toNat < 32 || c.toNat == 127

/-- A character where no token has begun. -/
def start (c : Char) : List Token × State :=
  if isWord c then ([], .word [c])
  else if isQuote c then ([], .quoted c [])
  else if c = '-' then ([], .dash)
  else if c = '/' then ([], .slash)
  else if c = '#' then ([], .line)
  else if Numeral.isSpace c then ([], .between)
  else ([.symbol c], .between)

def emit (tokens : List Token) (next : List Token × State) : List Token × State :=
  (tokens ++ next.1, next.2)

def closed (quote : Char) (text : List Char) : Token :=
  if quote = '\u0060' then .identifier text.reverse else .literal text.reverse

/-- What a character after a backslash stands for, in reverse. -/
def unescape (c : Char) : List Char :=
  match c with
  | '0' => ['\x00']
  | 'b' => ['\x08']
  | 'n' => ['\n']
  | 'r' => ['\r']
  | 't' => ['\t']
  | 'Z' => ['\x1a']
  | '%' => ['%', '\\']
  | '_' => ['_', '\\']
  | c => [c]

def step : State → Char → List Token × State
  | .between, c => start c
  | .word text, c =>
    if isWord c then ([], .word (c :: text)) else emit [.word text.reverse] (start c)
  | .quoted quote text, c =>
    if c = quote then ([], .closing quote text)
    else if c = '\\' ∧ quote ≠ '\u0060' then ([], .escaped quote text)
    else ([], .quoted quote (c :: text))
  | .escaped quote text, c => ([], .quoted quote (unescape c ++ text))
  | .closing quote text, c =>
    if c = quote then ([], .quoted quote (c :: text))
    else emit [closed quote text] (start c)
  | .dash, c => if c = '-' then ([], .dashes) else emit [.symbol '-'] (start c)
  | .dashes, c =>
    if c = '\n' then ([], .between)
    else if Numeral.isSpace c || isControl c then ([], .line)
    else if c = '-' then ([.symbol '-'], .dashes)
    else emit [.symbol '-', .symbol '-'] (start c)
  | .slash, c => if c = '*' then ([], .block) else emit [.symbol '/'] (start c)
  | .line, c => if c = '\n' then ([], .between) else ([], .line)
  | .block, c => if c = '*' then ([], .star) else ([], .block)
  | .star, c =>
    if c = '/' then ([], .between) else if c = '*' then ([], .star) else ([], .block)

def run : State → List Char → List Token × State
  | st, [] => ([], st)
  | st, c :: rest => emit (step st c).1 (run (step st c).2 rest)

/-- The last token at the end of the text; a literal or a comment that is not
closed is an error. -/
def finish : State → Option (List Token)
  | .between => some []
  | .word text => some [.word text.reverse]
  | .closing quote text => some [closed quote text]
  | .dash => some [.symbol '-']
  | .slash => some [.symbol '/']
  | .dashes => some []
  | .line => some []
  | .quoted _ _ => none
  | .escaped _ _ => none
  | .block => none
  | .star => none

def readFrom (st : State) (cs : List Char) : Option (List Token) :=
  (finish (run st cs).2).map (fun tokens => (run st cs).1 ++ tokens)

def lex (cs : List Char) : Option (List Token) := readFrom .between cs

theorem run_append (st : State) (xs ys : List Char) :
    run st (xs ++ ys) = emit (run st xs).1 (run (run st xs).2 ys) := by
  induction xs generalizing st with
  | nil => simp [run, emit]
  | cons c rest ih => simp [run, emit, ih]

theorem readFrom_append (st : State) (xs ys : List Char) :
    readFrom st (xs ++ ys) =
      (readFrom (run st xs).2 ys).map (fun tokens => (run st xs).1 ++ tokens) := by
  simp [readFrom, run_append, emit, Function.comp_def]

theorem readFrom_cons (st : State) (c : Char) (rest : List Char) :
    readFrom st (c :: rest) =
      (readFrom (step st c).2 rest).map (fun tokens => (step st c).1 ++ tokens) := by
  simp [readFrom, run, emit, Function.comp_def]

section Value

/-- The values that come back from between two quotes as they are. -/
def plain : List Char → Bool
  | [] => true
  | c :: rest =>
    if c = '\'' then false
    else if c = '\\' then
      match rest with
      | [] => false
      | d :: rest' => (d == '%' || d == '_') && plain rest'
    else plain rest

theorem unescape_kept {c : Char} (h : (c == '%' || c == '_') = true) :
    unescape c = [c, '\\'] := by
  rcases Bool.or_eq_true_iff.mp h with h | h
  · obtain rfl := eq_of_beq h
    rfl
  · obtain rfl := eq_of_beq h
    rfl

theorem unescape_length_le (c : Char) : (unescape c).length ≤ 2 := by
  unfold unescape
  split <;> simp

theorem unescape_changed {c : Char} (h : (c == '%' || c == '_') = false) :
    (unescape c).length = 1 := by
  unfold unescape
  split <;> first | rfl | simp_all

@[simp] theorem step_quote (text : List Char) :
    step (.quoted '\'' text) '\'' = ([], .closing '\'' text) := by
  simp [step]

@[simp] theorem step_backslash (text : List Char) :
    step (.quoted '\'' text) '\\' = ([], .escaped '\'' text) := by
  simp [step]

@[simp] theorem step_doubled (text : List Char) :
    step (.closing '\'' text) '\'' = ([], .quoted '\'' ('\'' :: text)) := by
  simp [step]

theorem step_quoted_other {text : List Char} {c : Char} (hquote : c ≠ '\'')
    (hescape : c ≠ '\\') : step (.quoted '\'' text) c = ([], .quoted '\'' (c :: text)) := by
  simp [step, hquote, hescape]

/-- A plain value is read as it is. -/
theorem run_plain {v : List Char} (h : plain v = true) (text : List Char) :
    run (.quoted '\'' text) v = ([], .quoted '\'' (v.reverse ++ text)) := by
  fun_induction plain v generalizing text with
  | case1 => rfl
  | case2 => cases h
  | case3 => cases h
  | case4 d rest' _ ih =>
    obtain ⟨hkept, hrest⟩ := Bool.and_eq_true_iff.mp h
    have hsecond : step (.escaped '\'' text) d = ([], .quoted '\'' (d :: '\\' :: text)) := by
      rw [step, unescape_kept hkept]
      rfl
    simp only [run, step_backslash, hsecond, emit, ih hrest, List.nil_append]
    simp
  | case5 c rest hquote hescape ih =>
    simp only [run, step_quoted_other hquote hescape, emit, ih h, List.nil_append]
    simp

/-- A part of a value after which the reader is still in the literal. -/
def Stays (part : List Char) : Prop :=
  ∀ text, ∃ text', run (.quoted '\'' text) part = ([], .quoted '\'' text')

theorem Stays.nil : Stays [] := fun text => ⟨text, rfl⟩

theorem Stays.append {part part' : List Char} (h : Stays part) (h' : Stays part') :
    Stays (part ++ part') := by
  intro text
  obtain ⟨text', hpart⟩ := h text
  obtain ⟨text'', hpart'⟩ := h' text'
  refine ⟨text'', ?_⟩
  rw [run_append, hpart, emit, hpart']
  rfl

theorem Stays.char {c : Char} (hquote : c ≠ '\'') (hescape : c ≠ '\\') : Stays [c] := by
  intro text
  refine ⟨c :: text, ?_⟩
  rw [run, step_quoted_other hquote hescape]
  rfl

/-- An escape hides its second character, a quote too. -/
theorem Stays.escape (c : Char) : Stays ['\\', c] := by
  intro text
  refine ⟨unescape c ++ text, ?_⟩
  simp [run, step, emit]

theorem Stays.chars {part : List Char} (h : ∀ c ∈ part, c ≠ '\'' ∧ c ≠ '\\') :
    Stays part := by
  induction part with
  | nil => exact Stays.nil
  | cons c rest ih =>
    obtain ⟨hquote, hescape⟩ := h c List.mem_cons_self
    exact (Stays.char hquote hescape).append
      (ih (fun d hd => h d (List.mem_cons_of_mem c hd)))

/-- The reader is inside a literal whose characters and pending one are at most
`n`. -/
def Inside (n : Nat) : State → Prop
  | .quoted quote text => quote = '\'' ∧ text.length ≤ n
  | .escaped quote text => quote = '\'' ∧ text.length < n
  | .closing quote text => quote = '\'' ∧ text.length < n
  | _ => False

/-- A character that has no meaning of its own between quotes. -/
def ordinary (c : Char) : Bool := c != '\'' && c != '\\'

/-- Escapes and doubled quotes neither lose nor make ordinary characters. -/
theorem unescape_ordinary (c : Char) :
    (unescape c).countP ordinary = [c].countP ordinary := by
  unfold unescape
  split <;> rfl

/-- The ordinary characters read so far. -/
def mass : State → Nat
  | .quoted _ text => text.countP ordinary
  | .escaped _ text => text.countP ordinary
  | .closing _ text => text.countP ordinary
  | _ => 0

/-- A character inside a literal goes into it, or ends it. -/
theorem step_inside {n : Nat} {st : State} (h : Inside n st) (c : Char) :
    ((step st c).1 = [] ∧ Inside (n + 1) (step st c).2 ∧
        mass (step st c).2 = mass st + [c].countP ordinary) ∨
      ∃ d tokens, (step st c).1 = .literal d :: tokens ∧ d.length < n ∧
        d.countP ordinary = mass st := by
  cases st with
  | quoted quote text =>
    obtain ⟨rfl, hlength⟩ := h
    left
    by_cases hquote : c = '\''
    · subst hquote
      rw [step_quote]
      exact ⟨rfl, ⟨rfl, by omega⟩, rfl⟩
    by_cases hescape : c = '\\'
    · subst hescape
      rw [step_backslash]
      exact ⟨rfl, ⟨rfl, by omega⟩, rfl⟩
    · rw [step_quoted_other hquote hescape]
      refine ⟨rfl, ⟨rfl, by simpa using hlength⟩, ?_⟩
      simp only [mass, List.countP_cons, List.countP_nil]
      omega
  | escaped quote text =>
    obtain ⟨rfl, hlength⟩ := h
    have hchars := unescape_length_le c
    refine .inl ⟨rfl, ⟨rfl, ?_⟩, ?_⟩
    · simp only [List.length_append]
      omega
    · simp only [step, mass, List.countP_append, unescape_ordinary]
      omega
  | closing quote text =>
    obtain ⟨rfl, hlength⟩ := h
    by_cases hquote : c = '\''
    · subst hquote
      rw [step_doubled]
      refine .inl ⟨rfl, ⟨rfl, ?_⟩, rfl⟩
      simp only [List.length_cons]
      omega
    · refine .inr ⟨text.reverse, (start c).1, ?_, ?_, ?_⟩
      · simp [step, hquote, emit, closed]
      · rwa [List.length_reverse]
      · rw [List.countP_reverse]
        rfl
  | _ => exact h.elim

/-- A whole part goes into the literal, or ends it early. -/
theorem run_inside {n : Nat} {st : State} (h : Inside n st) (v : List Char) :
    ((run st v).1 = [] ∧ Inside (n + v.length) (run st v).2 ∧
        mass (run st v).2 = mass st + v.countP ordinary) ∨
      ∃ d tokens, (run st v).1 = .literal d :: tokens ∧ d.length < n + v.length := by
  induction v generalizing n st with
  | nil => exact .inl ⟨rfl, h, rfl⟩
  | cons c rest ih =>
    have hlength : n + (c :: rest).length = n + 1 + rest.length := by
      simp only [List.length_cons]
      omega
    rcases step_inside h c with ⟨hnone, hinside, hmass⟩ | ⟨d, tokens, hfirst, hshort, _⟩
    · rw [hlength]
      rcases ih hinside with ⟨hrest, hstill, hcount⟩ | ⟨d, tokens, hfirst, hshort⟩
      · refine .inl ⟨?_, hstill, ?_⟩
        · simp [run, emit, hnone, hrest]
        · rw [← List.singleton_append, List.countP_append, ← add_assoc, ← hmass]
          exact hcount
      · refine .inr ⟨d, tokens, ?_, hshort⟩
        simp [run, emit, hnone, hfirst]
    · refine .inr ⟨d, tokens ++ (run (step st c).2 rest).1, ?_, by omega⟩
      simp [run, emit, hfirst]

theorem length_le_of_run {n : Nat} {st : State} (h : Inside n st) {v text' : List Char}
    (hrun : run st v = ([], .quoted '\'' text')) : text'.length ≤ n + v.length := by
  have hinside := run_inside h v
  rw [hrun] at hinside
  rcases hinside with ⟨_, ⟨_, hle⟩, _⟩ | ⟨d, tokens, hnil, _⟩
  · exact hle
  · cases hnil

/-- A value that leaves the reader inside with as many characters is plain. -/
theorem plain_of_run {v text text' : List Char}
    (h : run (.quoted '\'' text) v = ([], .quoted '\'' text'))
    (hlength : text.length + v.length ≤ text'.length) : plain v = true := by
  fun_induction plain v generalizing text with
  | case1 => rfl
  | case2 rest =>
    cases rest with
    | nil => simp [run, emit] at h
    | cons c rest =>
      by_cases hquote : c = '\''
      · subst hquote
        have hrest : run (.quoted '\'' ('\'' :: text)) rest = ([], .quoted '\'' text') := by
          simpa [run, emit] using h
        have hinside : Inside (text.length + 1) (.quoted '\'' ('\'' :: text)) := ⟨rfl, by simp⟩
        have hle := length_le_of_run hinside hrest
        simp only [List.length_cons] at hlength
        omega
      · simp [run, step, hquote, emit] at h
  | case3 =>
    simp [run, emit] at h
  | case4 d rest' _ ih =>
    have hrest : run (.quoted '\'' (unescape d ++ text)) rest' =
        ([], .quoted '\'' text') := by
      simpa [run, step, emit] using h
    cases hkept : (d == '%' || d == '_') with
    | true =>
      rw [Bool.true_and]
      apply ih hrest
      rw [unescape_kept hkept]
      simp only [List.length_cons, List.length_append, List.length_nil] at hlength ⊢
      omega
    | false =>
      have hchars := unescape_changed hkept
      have hinside : Inside (text.length + 1) (.quoted '\'' (unescape d ++ text)) := by
        refine ⟨rfl, ?_⟩
        simp only [List.length_append]
        omega
      have hle := length_le_of_run hinside hrest
      simp only [List.length_cons] at hlength
      omega
  | case5 c rest hquote hescape ih =>
    have hrest : run (.quoted '\'' (c :: text)) rest = ([], .quoted '\'' text') := by
      simpa [run, step_quoted_other hquote hescape, emit] using h
    apply ih hrest
    simp only [List.length_cons] at hlength ⊢
    omega

/-- The literal has at least the ordinary characters read so far. -/
theorem mass_le_literal {n : Nat} {st : State} (h : Inside n st) {cs d : List Char}
    {tail : List Token} (hread : readFrom st cs = some (.literal d :: tail)) :
    mass st ≤ d.countP ordinary := by
  induction cs generalizing n st with
  | nil =>
    cases st with
    | closing quote text =>
      obtain ⟨rfl, _⟩ := h
      have hd : text.reverse = d ∧ tail = [] := by
        simpa [readFrom, run, finish, closed] using hread
      rw [← hd.1, List.countP_reverse]
      rfl
    | quoted quote text => cases hread
    | escaped quote text => cases hread
    | _ => exact h.elim
  | cons c rest ih =>
    rw [readFrom_cons] at hread
    obtain ⟨tokens, htokens, heq⟩ := Option.map_eq_some_iff.mp hread
    rcases step_inside h c with ⟨hnone, hinside, hmass⟩ | ⟨d', tokens', hfirst, _, hmass⟩
    · rw [hnone, List.nil_append] at heq
      have hle := ih hinside (heq ▸ htokens)
      omega
    · rw [hfirst] at heq
      obtain rfl := Token.literal.inj (List.cons_eq_cons.mp heq).1
      exact hmass.ge

/-- A literal that goes on behind its closing quote has an ordinary character
more than it would have had. -/
theorem mass_lt_literal {n : Nat} {st : State} {text : List Char}
    (hgoes : step st '\'' = ([], .quoted '\'' ('\'' :: text))) (hlength : text.length ≤ n)
    {c : Char} (hc : ordinary c = true) {rest d : List Char} {tail : List Token}
    (hread : readFrom st ('\'' :: c :: rest) = some (.literal d :: tail)) :
    text.countP ordinary < d.countP ordinary := by
  obtain ⟨hquote, hescape⟩ : c ≠ '\'' ∧ c ≠ '\\' := by
    simpa [ordinary] using hc
  have hstep : step (.quoted '\'' ('\'' :: text)) c =
      ([], .quoted '\'' (c :: '\'' :: text)) := step_quoted_other hquote hescape
  rw [readFrom_cons, hgoes, readFrom_cons, hstep] at hread
  simp only [List.nil_append, Option.map_id'] at hread
  have hinside : Inside (n + 2) (.quoted '\'' (c :: '\'' :: text)) :=
    ⟨rfl, by simpa using hlength⟩
  have hle := mass_le_literal hinside hread
  have hkeeps : ordinary '\'' = false := rfl
  simp only [mass, List.countP_cons, hc, hkeeps, if_true] at hle
  omega

/-- A value that is read back from between two quotes, with an ordinary
character behind them, is plain. -/
theorem plain_of_literal {v rest : List Char} {c : Char} (hc : ordinary c = true)
    {tail : List Token}
    (hread : readFrom (.quoted '\'' []) (v ++ '\'' :: c :: rest) = some (.literal v :: tail)) :
    plain v = true := by
  have hinside : Inside 0 (.quoted '\'' []) := ⟨rfl, le_rfl⟩
  rw [readFrom_append] at hread
  rcases run_inside hinside v with ⟨hnone, hstill, hmass⟩ | ⟨d, tokens, hfirst, hshort⟩
  · rw [hnone] at hread
    simp only [List.nil_append, Option.map_id'] at hread
    cases hrun : (run (.quoted '\'' []) v).2 with
    | quoted quote text =>
      rw [hrun] at hstill hread
      obtain ⟨rfl, _⟩ := hstill
      have hquote : c ≠ '\'' := by
        rintro rfl
        cases hc
      have hclosing : step (.closing '\'' text) c = emit [.literal text.reverse] (start c) := by
        simp [step, hquote, closed]
      rw [readFrom_cons, step_quote, readFrom_cons, hclosing] at hread
      simp only [emit, Option.map_map, Option.map_eq_some_iff, Function.comp_apply,
        List.nil_append, List.cons_append] at hread
      obtain ⟨_, _, heq⟩ := hread
      have htext := congrArg List.length (Token.literal.inj (List.cons_eq_cons.mp heq).1)
      rw [List.length_reverse] at htext
      exact plain_of_run (Prod.ext hnone hrun) (by simpa using htext.ge)
    | escaped quote text =>
      -- the closing quote was escaped
      rw [hrun] at hstill hread hmass
      obtain ⟨rfl, hlength⟩ := hstill
      have hlt := mass_lt_literal rfl hlength.le hc hread
      simp only [mass, List.countP_nil] at hmass
      omega
    | closing quote text =>
      -- the closing quote was the second of two
      rw [hrun] at hstill hread hmass
      obtain ⟨rfl, hlength⟩ := hstill
      have hlt := mass_lt_literal (step_doubled _) hlength.le hc hread
      simp only [mass, List.countP_nil] at hmass
      omega
    | _ =>
      rw [hrun] at hstill
      exact hstill.elim
  · rw [hfirst] at hread
    simp only [List.cons_append, Option.map_eq_some_iff] at hread
    obtain ⟨_, _, heq⟩ := hread
    obtain rfl := Token.literal.inj (List.cons_eq_cons.mp heq).1
    rw [Nat.zero_add] at hshort
    exact absurd hshort (lt_irrefl _)

/-- A part of a value that decides alone whether the value is plain so far. -/
def Segment (part : List Char) (good : Bool) : Prop :=
  ∀ rest, plain (part ++ rest) = (good && plain rest)

theorem Segment.nil : Segment [] true := fun _ => rfl

theorem Segment.append {part part' : List Char} {good good' : Bool} (h : Segment part good)
    (h' : Segment part' good') : Segment (part ++ part') (good && good') := by
  intro rest
  rw [List.append_assoc, h, h', Bool.and_assoc]

theorem Segment.char {c : Char} (hquote : c ≠ '\'') (hescape : c ≠ '\\') :
    Segment [c] true := by
  intro rest
  show plain (c :: rest) = (true && plain rest)
  conv_lhs => unfold plain
  rw [if_neg hquote, if_neg hescape, Bool.true_and]

theorem Segment.quote : Segment ['\''] false := by
  intro rest
  show plain ('\'' :: rest) = false
  unfold plain
  rfl

/-- An escape that MySQL reads as another character. -/
theorem Segment.escape {c : Char} (h : (c == '%' || c == '_') = false) (more : List Char) :
    Segment ('\\' :: c :: more) false := by
  intro rest
  show plain ('\\' :: c :: (more ++ rest)) = false
  unfold plain
  rw [if_neg (by decide), if_pos rfl]
  show ((c == '%' || c == '_') && plain (more ++ rest)) = false
  rw [h, Bool.false_and]

theorem Segment.chars {part : List Char} (h : ∀ c ∈ part, c ≠ '\'' ∧ c ≠ '\\') :
    Segment part true := by
  induction part with
  | nil => exact Segment.nil
  | cons c rest ih =>
    obtain ⟨hquote, hescape⟩ := h c List.mem_cons_self
    exact (Segment.char hquote hescape).append
      (ih (fun d hd => h d (List.mem_cons_of_mem c hd)))

theorem Segment.plain_eq {part : List Char} {good : Bool} (h : Segment part good) :
    plain part = good := by
  have hpart := h []
  rwa [List.append_nil, plain, Bool.and_true] at hpart

end Value

section Template

/-- A statement with a place for a value between quotes: what stands before the
opening quote, and what follows the closing one up to the next literal. -/
structure Template where
  before : List Char
  gap : List Char
  rest : List Char
  opens : ∃ tokens, run .between (before ++ ['\'']) = (tokens, .quoted '\'' [])
  gap_ne_nil : gap ≠ []
  gap_code : ∀ c ∈ gap, c ≠ '\'' ∧ c ≠ '\\'
  rest_literal : rest = [] ∨ ∃ c tail, rest = '\'' :: c :: tail ∧ c ≠ '\''
  closes : (lex (gap ++ rest)).isSome

def Template.fill (t : Template) (v : List Char) : List Char :=
  t.before ++ '\'' :: (v ++ '\'' :: (t.gap ++ t.rest))

def Alphanumeric (w : List Char) : Prop := w ≠ [] ∧ w.all Char.isAlphanum = true

/-- The statement has the tokens it has for alphanumeric values, with one literal
that is the value in its place. -/
def StaysData (build : List Char → List Char) (v : List Char) : Prop :=
  ∃ before after, lex (build v) = some (before ++ .literal v :: after) ∧
    ∀ w, Alphanumeric w → lex (build w) = some (before ++ .literal w :: after)

theorem plain_of_alphanumeric {w : List Char} (h : w.all Char.isAlphanum = true) :
    plain w = true := by
  apply Segment.plain_eq
  apply Segment.chars
  intro c hmem
  have hc := List.all_eq_true.mp h c hmem
  constructor
  · rintro rfl
    exact absurd hc (by decide)
  · rintro rfl
    exact absurd hc (by decide)

/-- Two values fix the place of the one that varies. -/
theorem place_unique {α β : Type} {f g : β → α} {xs ys xs' ys' : List α} {a b : β}
    (hne : g a ≠ g b) (ha : xs ++ f a :: ys = xs' ++ g a :: ys')
    (hb : xs ++ f b :: ys = xs' ++ g b :: ys') : xs = xs' ∧ f a = g a ∧ ys = ys' := by
  have hlength : xs.length = xs'.length := by
    rcases Nat.lt_trichotomy xs.length xs'.length with hlt | heq | hgt
    · have hta := congrArg (fun l => l[xs'.length]?) ha
      have htb := congrArg (fun l => l[xs'.length]?) hb
      simp only [List.getElem?_append_right le_rfl, Nat.sub_self, List.getElem?_cons_zero,
        List.getElem?_append_right hlt.le] at hta htb
      obtain ⟨k, hk⟩ : ∃ k, xs'.length - xs.length = k + 1 :=
        ⟨xs'.length - xs.length - 1, by omega⟩
      rw [hk, List.getElem?_cons_succ] at hta htb
      exact absurd (Option.some.inj (hta.symm.trans htb)) hne
    · exact heq
    · have hta := congrArg (fun l => l[xs'.length]?) ha
      have htb := congrArg (fun l => l[xs'.length]?) hb
      simp only [List.getElem?_append_right le_rfl, Nat.sub_self, List.getElem?_cons_zero,
        List.getElem?_append_left hgt] at hta htb
      exact absurd (Option.some.inj (hta.symm.trans htb)) hne
  obtain ⟨hxs, htail⟩ := List.append_inj ha hlength
  exact ⟨hxs, List.cons_eq_cons.mp htail⟩

/-- What follows the place is read on its own. -/
theorem Template.read_closing (t : Template) (text : List Char) :
    readFrom (.closing '\'' text) (t.gap ++ t.rest) =
      (lex (t.gap ++ t.rest)).map (fun tokens => .literal text.reverse :: tokens) := by
  obtain ⟨c, gap', hgap⟩ := List.exists_cons_of_ne_nil t.gap_ne_nil
  obtain ⟨hquote, _⟩ := t.gap_code c (by rw [hgap]; exact List.mem_cons_self)
  have hclosing : step (.closing '\'' text) c = emit [.literal text.reverse] (start c) := by
    simp [step, hquote, closed]
  rw [hgap, List.cons_append, readFrom_cons, hclosing, lex, readFrom_cons]
  simp [emit, Function.comp_def, step]

theorem Template.read_plain (t : Template) {v : List Char} (h : plain v = true) :
    readFrom (.quoted '\'' []) (v ++ '\'' :: (t.gap ++ t.rest)) =
      (lex (t.gap ++ t.rest)).map (fun tokens => .literal v :: tokens) := by
  rw [readFrom_append, run_plain h, readFrom_cons, List.append_nil, step_quote,
    t.read_closing, List.reverse_reverse]
  simp [Function.comp_def]

/-- The values that stay data in a template are the plain ones. -/
theorem Template.staysData_iff (t : Template) (v : List Char) :
    StaysData t.fill v ↔ plain v = true := by
  obtain ⟨opening, hopens⟩ := t.opens
  obtain ⟨post, hpost⟩ := Option.isSome_iff_exists.mp t.closes
  have hfill : ∀ w, lex (t.fill w) =
      (readFrom (.quoted '\'' []) (w ++ '\'' :: (t.gap ++ t.rest))).map
        (fun tokens => opening ++ tokens) := by
    intro w
    have hsplit : t.fill w =
        (t.before ++ ['\'']) ++ (w ++ '\'' :: (t.gap ++ t.rest)) := by
      simp [Template.fill]
    rw [hsplit, lex, readFrom_append, hopens]
  have hplain : ∀ w, plain w = true →
      lex (t.fill w) = some (opening ++ .literal w :: post) := by
    intro w hw
    rw [hfill, t.read_plain hw, hpost]
    rfl
  constructor
  · rintro ⟨before, after, hv, halnum⟩
    by_contra hnot
    have hplace : ∀ w, Alphanumeric w →
        opening ++ .literal w :: post = before ++ .literal w :: after := by
      intro w hw
      have htokens := (hplain w (plain_of_alphanumeric hw.2)).symm.trans (halnum w hw)
      exact Option.some.inj htokens
    have ha : Alphanumeric ['a'] := ⟨by decide, by decide⟩
    have hb : Alphanumeric ['b'] := ⟨by decide, by decide⟩
    have hne : Token.literal ['a'] ≠ Token.literal ['b'] := by
      decide
    obtain ⟨rfl, _, rfl⟩ := place_unique hne (hplace _ ha) (hplace _ hb)
    rw [hfill] at hv
    obtain ⟨tokens, hread, heq⟩ := Option.map_eq_some_iff.mp hv
    obtain rfl := List.append_cancel_left heq
    obtain ⟨c, gap', hgap⟩ := List.exists_cons_of_ne_nil t.gap_ne_nil
    have hc : ordinary c = true := by
      simpa [ordinary] using t.gap_code c (by rw [hgap]; exact List.mem_cons_self)
    rw [hgap, List.cons_append] at hread
    exact hnot (plain_of_literal hc hread)
  · intro hv
    exact ⟨opening, post, hplain v hv,
      fun w hw => hplain w (plain_of_alphanumeric hw.2)⟩

/-- A place without quotes holds no literal, whatever stands there. -/
theorem bare_not_data {before after : List Char} {opening : List Token} {c : Char}
    {rest : List Char} (hbefore : run .between before = (opening, .between))
    (hafter : after = c :: rest) (hc : isWord c = false) (hcloses : (lex after).isSome)
    (v : List Char) : ¬StaysData (fun w => before ++ (w ++ after)) v := by
  rintro ⟨before', after', _, halnum⟩
  obtain ⟨post, hpost⟩ := Option.isSome_iff_exists.mp hcloses
  have hread : ∀ d : Char, d.isAlphanum = true →
      opening ++ .word [d] :: post = before' ++ .literal [d] :: after' := by
    intro d hd
    have hisWord : isWord d = true := by
      simp [isWord, hd]
    have hfirst : step .between d = ([], .word [d]) := by
      simp [step, start, hisWord]
    have hnext : step (.word [d]) c = emit [.word [d]] (start c) := by
      simp [step, hc]
    have htail : readFrom .between ([d] ++ after) = some (.word [d] :: post) := by
      rw [List.singleton_append, readFrom_cons, hfirst, hafter, readFrom_cons, hnext]
      rw [hafter, lex, readFrom_cons] at hpost
      obtain ⟨tokens, htokens, rfl⟩ := Option.map_eq_some_iff.mp hpost
      simp only [step] at htokens ⊢
      simp [emit, htokens]
    have htokens := halnum [d] ⟨List.cons_ne_nil d [], by simp [hd]⟩
    rw [lex, readFrom_append, hbefore, htail] at htokens
    exact Option.some.inj htokens
  have hne : Token.literal ['a'] ≠ Token.literal ['b'] := by
    decide
  obtain ⟨_, hkind, _⟩ := place_unique (f := fun d => Token.word [d])
    (g := fun d => Token.literal [d]) hne (hread 'a' (by decide)) (hread 'b' (by decide))
  cases hkind

end Template

section Code

/-- A character that begins neither a text between quotes nor a block comment. -/
def isCode (c : Char) : Bool := !isQuote c && c != '/'

/-- The reader is in no literal and in no block comment. -/
def Code : State → Prop
  | .quoted _ _ => False
  | .escaped _ _ => False
  | .closing quote _ => isQuote quote = true
  | .slash => False
  | .block => False
  | .star => False
  | _ => True

theorem start_code {c : Char} (hc : isCode c = true) : Code (start c).2 := by
  obtain ⟨hquote, hslash⟩ := Bool.and_eq_true_iff.mp hc
  have hquote' : isQuote c = false := by
    simpa using hquote
  have hslash' : c ≠ '/' := by
    simpa using hslash
  unfold start
  repeat' split
  all_goals simp_all [Code]

theorem step_code {st : State} {c : Char} (h : Code st) (hc : isCode c = true) :
    Code (step st c).2 := by
  have hstart := start_code hc
  cases st with
  | closing quote text =>
    have hne : c ≠ quote := by
      rintro rfl
      have hquote : isQuote c = true := h
      simp [isCode, hquote] at hc
    simpa [step, hne, emit] using hstart
  | between => exact hstart
  | word text =>
    simp only [step]
    split
    · trivial
    · exact hstart
  | dash =>
    simp only [step]
    split
    · trivial
    · exact hstart
  | dashes =>
    simp only [step]
    split
    · trivial
    split
    · trivial
    split
    · trivial
    · exact hstart
  | line =>
    simp only [step]
    split <;> trivial
  | _ => exact h.elim

theorem readFrom_code {st : State} {cs : List Char} (h : Code st)
    (hcs : ∀ c ∈ cs, isCode c = true) : (readFrom st cs).isSome := by
  induction cs generalizing st with
  | nil =>
    cases st <;> first | exact h.elim | rfl
  | cons c rest ih =>
    have hrest := ih (step_code h (hcs c List.mem_cons_self))
      (fun d hd => hcs d (List.mem_cons_of_mem c hd))
    rw [readFrom_cons, Option.isSome_map]
    exact hrest

end Code

section Items

/-- A value between quotes and the comma behind it. -/
def item (v : List Char) : List Char := '\'' :: (v ++ ['\'', ','])

theorem run_item {v : List Char} (h : plain v = true) :
    run .between (item v) = ([.literal v, .symbol ','], .between) := by
  have hopen : step .between '\'' = ([], .quoted '\'' []) := by
    decide
  have hcomma : step (.closing '\'' (v.reverse ++ [])) ',' =
      ([.literal v, .symbol ','], .between) := by
    have hstart : start ',' = ([.symbol ','], .between) := by
      decide
    simp [step, hstart, emit, closed]
  simp only [item, run, hopen, run_append, run_plain h, step_quote, hcomma, emit]
  rfl

/-- After the text no token has begun. -/
def Ready (cs : List Char) : Prop := (run .between cs).2 = .between

instance (cs : List Char) : Decidable (Ready cs) :=
  inferInstanceAs (Decidable ((run .between cs).2 = .between))

theorem Ready.run_eq {cs : List Char} (h : Ready cs) :
    run .between cs = ((run .between cs).1, .between) := Prod.ext rfl h

theorem Ready.append {cs cs' : List Char} (h : Ready cs) (h' : Ready cs') :
    Ready (cs ++ cs') := by
  show (run .between (cs ++ cs')).2 = .between
  rw [run_append, h]
  exact h'

theorem ready_items {items : List (List Char)} (h : ∀ v ∈ items, plain v = true) :
    Ready (items.flatMap item) := by
  induction items with
  | nil => rfl
  | cons v rest ih =>
    have hfirst : Ready (item v) := by
      rw [Ready, run_item (h v List.mem_cons_self)]
    exact hfirst.append (ih (fun w hw => h w (List.mem_cons_of_mem v hw)))

theorem Ready.opens {cs : List Char} (h : Ready cs) :
    ∃ tokens, run .between (cs ++ ['\'']) = (tokens, .quoted '\'' []) := by
  have hopen : step .between '\'' = ([], .quoted '\'' []) := by
    decide
  refine ⟨(run .between cs).1, ?_⟩
  rw [run_append, h]
  simp [run, hopen, emit]

/-- A place behind which the statement has no other literal. -/
def Template.last (before gap : List Char) (hbefore : Ready before) (hne : gap ≠ [])
    (hgap : ∀ c ∈ gap, isCode c = true ∧ c ≠ '\\') : Template where
  before := before
  gap := gap
  rest := []
  opens := hbefore.opens
  gap_ne_nil := hne
  gap_code := by
    intro c hc
    obtain ⟨hcode, hescape⟩ := hgap c hc
    refine ⟨?_, hescape⟩
    rintro rfl
    exact absurd hcode (by decide)
  rest_literal := .inl rfl
  closes := by
    rw [List.append_nil]
    exact readFrom_code trivial (fun c hc => (hgap c hc).1)

/-- A place with a comma and other values behind it. -/
def Template.followed (before next : List Char) (items : List (List Char))
    (tail : List Char) (hbefore : Ready before) (hnext : next ≠ [] ∧ plain next = true)
    (hitems : ∀ v ∈ items, plain v = true) (htail : ∀ c ∈ tail, isCode c = true) :
    Template where
  before := before
  gap := [',']
  rest := item next ++ (items.flatMap item ++ tail)
  opens := hbefore.opens
  gap_ne_nil := List.cons_ne_nil _ _
  gap_code := by
    intro c hc
    rw [List.mem_singleton.mp hc]
    decide
  rest_literal := by
    obtain ⟨c, v, rfl⟩ := List.exists_cons_of_ne_nil hnext.1
    refine .inr ⟨c, v ++ ['\'', ','] ++ (items.flatMap item ++ tail), ?_, ?_⟩
    · simp [item]
    · rintro rfl
      have hplain := hnext.2
      unfold plain at hplain
      cases hplain
  closes := by
    have hcomma : Ready [','] := by
      decide
    have hfirst : Ready (item next) := by
      rw [Ready, run_item hnext.2]
    have hready := (hcomma.append hfirst).append (ready_items hitems)
    have hsplit : [','] ++ (item next ++ (items.flatMap item ++ tail)) =
        ([','] ++ item next ++ items.flatMap item) ++ tail := by
      simp
    rw [hsplit, lex, readFrom_append, hready, Option.isSome_map]
    exact readFrom_code trivial htail

end Items

end GameAcc.SqlText
