import GameAcc.Lua.UploadInfo

/-!
What the statement of an upload is when its document is any text: refused as it
reads, an INSERT of some rows, or another statement. A row goes through in two
front ends only when the document is one literal, since the marked ones have a
column and a value more.
-/

namespace GameAcc.Lua.UploadInfo

open SqlText Statements Entry

/-- MySQL refuses the statement as it reads it: a literal or a comment is left
open, or a row has not one value for each column. -/
def Refused (sql : String) : Prop :=
  ∀ tokens, lex sql.toList = some tokens → ∃ insert, parseInsert tokens = some insert ∧
    ∃ values ∈ insert.rows, values.length ≠ insert.columns.length

theorem uploadRow_none {columns values : List (List Char)}
    (h : values.length ≠ columns.length) : uploadRow columns values = none :=
  if_pos (Ne.symm h)

theorem uploadRow_some {customer : Customer} {values : List (List Char)}
    (h : values.length = (columns customer).length) :
    ∃ row, uploadRow (columns customer) values = some row := by
  have hclient : ∃ clientip uploadtime content mark,
      values = clientip :: uploadtime :: content :: mark := by
    match values, h with
    | [], h => cases customer <;> cases h
    | [_], h => cases customer <;> cases h
    | [_, _], h => cases customer <;> cases h
    | clientip :: uploadtime :: content :: mark, _ => exact ⟨_, _, _, _, rfl⟩
  obtain ⟨clientip, uploadtime, content, mark, rfl⟩ := hclient
  refine ⟨⟨clientip, uploadtime, content,
    (((columns customer).zip (clientip :: uploadtime :: content :: mark)).lookup
      "customerid".toList).bind Numeral.readInt⟩, ?_⟩
  unfold uploadRow
  rw [if_neg (not_not_intro h.symm)]
  cases customer <;> rfl

theorem rows_fit {customer : Customer} {values : List (List (List Char))}
    (h : ∀ v ∈ values, v.length = (columns customer).length) :
    ∃ rows, values.mapM (uploadRow (columns customer)) = some rows ∧
      rows.length = values.length := by
  induction values with
  | nil => exact ⟨[], rfl, rfl⟩
  | cons v rest ih =>
    obtain ⟨row, hrow⟩ := uploadRow_some (h v List.mem_cons_self)
    obtain ⟨rows, hrows, hlength⟩ := ih (fun u hu => h u (List.mem_cons_of_mem v hu))
    refine ⟨row :: rows, ?_, by simp [hlength]⟩
    rw [List.mapM_cons, hrow, hrows]
    rfl

theorem rows_misfit {columns : List (List Char)} {values : List (List (List Char))}
    (h : ∃ v ∈ values, v.length ≠ columns.length) :
    values.mapM (uploadRow columns) = none := by
  induction values with
  | nil => simp at h
  | cons v rest ih =>
    rw [List.mapM_cons]
    by_cases hv : v.length = columns.length
    · have hrest : ∃ u ∈ rest, u.length ≠ columns.length := by
        obtain ⟨u, hu, hne⟩ := h
        rcases List.mem_cons.mp hu with rfl | hu
        · exact absurd hv hne
        · exact ⟨u, hu, hne⟩
      rw [ih hrest]
      cases uploadRow columns v <;> rfl
    · rw [uploadRow_none hv]
      rfl

theorem query_refused {τ : Type} (server : Server τ) {sql : String} (h : Refused sql)
    (w : World τ) : server.query sql w = none := by
  unfold Server.query
  cases hlex : lex sql.toList with
  | none => rfl
  | some tokens =>
    obtain ⟨insert, hparse, hmisfit⟩ := h tokens hlex
    simp only [hparse, rows_misfit hmisfit]

theorem parse_head (customer : Customer) (tokens : List Token) :
    parseInsert (headTokens customer ++ tokens) =
      (parseRows (tokens.length + 1) (.symbol '(' :: tokens)).map
        (fun rows => ⟨columns customer, rows⟩) := by
  cases customer <;> rfl

theorem parseRows_length {fuel : Nat} {tokens : List Token} {rows : List (List (List Char))}
    (h : parseRows fuel tokens = some rows) : 0 < rows.length := by
  unfold parseRows at h
  split at h
  · cases h
  · obtain ⟨⟨values, rest'⟩, _, h⟩ := Option.bind_eq_some_iff.mp h
    dsimp only at h
    split at h
    · obtain rfl := Option.some.inj h
      exact Nat.one_pos
    · obtain ⟨rows', _, rfl⟩ := Option.map_eq_some_iff.mp h
      exact Nat.succ_pos _
    · cases h
  · cases h

theorem parseRows_single {fuel : Nat} {rest : List Token} {values : List (List Char)}
    (h : parseRows (fuel + 1) (.symbol '(' :: rest) = some [values]) :
    parseValues rest = some (values, []) := by
  obtain ⟨⟨values', rest'⟩, hvalues, h⟩ := Option.bind_eq_some_iff.mp h
  dsimp only at h
  split at h
  · obtain rfl : values' = values := by
      simpa using h
    exact hvalues
  · obtain ⟨rows', hrows, heq⟩ := Option.map_eq_some_iff.mp h
    have hlength := parseRows_length hrows
    simp only [List.cons.injEq] at heq
    rw [heq.2] at hlength
    cases hlength
  · cases h

/-- A list of values is its first one and what follows it. -/
theorem parseValues_cons {tokens rest : List Token} {values : List (List Char)}
    (h : parseValues tokens = some (values, rest)) : ∃ token value others,
      values = value :: others ∧
      ((others = [] ∧ tokens = token :: .symbol ')' :: rest) ∨
        ∃ more, tokens = token :: .symbol ',' :: more ∧
          parseValues more = some (others, rest)) := by
  unfold parseValues at h
  split at h
  · rename_i token more
    obtain ⟨value, _, h⟩ := Option.bind_eq_some_iff.mp h
    obtain ⟨⟨others, rest'⟩, hmore, heq⟩ := Option.map_eq_some_iff.mp h
    obtain ⟨rfl, rfl⟩ := Prod.ext_iff.mp heq
    exact ⟨token, value, others, rfl, .inr ⟨more, rfl, hmore⟩⟩
  · rename_i token more
    obtain ⟨value, _, heq⟩ := Option.map_eq_some_iff.mp h
    obtain ⟨rfl, rfl⟩ := Prod.ext_iff.mp heq
    exact ⟨token, value, [], rfl, .inl ⟨rfl, rfl⟩⟩
  · cases h

theorem parseValues_literal {text : List Char} {tokens rest : List Token}
    {values : List (List Char)}
    (h : parseValues (.literal text :: .symbol ',' :: tokens) = some (values, rest)) :
    ∃ others, values = text :: others ∧ parseValues tokens = some (others, rest) := by
  obtain ⟨⟨others, rest'⟩, htokens, heq⟩ := Option.map_eq_some_iff.mp h
  obtain ⟨rfl, rfl⟩ := Prod.ext_iff.mp heq
  exact ⟨others, rfl, htokens⟩

/-- A quote that ends no token begins or ends a literal, or is in a comment. -/
theorem quote_hides {st : State} (h : (step st '\'').1 = []) :
    readFrom (step st '\'').2 [')'] ≠ some [.symbol ')'] := by
  have hquoted : ∀ quote text, readFrom (.quoted quote text) [')'] ≠ some [.symbol ')'] := by
    intro quote text
    by_cases hq : ')' = quote
    · subst hq
      simp [readFrom, run, step, emit, finish, closed]
    · simp [readFrom, run, step, emit, finish, hq]
  have hstart : step .between '\'' = ([], .quoted '\'' []) := by
    decide
  cases st with
  | between =>
    rw [hstart]
    exact hquoted _ _
  | word text => simp [step, emit, isWord] at h
  | quoted quote text =>
    by_cases hq : '\'' = quote
    · subst hq
      simp [readFrom, run, step, emit, finish, start, isWord, isQuote, closed, Numeral.isSpace]
    · simp only [step, if_neg hq]
      rw [if_neg (by simp)]
      exact hquoted _ _
  | escaped quote text => exact hquoted _ _
  | closing quote text =>
    by_cases hq : '\'' = quote
    · simp only [step, if_pos hq]
      exact hquoted _ _
    · simp [step, hq, emit] at h
  | dash => simp [step, emit] at h
  | dashes =>
    have : (step .dashes '\'').1 ≠ [] := by decide
    exact absurd h this
  | slash => simp [step, emit] at h
  | line => decide
  | block => decide
  | star => decide

/-- A document behind which a row of three values ends, and one of more goes on,
is one literal. -/
theorem oneLiteral_of_rows {infostr gap : List Char} {token token' : Token}
    {rest : List Token}
    (hends : readFrom (.quoted '\'' []) (infostr ++ '\'' :: [')']) =
      some [token, .symbol ')'])
    (hgoes : readFrom (.quoted '\'' []) (infostr ++ '\'' :: gap) =
      some (token' :: .symbol ',' :: rest)) : OneLiteral infostr := by
  rw [readFrom_append, readFrom_cons] at hends hgoes
  obtain ⟨_, hends', htokens⟩ := Option.map_eq_some_iff.mp hends
  obtain ⟨ends, hends, rfl⟩ := Option.map_eq_some_iff.mp hends'
  obtain ⟨_, hgoes', htokens'⟩ := Option.map_eq_some_iff.mp hgoes
  obtain ⟨goes, _, rfl⟩ := Option.map_eq_some_iff.mp hgoes'
  clear hends' hgoes' hgoes
  have hinside : Inside 0 (.quoted '\'' []) := ⟨rfl, le_refl 0⟩
  rcases run_inside hinside infostr with ⟨hnone, hst, _⟩ | ⟨d, tokens, hfirst, _⟩
  · cases hrun : (run (.quoted '\'' []) infostr).2 with
    | quoted quote text =>
      rw [hrun] at hst
      obtain ⟨rfl, _⟩ := hst
      exact ⟨text, Prod.ext hnone hrun⟩
    | escaped quote text =>
      rw [hrun] at hst hends
      obtain ⟨rfl, _⟩ := hst
      simp [readFrom, run, step, emit, finish] at hends
    | closing quote text =>
      rw [hrun] at hst hends
      obtain ⟨rfl, _⟩ := hst
      simp [readFrom, run, emit, finish, step] at hends
    | _ =>
      rw [hrun] at hst
      exact hst.elim
  · rw [hfirst] at htokens htokens'
    obtain ⟨_, htokens⟩ := List.cons.inj htokens
    obtain ⟨_, htokens'⟩ := List.cons.inj htokens'
    have hnone : tokens = [] ∧ (step (run (.quoted '\'' []) infostr).2 '\'').1 = [] := by
      cases tokens with
      | cons t tokens =>
        obtain ⟨rfl, _⟩ := List.cons.inj htokens
        cases (List.cons.inj htokens').1
      | nil =>
        refine ⟨rfl, ?_⟩
        cases hemits : (step (run (.quoted '\'' []) infostr).2 '\'').1 with
        | nil => rfl
        | cons t emitted =>
          rw [hemits] at htokens htokens'
          obtain ⟨rfl, _⟩ := List.cons.inj htokens
          cases (List.cons.inj htokens').1
    rw [hnone.1, hnone.2] at htokens
    obtain rfl : ends = [.symbol ')'] := htokens
    exact absurd hends (quote_hides hnone.2)

theorem parseInsert_rows {tokens : List Token} {insert : Insert}
    (h : parseInsert tokens = some insert) : 0 < insert.rows.length := by
  unfold parseInsert at h
  split at h
  · split at h
    · obtain ⟨⟨columns, rest'⟩, _, h⟩ := Option.bind_eq_some_iff.mp h
      dsimp only at h
      split at h
      · split at h
        · obtain ⟨rows, hrows, rfl⟩ := Option.map_eq_some_iff.mp h
          exact parseRows_length hrows
        · cases h
      · cases h
    · cases h
  · cases h

section Single

variable {customer : Customer} {addr : RemoteAddr} {now : Date} {infostr : List Char}
  {tokens : List Token}

/-- What the statement inserts goes into the columns of the front end. -/
theorem columns_of_upload {insert : Insert}
    (hlex : lex (uploadInfo customer addr now (String.ofList infostr)).toList = some tokens)
    (hparse : parseInsert tokens = some insert) : insert.columns = columns customer := by
  rw [lex_uploadInfo] at hlex
  obtain ⟨rest, _, rfl⟩ := Option.map_eq_some_iff.mp hlex
  rw [parse_head] at hparse
  obtain ⟨rows, _, rfl⟩ := Option.map_eq_some_iff.mp hparse
  rfl

/-- The values of a single row come after the address and the time. -/
theorem values_of_single {insert : Insert} {values : List (List Char)}
    (hlex : lex (uploadInfo customer addr now (String.ofList infostr)).toList = some tokens)
    (hparse : parseInsert tokens = some insert) (hrows : insert.rows = [values]) :
    ∃ rest others, readFrom (.quoted '\'' [])
        (infostr ++ '\'' :: (customer.mark ++ ")").toList) = some rest ∧
      parseValues rest = some (others, []) ∧ values.length = others.length + 2 := by
  rw [lex_uploadInfo] at hlex
  obtain ⟨rest, hrest, rfl⟩ := Option.map_eq_some_iff.mp hlex
  rw [parse_head] at hparse
  obtain ⟨rows, hparsed, rfl⟩ := Option.map_eq_some_iff.mp hparse
  obtain rfl : rows = [values] := hrows
  obtain ⟨others, rfl, hothers⟩ := parseValues_literal (parseRows_single hparsed)
  obtain ⟨others', rfl, hothers'⟩ := parseValues_literal hothers
  exact ⟨rest, others', hrest, hothers', rfl⟩

end Single

theorem mapM_length {α β : Type} {f : α → Option β} {xs : List α} {ys : List β}
    (h : xs.mapM f = some ys) : ys.length = xs.length := by
  induction xs generalizing ys with
  | nil =>
    obtain rfl := Option.some.inj h
    rfl
  | cons x rest ih =>
    rw [List.mapM_cons] at h
    obtain ⟨y, _, h⟩ := Option.bind_eq_some_iff.mp h
    obtain ⟨ys', hrest, h⟩ := Option.bind_eq_some_iff.mp h
    obtain rfl := Option.some.inj h
    rw [List.length_cons, List.length_cons, ih hrest]

section Kinds

variable {τ : Type} (server : Server τ)

/-- A statement that changes the world is an INSERT, or one of the others. -/
theorem query_some {sql : String} {w w' : World τ} (h : server.query sql w = some w') :
    ∃ tokens, lex sql.toList = some tokens ∧
      ((parseInsert tokens = none ∧ server.other sql w = some w') ∨
        ∃ insert rows, parseInsert tokens = some insert ∧
          insert.rows.mapM (uploadRow insert.columns) = some rows ∧
          rows.all (server.takes w) = true ∧ w' = w.insert rows) := by
  unfold Server.query at h
  cases hlex : lex sql.toList with
  | none =>
    rw [hlex] at h
    cases h
  | some tokens =>
    simp only [hlex] at h
    refine ⟨tokens, rfl, ?_⟩
    cases hparse : parseInsert tokens with
    | none =>
      simp only [hparse] at h
      exact .inl ⟨rfl, h⟩
    | some insert =>
      simp only [hparse] at h
      cases hrows : insert.rows.mapM (uploadRow insert.columns) with
      | none =>
        simp only [hrows] at h
        cases h
      | some rows =>
        simp only [hrows] at h
        obtain ⟨htakes, h⟩ := Option.ite_none_right_eq_some.mp h
        exact .inr ⟨insert, rows, rfl, hrows, htakes, (Option.some.inj h).symm⟩

theorem query_other {sql : String} {tokens : List Token} (hlex : lex sql.toList = some tokens)
    (hparse : parseInsert tokens = none) (w : World τ) :
    server.query sql w = server.other sql w := by
  simp only [Server.query, hlex, hparse]

theorem query_insert {sql : String} {tokens : List Token} {insert : Insert}
    {rows : List UploadRow} (hlex : lex sql.toList = some tokens)
    (hparse : parseInsert tokens = some insert)
    (hrows : insert.rows.mapM (uploadRow insert.columns) = some rows) (w : World τ) :
    server.query sql w =
      if rows.all (server.takes w) = true then some (w.insert rows) else none := by
  simp only [Server.query, hlex, hparse, hrows]

end Kinds

end GameAcc.Lua.UploadInfo
