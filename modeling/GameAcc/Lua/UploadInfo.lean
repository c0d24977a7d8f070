import GameAcc.Lua.Entry
import GameAcc.Lua.Statements

/-!
`cc_uploadinfo.lua` and its copies, with what MySQL does on their statement: it
reads the tokens, and inserts the rows of an INSERT when every row has a value
for each column. A document that breaks out of its literal can make the
statement anything else; what MySQL does then is left open.
-/

namespace GameAcc.Lua.UploadInfo

open SqlText Statements Entry

/-- A row of `game_sdk_upload_tbl`. -/
structure UploadRow where
  clientip : List Char
  uploadtime : List Char
  content : List Char
  customerid : Option Int
  deriving DecidableEq

/-- The table of the uploads, and everything else that requests change. -/
structure World (τ : Type) where
  uploads : List UploadRow
  rest : τ

def World.insert {τ : Type} (w : World τ) (rows : List UploadRow) : World τ :=
  { w with uploads := w.uploads ++ rows }

/-- What the client receives; the time in it is left out. -/
inductive Response where
  | coded (errcode : Int) (data : Option Value)
  | text (s : String)
  | failed (message : String)
  deriving DecidableEq

abbrev Module (τ : Type) : Type := Json → World τ → Response × World τ

section Insert

def parseColumns : List Token → Option (List (List Char) × List Token)
  | .word name :: .symbol ',' :: rest =>
    (parseColumns rest).map (fun (names, rest') => (name :: names, rest'))
  | .word name :: .symbol ')' :: rest => some ([name], rest)
  | _ => none

/-- A literal, or a number without a sign. -/
def constant? : Token → Option (List Char)
  | .literal text => some text
  | .word text => if text.all Char.isDigit then some text else none
  | _ => none

def parseValues : List Token → Option (List (List Char) × List Token)
  | token :: .symbol ',' :: rest => do
    let value ← constant? token
    (parseValues rest).map (fun (values, rest') => (value :: values, rest'))
  | token :: .symbol ')' :: rest => (constant? token).map (fun value => ([value], rest))
  | _ => none

/-- Rows between parentheses, with commas between them; the number bounds how
many there are. -/
def parseRows : Nat → List Token → Option (List (List (List Char)))
  | 0, _ => none
  | fuel + 1, .symbol '(' :: rest => do
    let (values, rest') ← parseValues rest
    match rest' with
    | [] => some [values]
    | .symbol ',' :: more => (parseRows fuel more).map (fun rows => values :: rows)
    | _ => none
  | _ + 1, _ => none

structure Insert where
  columns : List (List Char)
  rows : List (List (List Char))

/-- An INSERT of constants into the table of the uploads. -/
def parseInsert : List Token → Option Insert
  | .word insert :: .word into :: .word table :: .symbol '(' :: rest =>
    if insert = "insert".toList ∧ into = "into".toList ∧
        table = "game_sdk_upload_tbl".toList then do
      let (columns, rest') ← parseColumns rest
      match rest' with
      | .word values :: tokens =>
        if values = "values".toList then
          (parseRows tokens.length tokens).map (fun rows => ⟨columns, rows⟩)
        else none
      | _ => none
    else none
  | _ => none

/-- The row of the values, when there is one for each column. -/
def uploadRow (columns values : List (List Char)) : Option UploadRow :=
  if columns.length ≠ values.length then none
  else do
    let given := columns.zip values
    let clientip ← given.lookup "clientip".toList
    let uploadtime ← given.lookup "uploadtime".toList
    let content ← given.lookup "content".toList
    some ⟨clientip, uploadtime, content,
      (given.lookup "customerid".toList).bind Numeral.readInt⟩

end Insert

/-- MySQL as the connection shows it. `accepts` is its test of an address, a
time and a content, such as their lengths; `other` is what it does on a
statement that is no INSERT of constants. -/
structure Server (τ : Type) where
  alloc : Bool
  connects : Bool
  closes : Bool
  accepts : World τ → List Char → List Char → List Char → Bool
  other : String → World τ → Option (World τ)

section Query

variable {τ : Type} (server : Server τ)

def Server.takes (w : World τ) (row : UploadRow) : Bool :=
  server.accepts w row.clientip row.uploadtime row.content

/-- `db:query(sql)`: the world after it, or none when it fails. -/
def Server.query (sql : String) (w : World τ) : Option (World τ) :=
  match lex sql.toList with
  | none => none
  | some tokens =>
    match parseInsert tokens with
    | none => server.other sql w
    | some insert =>
      match insert.rows.mapM (uploadRow insert.columns) with
      | none => none
      | some rows => if rows.all (server.takes w) = true then some (w.insert rows) else none

/-- `process` of the upload modules; a document with a number that is not finite
has no text. -/
def process (global : Global) (customer : Customer) (addr : RemoteAddr) (now : Date) :
    Module τ := fun userreq w =>
  if server.alloc = false then (.coded global.ERR_DB_ALLOC none, w)
  else if server.connects = false then (.coded global.ERR_DBINIT none, w)
  else if userreq.encodable = false then
    (.failed "Cannot serialise number: must not be NaN or Inf", w)
  else
    match server.query (uploadInfo customer addr now (String.ofList userreq.encode)) w with
    | none => (.coded (global.ERR_MOD_UPLOADINFO_BASE - 3) none, w)
    | some w' =>
      if server.closes = false then (.coded global.ERR_DBDEINIT none, w')
      else (.coded 0 none, w')

end Query

section Head

/-- The tokens up to the first value. -/
def headTokens (customer : Customer) : List Token :=
  [.word "insert".toList, .word "into".toList, .word "game_sdk_upload_tbl".toList,
    .symbol '(', .word "clientip".toList, .symbol ',', .word "uploadtime".toList,
    .symbol ',', .word "content".toList] ++
  (match customer with
    | .cc => []
    | .fei => [.symbol ',', .word "customerid".toList]
    | .wei => [.symbol ',', .word "customerid".toList]) ++
  [.symbol ')', .word "values".toList, .symbol '(']

def tailTokens : Customer → List Token
  | .cc => [.symbol ')']
  | .fei => [.symbol ',', .word "2".toList, .symbol ')']
  | .wei => [.symbol ',', .word "3".toList, .symbol ')']

/-- The mark of the rows. -/
def customerid : Customer → Option Int
  | .cc => none
  | .fei => some 2
  | .wei => some 3

theorem run_uploadHead (customer : Customer) :
    run .between (uploadHead customer).toList = (headTokens customer, .between) := by
  cases customer <;> decide +kernel

def columns (customer : Customer) : List (List Char) :=
  ["clientip".toList, "uploadtime".toList, "content".toList] ++
    (match customer with
      | .cc => []
      | .fei => ["customerid".toList]
      | .wei => ["customerid".toList])

def marks : Customer → List (List Char)
  | .cc => []
  | .fei => ["2".toList]
  | .wei => ["3".toList]

theorem parse_upload (customer : Customer) (clientip uploadtime content : List Char) :
    parseInsert (headTokens customer ++ .literal clientip :: .symbol ',' ::
        .literal uploadtime :: .symbol ',' :: .literal content :: tailTokens customer) =
      some ⟨columns customer, [clientip :: uploadtime :: content :: marks customer]⟩ := by
  cases customer <;> rfl

theorem row_upload (customer : Customer) (clientip uploadtime content : List Char) :
    uploadRow (columns customer) (clientip :: uploadtime :: content :: marks customer) =
      some ⟨clientip, uploadtime, content, customerid customer⟩ := by
  cases customer <;> rfl

end Head

/-- The document is one literal up to the quote behind it. -/
def OneLiteral (infostr : List Char) : Prop :=
  ∃ text, run (.quoted '\'' []) infostr = ([], .quoted '\'' text)

/-- A document whose texts have no quote is one literal, whatever its escapes
stand for. -/
theorem oneLiteral_of_no_quote {doc : Json}
    (h : ∀ text ∈ doc.texts, ∀ c ∈ text.toList, c ≠ '\'') : OneLiteral doc.encode := by
  have hpieces : Json.Pieces (fun part good => good = true → Stays part)
      (fun c => c != '\'') := {
    nil := fun _ => Stays.nil
    append := fun hxs hys hgood =>
      (hxs (Bool.and_eq_true_iff.mp hgood).1).append (hys (Bool.and_eq_true_iff.mp hgood).2)
    char := fun hquote hescape _ => Stays.char hquote hescape
    escape := by
      intro c hc
      by_cases hsame : Json.escapeChar c = [c]
      · have hescape : c ≠ '\\' := by
          rintro rfl
          exact absurd hsame (by decide)
        rw [hsame]
        exact Stays.char (by simpa using hc) hescape
      · obtain ⟨d, more, hpieces, _, hmore⟩ := Json.escapeChar_cases hsame
        rw [hpieces]
        exact (Stays.escape d).append (Stays.chars hmore) }
  have hgood : (doc.texts).all (fun s => s.toList.all (fun c => c != '\'')) = true := by
    simpa using h
  exact hpieces.encode doc hgood []

section Upload

variable {τ : Type} (server : Server τ) (customer : Customer) (addr : RemoteAddr)
  (now : Date) {infostr : List Char}

/-- The statement is read up to the document, and from there on. -/
theorem lex_uploadInfo (infostr : List Char) :
    lex (uploadInfo customer addr now (String.ofList infostr)).toList =
      (readFrom (.quoted '\'' []) (infostr ++ '\'' :: (customer.mark ++ ")").toList)).map
        (fun tokens => headTokens customer ++ .literal addr.text.toList :: .symbol ',' ::
          .literal now.chars :: .symbol ',' :: tokens) := by
  have hopen : step .between '\'' = ([], .quoted '\'' []) := by
    decide
  have hsplit : (uploadInfo customer addr now (String.ofList infostr)).toList =
      (uploadHead customer).toList ++ (item addr.text.toList ++ (item now.chars ++
        '\'' :: (infostr ++ '\'' :: (customer.mark ++ ")").toList))) := by
    simp [uploadInfo, item, Date.text]
  rw [hsplit, lex, readFrom_append, run_uploadHead, readFrom_append, run_item addr.plain,
    readFrom_append, run_item now.chars_plain, readFrom_cons, hopen]
  simp [Function.comp_def]

theorem lex_literal {text : List Char}
    (h : run (.quoted '\'' []) infostr = ([], .quoted '\'' text)) :
    lex (uploadInfo customer addr now (String.ofList infostr)).toList =
      some (headTokens customer ++ .literal addr.text.toList :: .symbol ',' ::
        .literal now.chars :: .symbol ',' :: .literal text.reverse :: tailTokens customer) := by
  have htail : readFrom (.closing '\'' text) (customer.mark ++ ")").toList =
      some (.literal text.reverse :: tailTokens customer) := by
    cases customer <;> rfl
  rw [lex_uploadInfo, readFrom_append, h, readFrom_cons, step_quote, htail]
  rfl

/-- The row that the statement inserts. -/
theorem query_literal {text : List Char}
    (h : run (.quoted '\'' []) infostr = ([], .quoted '\'' text)) (w : World τ) :
    server.query (uploadInfo customer addr now (String.ofList infostr)) w =
      if server.accepts w addr.text.toList now.chars text.reverse = true then
        some (w.insert [⟨addr.text.toList, now.chars, text.reverse, customerid customer⟩])
      else none := by
  rw [Server.query, lex_literal customer addr now h]
  simp [parse_upload, row_upload, Server.takes]

end Upload

end GameAcc.Lua.UploadInfo
