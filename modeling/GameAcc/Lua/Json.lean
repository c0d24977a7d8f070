import GameAcc.Foundations.SqlText
import GameAcc.Lua.Value

/-!
A decoded request: what `cjson.decode` makes of a body, how Lua indexes it, and
the text `cjson.encode` makes of it again. A table carries the text `tostring`
makes of it, and the members of an object stand in the order of `pairs`.
-/

namespace GameAcc.Lua

inductive Json where
  | null
  | bool (value : Bool)
  | num (value : Double)
  | str (value : String)
  | arr (address : String) (items : List Json)
  | obj (address : String) (members : List (String × Json))

namespace Json

open SqlText (Segment)

mutual

/-- The numbers of a document. -/
def numbers : Json → List Double
  | .num q => [q]
  | .arr _ items => numbersItems items
  | .obj _ members => numbersMembers members
  | _ => []

def numbersItems : List Json → List Double
  | [] => []
  | v :: rest => numbers v ++ numbersItems rest

def numbersMembers : List (String × Json) → List Double
  | [] => []
  | (_, v) :: rest => numbers v ++ numbersMembers rest

end

/-- `cjson.encode` raises on a number that is not finite; `cjson.decode` reads
such numbers. -/
def encodable (v : Json) : Bool := v.numbers.all (fun q => q.rat.isSome)

/-- The value of a member that is there. -/
def value : Json → Value
  | .null => .null
  | .bool b => .bool b
  | .num q => .num q
  | .str s => .str s
  | .arr address items => .table address (encodable (.arr address items))
  | .obj address members => .table address (encodable (.obj address members))

/-- A member as a value: a missing one is nil. -/
def ofMember : Option Json → Value
  | none => .nil
  | some v => v.value

/-- `v[key]` for a key that is no function of the string library. A text has
such members, all of them nil. -/
def index (v : Json) (key : String) : Except Stop (Option Json) :=
  match v with
  | .obj _ members => .ok (members.lookup key)
  | .arr _ _ => .ok none
  | .str _ => .ok none
  | .null => .error (.error "attempt to index a userdata value")
  | .bool _ => .error (.error "attempt to index a boolean value")
  | .num _ => .error (.error "attempt to index a number value")

/-- What `v[key]` is where it is no error. -/
def get? (v : Json) (key : String) : Option Json :=
  match v with
  | .obj _ members => members.lookup key
  | _ => none

def indexable : Json → Bool
  | .obj _ _ => true
  | .arr _ _ => true
  | .str _ => true
  | .null => false
  | .bool _ => false
  | .num _ => false

def isObject : Json → Bool
  | .obj _ _ => true
  | _ => false

def isTable : Json → Bool
  | .obj _ _ => true
  | .arr _ _ => true
  | _ => false

theorem index_of_indexable {v : Json} (h : v.indexable = true) (key : String) :
    v.index key = .ok (v.get? key) := by
  cases v with
  | obj address members => rfl
  | arr address items => rfl
  | str s => rfl
  | null => cases h
  | bool b => cases h
  | num q => cases h

theorem index_of_not_indexable {v : Json} (h : v.indexable = false) :
    ∃ message, ∀ key, v.index key = .error (.error message) := by
  cases v with
  | obj address members => cases h
  | arr address items => cases h
  | str s => cases h
  | null => exact ⟨_, fun _ => rfl⟩
  | bool b => exact ⟨_, fun _ => rfl⟩
  | num q => exact ⟨_, fun _ => rfl⟩

theorem indexable_of_isObject {v : Json} (h : v.isObject = true) : v.indexable = true := by
  cases v <;> first | rfl | cases h

/-- What is no object has no members. -/
theorem get?_of_not_object {v : Json} (h : v.isObject = false) (key : String) :
    v.get? key = none := by
  cases v <;> first | rfl | cases h

/-- The values that `pairs(v)` visits. -/
def pairs (v : Json) : Except Stop (List Json) :=
  match v with
  | .obj _ members => .ok (members.map Prod.snd)
  | .arr _ items => .ok items
  | _ => .error (.error "bad argument #1 to 'for iterator' (table expected)")

/-- The values of a table, as `pairs` visits them. -/
def entries (v : Json) : List Json :=
  match v with
  | .obj _ members => members.map Prod.snd
  | .arr _ items => items
  | _ => []

theorem pairs_of_isTable {v : Json} (h : v.isTable = true) : v.pairs = .ok v.entries := by
  cases v <;> first | rfl | cases h

section Encode

/-- The escapes of `cjson.encode`. -/
def escapeChar (c : Char) : List Char :=
  if c = '"' then ['\\', '"']
  else if c = '\\' then ['\\', '\\']
  else if c = '/' then ['\\', '/']
  else if c = '\x08' then ['\\', 'b']
  else if c = '\t' then ['\\', 't']
  else if c = '\n' then ['\\', 'n']
  else if c = '\x0c' then ['\\', 'f']
  else if c = '\r' then ['\\', 'r']
  else if SqlText.isControl c then '\\' :: 'u' :: (Nat.toDigits 16 c.toNat).leftpad 4 '0'
  else [c]

def encodeString (s : String) : List Char :=
  '"' :: (s.toList.flatMap escapeChar ++ ['"'])

mutual

/-- The text of a value that can be encoded. An empty list is written as an
object, and a number as `tostring` writes it. -/
def encode : Json → List Char
  | .null => "null".toList
  | .bool true => "true".toList
  | .bool false => "false".toList
  | .num q => (numberText q).toList
  | .str s => encodeString s
  | .arr _ [] => "{}".toList
  | .arr _ (v :: rest) => '[' :: (encode v ++ encodeItems rest)
  | .obj _ [] => "{}".toList
  | .obj _ ((key, v) :: rest) => '{' :: (encodeString key ++ ':' :: (encode v ++ encodeMembers rest))

def encodeItems : List Json → List Char
  | [] => [']']
  | v :: rest => ',' :: (encode v ++ encodeItems rest)

def encodeMembers : List (String × Json) → List Char
  | [] => ['}']
  | (key, v) :: rest =>
    ',' :: (encodeString key ++ ':' :: (encode v ++ encodeMembers rest))

end

mutual

/-- The texts of a document, its keys among them. -/
def texts : Json → List String
  | .str s => [s]
  | .arr _ items => textsItems items
  | .obj _ members => textsMembers members
  | _ => []

def textsItems : List Json → List String
  | [] => []
  | v :: rest => texts v ++ textsItems rest

def textsMembers : List (String × Json) → List String
  | [] => []
  | (key, v) :: rest => key :: (texts v ++ textsMembers rest)

end

/-- The characters that are written as they are and are no quote. -/
def cleanChar (c : Char) : Bool := c != '\'' && escapeChar c == [c]

def clean (texts : List String) : Bool := texts.all (fun s => s.toList.all cleanChar)

theorem digits_of_control {c : Char} (h : SqlText.isControl c = true) :
    ∀ d ∈ Nat.toDigits 16 c.toNat, d ≠ '\'' ∧ d ≠ '\\' := by
  have hdigits : (List.range 128).all (fun n =>
      (Nat.toDigits 16 n).all (fun d => d != '\'' && d != '\\')) = true := by
    decide +kernel
  have hlt : c.toNat < 128 := by
    simp [SqlText.isControl] at h
    omega
  intro d hd
  simpa using List.all_eq_true.mp
    (List.all_eq_true.mp hdigits c.toNat (List.mem_range.mpr hlt)) d hd

/-- A character that is not written as it is becomes an escape that is no
wildcard. -/
theorem escapeChar_cases {c : Char} (h : escapeChar c ≠ [c]) : ∃ d more,
    escapeChar c = '\\' :: d :: more ∧ (d == '%' || d == '_') = false ∧
      ∀ e ∈ more, e ≠ '\'' ∧ e ≠ '\\' := by
  unfold escapeChar at h ⊢
  repeat' split
  all_goals first
    | exact ⟨_, _, rfl, by decide, fun e he => absurd he List.not_mem_nil⟩
    | skip
  · rename_i hcontrol
    refine ⟨_, _, rfl, by decide, fun e he => ?_⟩
    rw [List.leftpad, List.mem_append, List.mem_replicate] at he
    rcases he with ⟨_, rfl⟩ | hdigit
    · decide
    · exact digits_of_control hcontrol e hdigit
  · simp_all

/-- A property of the parts of an encoding, which the parts of a text have as
far as its characters are good. -/
structure Pieces (P : List Char → Bool → Prop) (good : Char → Bool) : Prop where
  nil : P [] true
  append {xs ys : List Char} {a b : Bool} : P xs a → P ys b → P (xs ++ ys) (a && b)
  char {c : Char} : c ≠ '\'' → c ≠ '\\' → P [c] true
  escape (c : Char) : P (escapeChar c) (good c)

namespace Pieces

variable {P : List Char → Bool → Prop} {good : Char → Bool}

theorem cons (h : Pieces P good) {c : Char} (hc : c ≠ '\'' ∧ c ≠ '\\') {part : List Char} {a : Bool}
    (hpart : P part a) : P (c :: part) a := by
  have hcons := h.append (h.char hc.1 hc.2) hpart
  rwa [Bool.true_and] at hcons

theorem chars (h : Pieces P good) {part : List Char}
    (hpart : ∀ c ∈ part, c ≠ '\'' ∧ c ≠ '\\') : P part true := by
  induction part with
  | nil => exact h.nil
  | cons c rest ih =>
    exact h.cons (hpart c List.mem_cons_self)
      (ih (fun d hd => hpart d (List.mem_cons_of_mem c hd)))

/-- A text of the encoder by evaluation. -/
theorem text (h : Pieces P good) {part : List Char}
    (hpart : part.all (fun c => c != '\'' && c != '\\') = true) : P part true := by
  apply h.chars
  intro c hc
  simpa using List.all_eq_true.mp hpart c hc

theorem encodeString (h : Pieces P good) (s : String) : P (encodeString s) (s.toList.all good) := by
  have hmark : P ['"'] true := h.char (by decide) (by decide)
  have hbody : ∀ cs : List Char, P (cs.flatMap escapeChar ++ ['"']) (cs.all good) := by
    intro cs
    induction cs with
    | nil => exact hmark
    | cons c rest ih =>
      rw [List.flatMap_cons, List.all_cons, List.append_assoc]
      exact h.append (h.escape c) ih
  exact h.cons (by decide) (hbody s.toList)

theorem numberText (h : Pieces P good) (value : Double) :
    P (numberText value).toList true := by
  apply h.chars
  intro c hc
  have hall := numberText_all (p := fun c => decide (c ≠ '\'' ∧ c ≠ '\\')) ?_ (by decide) value
  · simpa using List.all_eq_true.mp hall c hc
  · intro d hdigit
    apply decide_eq_true
    constructor
    · rintro rfl
      exact absurd hdigit (by decide)
    · rintro rfl
      exact absurd hdigit (by decide)

theorem empty (h : Pieces P good) : P "{}".toList true := h.text (by decide)

mutual

theorem encode (h : Pieces P good) : ∀ v : Json, P (encode v) ((texts v).all (fun s => s.toList.all good))
  | .null => h.text (by decide)
  | .bool true => h.text (by decide)
  | .bool false => h.text (by decide)
  | .num q => h.numberText q
  | .str s => by
    have hs := h.encodeString s
    rwa [← Bool.and_true (s.toList.all good)] at hs
  | .arr _ [] => h.empty
  | .arr _ (v :: rest) => by
    have hrest := h.append (Pieces.encode h v) (Pieces.encodeItems h rest)
    rw [← List.all_append] at hrest
    exact h.cons (by decide) hrest
  | .obj _ [] => h.empty
  | .obj _ ((key, v) :: rest) => by
    have hrest := h.append (Pieces.encode h v) (Pieces.encodeMembers h rest)
    rw [← List.all_append] at hrest
    exact h.cons (by decide) (h.append (h.encodeString key) (h.cons (by decide) hrest))

theorem encodeItems (h : Pieces P good) : ∀ items : List Json,
    P (encodeItems items) ((textsItems items).all (fun s => s.toList.all good))
  | [] => h.text (by decide)
  | v :: rest => by
    have hrest := h.append (Pieces.encode h v) (Pieces.encodeItems h rest)
    rw [← List.all_append] at hrest
    exact h.cons (by decide) hrest

theorem encodeMembers (h : Pieces P good) : ∀ members : List (String × Json),
    P (encodeMembers members) ((textsMembers members).all (fun s => s.toList.all good))
  | [] => h.text (by decide)
  | (key, v) :: rest => by
    have hrest := h.append (Pieces.encode h v) (Pieces.encodeMembers h rest)
    rw [← List.all_append] at hrest
    exact h.cons (by decide) (h.append (h.encodeString key) (h.cons (by decide) hrest))

end

end Pieces

theorem segment_pieces : Pieces Segment cleanChar where
  nil := Segment.nil
  append := Segment.append
  char := Segment.char
  escape := by
    intro c
    by_cases hsame : escapeChar c = [c]
    · by_cases hquote : c = '\''
      · subst hquote
        exact Segment.quote
      · have hclean : cleanChar c = true := by
          simp [cleanChar, hquote, hsame]
        have hescape : c ≠ '\\' := by
          rintro rfl
          exact absurd hsame (by decide)
        rw [hsame, hclean]
        exact Segment.char hquote hescape
    · have hclean : cleanChar c = false := by
        simp [cleanChar, hsame]
      obtain ⟨d, more, hescape, hd, _⟩ := escapeChar_cases hsame
      rw [hclean, hescape]
      exact Segment.escape hd more

/-- The text of a document comes back from an SQL statement when its own texts
are clean. -/
theorem segment_encode (v : Json) : Segment (encode v) (clean (texts v)) :=
  segment_pieces.encode v

end Encode

end Json

end GameAcc.Lua
