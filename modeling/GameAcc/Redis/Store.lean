import GameAcc.Foundations.Command
import GameAcc.Foundations.DoubleText
import GameAcc.Foundations.Text
import Mathlib.Data.List.Sort
import Mathlib.Data.Prod.Lex
import Mathlib.Data.String.Basic

/-!
The part of Redis the programs use: hashes of texts, sets and sorted sets, and
one atomic command at a time. A missing key and an empty value are the same
thing. The programs never use one key with two types, so each type has its own
map and a wrong-type reply does not arise; `DEL` clears a key in all three.

A command is refused without effect when its arguments do not parse: the score
of `ZADD` and the bounds of `ZRANGEBYSCORE` must be numbers. Scores are doubles,
of which an order needs the extended values only.
-/

namespace GameAcc.Redis

open GameAcc.Command

abbrev Score : Type := Extended

/-- A text as C sees it, which ends it at the first zero. -/
def cString (s : String) : List Char := s.toList.takeWhile (fun c => c ≠ '\x00')

/-- The number is no double, as `strtod` reports through `ERANGE`: it overflows, or
it vanishes without being 0. -/
def outOfRange (q : ℚ) : Bool :=
  q ≠ 0 && (Rounding.round q = ⊤ || Rounding.round q = ⊥ || Rounding.round q = .fin 0)

/-- The score argument of `ZADD`: the whole text has to be a number in the range
of doubles or an infinity, and the empty text counts as zero. -/
def readScore (s : String) : Option Score :=
  let cs := cString s
  if cs = [] then some (.fin 0)
  else if (Numeral.readRat cs).any outOfRange then none
  else (Double.read cs).bind Double.extended

/-- A bound of `ZRANGEBYSCORE`, which may be out of the range and may have white
space in front. The bounds that exclude their value start with a bracket; the
programs send none, and they are not read here. -/
def readBound (s : String) : Option Score :=
  let cs := cString s
  if cs = [] then some (.fin 0)
  else (Double.read (cs.dropWhile Numeral.isSpace)).bind Double.extended

/-- Members with scores; a member occurs once. -/
structure SortedSet where
  entries : List (String × Score)
  nodup : (entries.map Prod.fst).Nodup

namespace SortedSet

def empty : SortedSet := ⟨[], List.nodup_nil⟩

theorem add_nodup (z : SortedSet) (member : String) (score : Score) :
    ((z.entries.filter (fun e => e.1 ≠ member) ++ [(member, score)]).map
      Prod.fst).Nodup := by
  rw [List.map_append, List.nodup_append]
  refine ⟨z.nodup.sublist (List.filter_sublist.map Prod.fst), by simp, ?_⟩
  intro a ha b hb
  obtain ⟨e, he, rfl⟩ := List.mem_map.mp ha
  have hne : e.1 ≠ member := by simpa using (List.mem_filter.mp he).2
  have hb : b = member := by simpa using hb
  rw [hb]
  exact hne

/-- `ZADD` of one member: an old score of the member is replaced. -/
def add (z : SortedSet) (member : String) (score : Score) : SortedSet :=
  ⟨z.entries.filter (fun e => e.1 ≠ member) ++ [(member, score)],
   z.add_nodup member score⟩

theorem mem_add {z : SortedSet} {member : String} {score : Score}
    {e : String × Score} :
    e ∈ (z.add member score).entries ↔
      (e ∈ z.entries ∧ e.1 ≠ member) ∨ e = (member, score) := by
  simp [add, List.mem_append]

/-- The place of an entry in the order Redis keeps, when its score is in the
range. -/
def place (min max : Score) (e : String × Score) : Option (Score ×ₗ String) :=
  if min ≤ e.2 ∧ e.2 ≤ max then some (toLex (e.2, e.1)) else none

/-- The entries with a score in the range, in the order Redis keeps them. -/
def inRange (z : SortedSet) (min max : Score) : List (Score ×ₗ String) :=
  (z.entries.filterMap (place min max)).insertionSort (· ≤ ·)

/-- `ZRANGEBYSCORE`: ascending scores, and members in order for equal scores. -/
def rangeByScore (z : SortedSet) (min max : Score) : List String :=
  (z.inRange min max).map (fun x => (ofLex x).2)

theorem mem_inRange {z : SortedSet} {min max score : Score} {member : String} :
    toLex (score, member) ∈ z.inRange min max ↔
      (member, score) ∈ z.entries ∧ min ≤ score ∧ score ≤ max := by
  rw [inRange, List.mem_insertionSort, List.mem_filterMap]
  constructor
  · rintro ⟨⟨m, x⟩, he, hsome⟩
    simp only [place, Option.ite_none_right_eq_some, Option.some.injEq,
      EmbeddingLike.apply_eq_iff_eq, Prod.mk.injEq] at hsome
    obtain ⟨hrange, rfl, rfl⟩ := hsome
    exact ⟨he, hrange⟩
  · rintro ⟨he, hrange⟩
    exact ⟨(member, score), he, if_pos hrange⟩

theorem mem_rangeByScore {z : SortedSet} {min max : Score} {member : String} :
    member ∈ z.rangeByScore min max ↔
      ∃ score, (member, score) ∈ z.entries ∧ min ≤ score ∧ score ≤ max := by
  rw [rangeByScore, List.mem_map]
  constructor
  · rintro ⟨x, hx, rfl⟩
    exact ⟨(ofLex x).1, mem_inRange.mp hx⟩
  · rintro ⟨score, hentry, hrange⟩
    exact ⟨toLex (score, member), mem_inRange.mpr ⟨hentry, hrange⟩, rfl⟩

theorem inRange_sorted (z : SortedSet) (min max : Score) :
    (z.inRange min max).Pairwise (· ≤ ·) :=
  List.sortedLE_iff_pairwise.mp List.sortedLE_insertionSort

/-- The members between two bounds as they are sent; none where one of them is
refused. -/
def rangeByBounds (z : SortedSet) (min max : String) : Option (List String) := do
  let min ← readBound min
  let max ← readBound max
  some (z.rangeByScore min max)

end SortedSet

structure Store where
  hash : String → String → Option String
  set : String → List String
  zset : String → SortedSet

namespace Store

def empty : Store :=
  { hash := fun _ _ => none, set := fun _ => [], zset := fun _ => .empty }

def setHash (s : Store) (key field value : String) : Store :=
  { s with hash := fun k f =>
      if k = key ∧ f = field then some value else s.hash k f }

def addMember (s : Store) (key member : String) : Store :=
  { s with set := fun k =>
      if k = key ∧ member ∉ s.set key then s.set k ++ [member] else s.set k }

def setZset (s : Store) (key : String) (z : SortedSet) : Store :=
  { s with zset := fun k => if k = key then z else s.zset k }

def delete (s : Store) (key : String) : Store :=
  { hash := fun k f => if k = key then none else s.hash k f,
    set := fun k => if k = key then [] else s.set k,
    zset := fun k => if k = key then .empty else s.zset k }

section Fields

variable (s : Store) (key field value member : String) (z : SortedSet)

@[simp] theorem setHash_set : (s.setHash key field value).set = s.set := rfl
@[simp] theorem setHash_zset : (s.setHash key field value).zset = s.zset := rfl
@[simp] theorem setZset_hash : (s.setZset key z).hash = s.hash := rfl
@[simp] theorem setZset_set : (s.setZset key z).set = s.set := rfl
@[simp] theorem addMember_hash : (s.addMember key member).hash = s.hash := rfl
@[simp] theorem addMember_zset : (s.addMember key member).zset = s.zset := rfl

@[simp] theorem setHash_self :
    (s.setHash key field value).hash key field = some value := by
  simp [setHash]

theorem setHash_key_ne {k : String} (f : String) (h : k ≠ key) :
    (s.setHash key field value).hash k f = s.hash k f := by
  simp [setHash, h]

theorem setHash_field_ne (k : String) {f : String} (h : f ≠ field) :
    (s.setHash key field value).hash k f = s.hash k f := by
  simp [setHash, h]

@[simp] theorem setZset_self : (s.setZset key z).zset key = z := by
  simp [setZset]

theorem delete_zset (k : String) :
    (s.delete key).zset k = if k = key then .empty else s.zset k := rfl

theorem setZset_setZset (z' : SortedSet) :
    (s.setZset key z).setZset key z' = s.setZset key z' := by
  have h : (fun k => if k = key then z' else if k = key then z else s.zset k) =
      fun k => if k = key then z' else s.zset k := by
    funext k
    by_cases hk : k = key <;> simp [hk]
  simp [setZset, h]

end Fields

end Store

inductive Cmd where
  | flushdb
  | del (key : String)
  | hexists (key field : String)
  | hget (key field : String)
  | hset (key field value : String)
  | sadd (key member : String)
  | sismember (key member : String)
  | smembers (key : String)
  | zadd (key score member : String)
  | zrangebyscore (key min max : String)

/-- The only client of `ZRANGEBYSCORE` hands a refusal on as a value. -/
def Cmd.Reply : Cmd → Type
  | .flushdb | .del _ | .hset _ _ _ | .sadd _ _ | .zadd _ _ _ => Unit
  | .hexists _ _ | .sismember _ _ => Bool
  | .hget _ _ => Option String
  | .smembers _ => List String
  | .zrangebyscore _ _ _ => Option (List String)

/-- One command on the store. -/
def execute : (c : Cmd) → Store → Except String (c.Reply × Store)
  | .flushdb, _ => .ok ((), .empty)
  | .del key, s => .ok ((), s.delete key)
  | .hexists key field, s => .ok ((s.hash key field).isSome, s)
  | .hget key field, s => .ok (s.hash key field, s)
  | .hset key field value, s => .ok ((), s.setHash key field value)
  | .sadd key member, s => .ok ((), s.addMember key member)
  | .sismember key member, s => .ok (decide (member ∈ s.set key), s)
  | .smembers key, s => .ok (s.set key, s)
  | .zadd key score member, s =>
    match readScore score with
    | some x => .ok ((), s.setZset key ((s.zset key).add member x))
    | none => .error "ERR value is not a valid float"
  | .zrangebyscore key min max, s => .ok ((s.zset key).rangeByBounds min max, s)

/-- The server as a client in another language sees it: a refusal is raised. -/
def serve {E : Type} (refusal : String → E) : Server Cmd Cmd.Reply E Store :=
  fun c s =>
    match execute c s with
    | .ok out => .ok out
    | .error message => .error (refusal message)

theorem serve_error {E : Type} {refusal : String → E} {c : Cmd} {s : Store} {e : E}
    (h : serve refusal c s = .error e) : ∃ message, e = refusal message := by
  unfold serve at h
  split at h
  · cases h
  · rename_i message _
    exact ⟨message, (Except.error.inj h).symm⟩

inductive Cmd.Reads : Cmd → Prop where
  | hexists (key field : String) : Reads (.hexists key field)
  | hget (key field : String) : Reads (.hget key field)
  | sismember (key member : String) : Reads (.sismember key member)
  | smembers (key : String) : Reads (.smembers key)
  | zrangebyscore (key min max : String) : Reads (.zrangebyscore key min max)

/-- A reading command is answered and leaves the store as it is. -/
theorem serve_reads {E : Type} (refusal : String → E) {c : Cmd} (h : c.Reads)
    (s : Store) : ∃ r, serve refusal c s = .ok (r, s) := by
  cases h <;> exact ⟨_, rfl⟩

/-! The commands as the clients call them. -/

section Client

variable {E : Type}

abbrev Client (E α : Type) : Type := Program Cmd Cmd.Reply E α

def del (key : String) : Client E Unit := .issue (Cmd.del key) .done

def hexists (key field : String) : Client E Bool :=
  .issue (Cmd.hexists key field) .done

def hget (key field : String) : Client E (Option String) :=
  .issue (Cmd.hget key field) .done

def hset (key field value : String) : Client E Unit :=
  .issue (Cmd.hset key field value) .done

def sismember (key member : String) : Client E Bool :=
  .issue (Cmd.sismember key member) .done

def smembers (key : String) : Client E (List String) :=
  .issue (Cmd.smembers key) .done

def zadd (key score member : String) : Client E Unit :=
  .issue (Cmd.zadd key score member) .done

def zrangebyscore (key min max : String) : Client E (Option (List String)) :=
  .issue (Cmd.zrangebyscore key min max) .done

end Client

section Replies

variable {E : Type} (refusal : String → E) (s : Store)

@[simp] theorem serve_smembers (key : String) :
    serve refusal (.smembers key) s = .ok (s.set key, s) := rfl

theorem serve_zadd_some (key member : String) {score : String} {x : Score}
    (h : readScore score = some x) :
    serve refusal (.zadd key score member) s =
      .ok ((), s.setZset key ((s.zset key).add member x)) := by
  simp [serve, execute, h]

theorem serve_zadd_none (key member : String) {score : String}
    (h : readScore score = none) :
    serve refusal (.zadd key score member) s =
      .error (refusal "ERR value is not a valid float") := by
  simp [serve, execute, h]

end Replies

section Numbers

theorem cString_decimal (n : Int) : cString (Numeral.decimal n) = (Numeral.decimal n).toList := by
  apply List.takeWhile_eq_self_iff.mpr
  intro c hc
  rcases Numeral.decimal_chars n c hc with rfl | hdigit
  · decide
  · apply decide_eq_true
    rintro rfl
    cases hdigit

theorem decimal_ne_nil (n : Int) : (Numeral.decimal n).toList ≠ [] := by
  intro hnil
  have hread := Numeral.readInt_decimal n
  rw [hnil] at hread
  cases hread

/-- The score of an integer, where it is in the range. -/
theorem readScore_decimal (n : Int) :
    readScore (Numeral.decimal n) =
      if outOfRange n = true then none else some (Rounding.round n) := by
  have hread := Numeral.readRat_decimal n
  obtain ⟨d, hd, hvalue⟩ := Double.read_of_readRat hread
  rw [readScore, cString_decimal, if_neg (decimal_ne_nil n), hread, hd, Option.any_some,
    Option.bind_some, hvalue]

theorem outOfRange_of_isDouble {n : Int} (h : Rounding.isDouble n = true) : outOfRange n = false := by
  have hround : Rounding.round n = .fin (n : ℚ) := of_decide_eq_true h
  by_cases hn : n = 0
  · simp [outOfRange, hn]
  · simp [outOfRange, hround, hn]

/-- White space, digits and a sign are all that a text with an integer holds. -/
theorem cString_of_readInt {s : String} {n : Int}
    (h : Numeral.readInt (Numeral.trim s.toList) = some n) : cString s = s.toList := by
  obtain ⟨ds, _, hds, htrim⟩ := Numeral.readInt_some h
  obtain ⟨front, back, htext, hfront, hback⟩ := Numeral.trim_decomposition s.toList
  have hzero : ∀ {c : Char}, c = '\x00' → Numeral.isSpace c = false ∧ c.isDigit = false := by
    rintro c rfl
    decide
  apply List.takeWhile_eq_self_iff.mpr
  intro c hc
  apply decide_eq_true
  intro hnul
  obtain ⟨hspace, hdigit⟩ := hzero hnul
  have hmiddle : c ∉ Numeral.trim s.toList := by
    intro hmem
    have hcases : c ∈ ds ∨ c = '+' ∨ c = '-' := by
      rcases htrim with ⟨hcs, _⟩ | ⟨hcs, _⟩ | ⟨hcs, _⟩
      · exact .inl (hcs ▸ hmem)
      · rcases List.mem_cons.mp (hcs ▸ hmem) with hplus | hmem
        · exact .inr (.inl hplus)
        · exact .inl hmem
      · rcases List.mem_cons.mp (hcs ▸ hmem) with hminus | hmem
        · exact .inr (.inr hminus)
        · exact .inl hmem
    rcases hcases with hmem | rfl | rfl
    · rw [hds c hmem] at hdigit
      cases hdigit
    · cases hnul
    · cases hnul
  rw [htext] at hc
  rcases List.mem_append.mp hc with hc | hc
  · rcases List.mem_append.mp hc with hc | hc
    · rw [hfront c hc] at hspace
      cases hspace
    · exact hmiddle hc
  · rw [hback c hc] at hspace
    cases hspace

/-- Where Redis and Python both read a number, Redis takes the nearest double. -/
theorem readScore_of_readInt {s : String} {n : Int} {x : Score} (hscore : readScore s = some x)
    (h : Numeral.readInt (Numeral.trim s.toList) = some n) : x = Rounding.round n := by
  obtain ⟨c, hc, hdigit⟩ := Numeral.exists_digit h
  unfold readScore at hscore
  dsimp only at hscore
  rw [cString_of_readInt h, if_neg (List.ne_nil_of_mem hc)] at hscore
  cases hread : Numeral.readRat s.toList with
  | none =>
    rw [hread, Option.any_none, if_neg (by decide)] at hscore
    obtain ⟨d, hd, _⟩ := Option.bind_eq_some_iff.mp hscore
    rw [Double.read_no_digit hd hread c hc] at hdigit
    cases hdigit
  | some q =>
    obtain rfl := Numeral.readRat_eq_of_readInt_trim hread h
    obtain ⟨d, hd, hvalue⟩ := Double.read_of_readRat hread
    rw [hread, hd, Option.bind_some, hvalue] at hscore
    split at hscore
    · cases hscore
    · exact (Option.some.inj hscore).symm

/-- A number that is a double is its own score. -/
theorem readScore_of_isDouble {n : Int} (h : Rounding.isDouble n = true) :
    readScore (Numeral.decimal n) = some (.fin n) := by
  rw [readScore_decimal, outOfRange_of_isDouble h, of_decide_eq_true h]
  rfl

end Numbers

end GameAcc.Redis
