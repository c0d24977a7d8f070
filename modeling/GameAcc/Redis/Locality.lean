import GameAcc.Foundations.Commute
import GameAcc.Redis.Store

/-!
A command sees and changes nothing but the values of its key. Commands on
different keys commute, and so do commands that only read.
-/

namespace GameAcc.Redis

open GameAcc.Command

/-- The values of one key. -/
structure Cell where
  hash : String → Option String
  set : List String
  zset : SortedSet

def Cell.empty : Cell := ⟨fun _ => none, [], .empty⟩

namespace Store

def cell (s : Store) (key : String) : Cell := ⟨s.hash key, s.set key, s.zset key⟩

def setCell (s : Store) (key : String) (v : Cell) : Store where
  hash := fun k => if k = key then v.hash else s.hash k
  set := fun k => if k = key then v.set else s.set k
  zset := fun k => if k = key then v.zset else s.zset k

theorem cell_setCell_ne (s : Store) {key other : String} (v : Cell) (h : other ≠ key) :
    (s.setCell key v).cell other = s.cell other := by
  simp [cell, setCell, h]

@[simp] theorem setCell_cell (s : Store) (key : String) : s.setCell key (s.cell key) = s := by
  have hif : ∀ {β : Type} (f : String → β),
      (fun k => if k = key then f key else f k) = f := by
    intro β f
    funext k
    by_cases hk : k = key
    · rw [if_pos hk, hk]
    · rw [if_neg hk]
  simp only [setCell, cell, hif]

theorem setCell_comm (s : Store) {key other : String} (v w : Cell) (h : other ≠ key) :
    (s.setCell key v).setCell other w = (s.setCell other w).setCell key v := by
  have hif : ∀ {β : Type} (x y : β) (f : String → β),
      (fun k => if k = other then x else if k = key then y else f k) =
        fun k => if k = key then y else if k = other then x else f k := by
    intro β x y f
    funext k
    by_cases hk : k = other
    · subst hk
      rw [if_pos rfl, if_neg h, if_pos rfl]
    · rw [if_neg hk, if_neg hk]
  simp only [setCell, hif]

end Store

/-- The key of a command, unless it is about the whole store. -/
def Cmd.key? : Cmd → Option String
  | .flushdb => none
  | .del key | .hexists key _ | .hget key _ | .hset key _ _ | .sadd key _
  | .sismember key _ | .smembers key | .zadd key _ _ | .zrangebyscore key _ _ => some key

/-- A command on the values of its key. -/
def executeCell : (c : Cmd) → Cell → Except String (c.Reply × Cell)
  | .flushdb, _ => .ok ((), .empty)
  | .del _, _ => .ok ((), .empty)
  | .hexists _ field, v => .ok ((v.hash field).isSome, v)
  | .hget _ field, v => .ok (v.hash field, v)
  | .hset _ field value, v =>
    .ok ((), { v with hash := fun f => if f = field then some value else v.hash f })
  | .sadd _ member, v =>
    .ok ((), { v with set := if member ∉ v.set then v.set ++ [member] else v.set })
  | .sismember _ member, v => .ok (decide (member ∈ v.set), v)
  | .smembers _, v => .ok (v.set, v)
  | .zadd _ score member, v =>
    match readScore score with
    | some x => .ok ((), { v with zset := v.zset.add member x })
    | none => .error "ERR value is not a valid float"
  | .zrangebyscore _ min max, v => .ok (v.zset.rangeByBounds min max, v)

theorem execute_eq {c : Cmd} {key : String} (h : c.key? = some key) (s : Store) :
    execute c s = (executeCell c (s.cell key)).map (fun out => (out.1, s.setCell key out.2)) := by
  cases c with
  | flushdb => cases h
  | del k =>
    obtain rfl := Option.some.inj h
    have hstate : s.delete k = s.setCell k .empty := by
      simp only [Store.delete, Store.setCell, Cell.empty, Store.mk.injEq, and_true]
      funext k' f
      split <;> rfl
    exact congrArg (fun s' => Except.ok ((), s')) hstate
  | hset k field value =>
    obtain rfl := Option.some.inj h
    have hstate : s.setHash k field value = s.setCell k { s.cell k with
        hash := fun f => if f = field then some value else s.hash k f } := by
      have hset := congrArg Store.set (s.setCell_cell k)
      have hzset := congrArg Store.zset (s.setCell_cell k)
      simp only [Store.setCell, Store.cell] at hset hzset
      simp only [Store.setHash, Store.setCell, Store.cell, hset, hzset, Store.mk.injEq, and_true]
      funext k' f
      by_cases hk : k' = k
      · simp [hk]
      · simp [hk]
    exact congrArg (fun s' => Except.ok ((), s')) hstate
  | sadd k member =>
    obtain rfl := Option.some.inj h
    have hstate : s.addMember k member = s.setCell k { s.cell k with
        set := if member ∉ s.set k then s.set k ++ [member] else s.set k } := by
      have hhash := congrArg Store.hash (s.setCell_cell k)
      have hzset := congrArg Store.zset (s.setCell_cell k)
      simp only [Store.setCell, Store.cell] at hhash hzset
      simp only [Store.addMember, Store.setCell, Store.cell, hhash, hzset, Store.mk.injEq,
        and_true, true_and]
      funext k'
      by_cases hk : k' = k
      · simp [hk]
      · simp [hk]
    exact congrArg (fun s' => Except.ok ((), s')) hstate
  | zadd k score member =>
    obtain rfl := Option.some.inj h
    cases hscore : readScore score with
    | none => simp [execute, executeCell, hscore, Except.map]
    | some x =>
      have hstate : s.setZset k ((s.zset k).add member x) = s.setCell k { s.cell k with
          zset := (s.zset k).add member x } := by
        have hhash := congrArg Store.hash (s.setCell_cell k)
        have hset := congrArg Store.set (s.setCell_cell k)
        simp only [Store.setCell, Store.cell] at hhash hset
        simp only [Store.setZset, Store.setCell, Store.cell, hhash, hset]
      simp only [execute, executeCell, hscore, Except.map, hstate]
      rfl
  | hexists k field =>
    obtain rfl := Option.some.inj h
    exact congrArg (fun s' => Except.ok ((s.hash k field).isSome, s')) (s.setCell_cell k).symm
  | hget k field =>
    obtain rfl := Option.some.inj h
    exact congrArg (fun s' => Except.ok (s.hash k field, s')) (s.setCell_cell k).symm
  | sismember k member =>
    obtain rfl := Option.some.inj h
    exact congrArg (fun s' => Except.ok (decide (member ∈ s.set k), s')) (s.setCell_cell k).symm
  | smembers k =>
    obtain rfl := Option.some.inj h
    exact congrArg (fun s' => Except.ok (s.set k, s')) (s.setCell_cell k).symm
  | zrangebyscore k min max =>
    obtain rfl := Option.some.inj h
    exact congrArg (fun s' => Except.ok ((s.zset k).rangeByBounds min max, s'))
      (s.setCell_cell k).symm

section Client

variable {E : Type} {refusal : String → E}

/-- The values a command leaves under its key. -/
def afterCell (c : Cmd) (v : Cell) : Cell :=
  match executeCell c v with
  | .ok (_, v') => v'
  | .error _ => v

theorem after_eq {c : Cmd} {key : String} (h : c.key? = some key) (s : Store) :
    after (serve refusal) c s = s.setCell key (afterCell c (s.cell key)) := by
  unfold after serve afterCell
  rw [execute_eq h]
  cases executeCell c (s.cell key) with
  | ok out => rfl
  | error e => exact (s.setCell_cell key).symm

/-- The reply depends on the values of the key alone. -/
theorem reply_congr {c : Cmd} {key : String} (h : c.key? = some key) {s s' : Store}
    (hcell : s.cell key = s'.cell key) :
    reply (serve refusal) c s = reply (serve refusal) c s' := by
  unfold reply serve
  rw [execute_eq h, execute_eq h, hcell]
  cases executeCell c (s'.cell key) with
  | ok out => rfl
  | error e => rfl

theorem commute_of_key_ne {c d : Cmd} {key other : String} (hc : c.key? = some key)
    (hd : d.key? = some other) (hne : key ≠ other) : Commute (serve refusal) c d := by
  constructor
  · intro s
    apply reply_congr hc
    rw [after_eq hd]
    exact s.cell_setCell_ne _ hne
  · intro s
    apply reply_congr hd
    rw [after_eq hc]
    exact s.cell_setCell_ne _ hne.symm
  · intro s
    rw [after_eq hc, after_eq hd, after_eq hd, after_eq hc, s.cell_setCell_ne _ hne,
      s.cell_setCell_ne _ hne.symm]
    exact s.setCell_comm _ _ hne.symm

theorem after_reads {c : Cmd} (h : c.Reads) (s : Store) : after (serve refusal) c s = s := by
  obtain ⟨r, hr⟩ := serve_reads refusal h s
  rw [after, hr]

theorem commute_of_reads {c d : Cmd} (hc : c.Reads) (hd : d.Reads) :
    Commute (serve refusal) c d := by
  constructor
  · intro s
    rw [after_reads hd]
  · intro s
    rw [after_reads hc]
  · intro s
    rw [after_reads hc, after_reads hd, after_reads hc]

end Client

end GameAcc.Redis
