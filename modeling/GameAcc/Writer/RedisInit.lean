import GameAcc.Mysql.Database
import GameAcc.Redis.Keys

/-!
`redis_init.py`: the program that fills an empty Redis database from MySQL. It
only writes, and no write it makes can be refused, so each of its functions is
the list of the commands it sends, with the loops over query results in the
order of the source.
-/

namespace GameAcc.Writer

open GameAcc.Redis GameAcc.Mysql GameAcc.Text

def initVpnInfo (db : Database) : List Cmd :=
  db.enabledVpnIps.map (fun vpninfo =>
    .hset VPN_ACTIVE_IP_TO_ID_DIC vpninfo.1 (Numeral.decimal vpninfo.2))

def initVpnDetectInfo (db : Database) : List Cmd :=
  db.nodeids.flatMap (fun vpnid =>
    let vpnAvaRttKey := avaRegionKey (Numeral.decimal vpnid)
    let vpnDetectActiveIdKey := activeidKey (Numeral.decimal vpnid)
    db.regionGameids.flatMap (fun gameid =>
      let game := Numeral.decimal gameid
      .hset vpnAvaRttKey (regionRttField game "0") "0" ::
        ((db.regionids gameid).insertionSort (· ≤ ·)).flatMap (fun regionid =>
          let region := Numeral.decimal regionid
          [.hset vpnAvaRttKey (regionRttField game region) "0",
           .hset vpnAvaRttKey (regionRttCntField game region) "0",
           .hset vpnDetectActiveIdKey (activeidField game region) "-1"])))

/-- The text of a region's static list. -/
def iplststr (db : Database) (gameid regionid : Int) : String :=
  (String.singleton ',').intercalate ((db.addresses gameid regionid).map Address.text)

/-- What `region0_iplststr` holds after the loop over the regions. -/
def region0Iplststr (db : Database) (gameid : Int) : String :=
  strip ',' ((db.regionids gameid).foldl
    (fun acc regionid => acc ++ iplststr db gameid regionid ++ String.singleton ',') "")

def initIplstActiveid : String := "0"

def initRegionIplst (db : Database) (gameid regionid : Int) : List Cmd :=
  let game := Numeral.decimal gameid
  let region := Numeral.decimal regionid
  [.sadd (gameRegionKey game) region,
   .hset (gameIplstKey game) (gameIplstKeyField region initIplstActiveid)
     (iplststr db gameid regionid),
   .hset (gameIplstActiveidKey game) (gameIplstActiveidKeyField region)
     initIplstActiveid]

def initGameIplst (db : Database) (row : GameName) : List Cmd :=
  let game := Numeral.decimal row.gameId
  (if row.adminEnable = 1 then [.sadd ACTIVE_GAMEID_SET game] else []) ++
    (db.regionids row.gameId).flatMap (initRegionIplst db row.gameId) ++
    [.hset (gameIplstKey game) (gameIplstKeyField "0" initIplstActiveid)
       (region0Iplststr db row.gameId),
     .hset (gameIplstActiveidKey game) (gameIplstActiveidKeyField "0")
       initIplstActiveid]

def initGameRegionIplst (db : Database) : List Cmd :=
  (db.gameNameTbl.insertionSort (fun a b => a.gameId ≤ b.gameId)).flatMap
    (initGameIplst db)

def initRedisOptions : List Cmd := [.hset GAME_REDIS_OPTIONS "redis_enable" "0"]

def initSpecUserToSpecVpnip (db : Database) : List Cmd :=
  db.gameSpecUserVpnTbl.map (fun info =>
    .hset SPEC_USER_TO_SPEC_VPNIP info.username info.vpnip)

def deleteallkeys : List Cmd := [.flushdb]

/-- The commands of the whole program after the flush. -/
def loadCommands (db : Database) : List Cmd :=
  initRedisOptions ++ initSpecUserToSpecVpnip db ++ initVpnInfo db ++
    initVpnDetectInfo db ++ initGameRegionIplst db

def effect (s : Store) (c : Cmd) : Store :=
  match execute c s with
  | .ok (_, s') => s'
  | .error _ => s

@[simp] theorem effect_hset (s : Store) (key field value : String) :
    effect s (.hset key field value) = s.setHash key field value := rfl

@[simp] theorem effect_sadd (s : Store) (key member : String) :
    effect s (.sadd key member) = s.addMember key member := rfl

def applyAll (commands : List Cmd) (s : Store) : Store :=
  commands.foldl effect s

/-- The store `redis_init` leaves, whatever was there before. -/
def load (db : Database) : Store :=
  applyAll (deleteallkeys ++ loadCommands db) .empty

section LastWrite

def written (key field : String) : Cmd → Option String
  | .hset k f value => if k = key ∧ f = field then some value else none
  | _ => none

/-- The value the commands leave in a field, when they write it at all. -/
def lastWrite (key field : String) : List Cmd → Option String
  | [] => none
  | c :: rest => (lastWrite key field rest).or (written key field c)

variable {key field : String}

theorem written_eq_some {c : Cmd} {value : String} :
    written key field c = some value ↔ c = .hset key field value := by
  constructor
  · intro h
    cases c with
    | hset k f x =>
      simp only [written, Option.ite_none_right_eq_some, Option.some.injEq] at h
      obtain ⟨⟨rfl, rfl⟩, rfl⟩ := h
      rfl
    | _ => cases h
  · rintro rfl
    simp [written]

@[simp] theorem lastWrite_nil : lastWrite key field [] = none := rfl

theorem lastWrite_append (before after : List Cmd) :
    lastWrite key field (before ++ after) =
      (lastWrite key field after).or (lastWrite key field before) := by
  induction before with
  | nil => simp
  | cons c rest ih => simp only [List.cons_append, lastWrite, ih, Option.or_assoc]

theorem hset_mem_of_lastWrite {value : String} {cs : List Cmd}
    (h : lastWrite key field cs = some value) : .hset key field value ∈ cs := by
  induction cs with
  | nil => cases h
  | cons c rest ih =>
    rw [lastWrite, Option.or_eq_some_iff] at h
    rcases h with h | ⟨_, h⟩
    · exact List.mem_cons_of_mem c (ih h)
    · rw [written_eq_some.mp h]
      exact List.mem_cons_self

theorem lastWrite_isSome {value : String} {cs : List Cmd}
    (h : .hset key field value ∈ cs) : (lastWrite key field cs).isSome := by
  induction cs with
  | nil => cases h
  | cons c rest ih =>
    rw [lastWrite, Option.isSome_or]
    rcases List.mem_cons.mp h with heq | hrest
    · simp [written_eq_some.mpr heq.symm]
    · simp [ih hrest]

theorem lastWrite_none {cs : List Cmd}
    (h : ∀ value, .hset key field value ∉ cs) : lastWrite key field cs = none := by
  cases hlast : lastWrite key field cs with
  | none => rfl
  | some value => exact absurd (hset_mem_of_lastWrite hlast) (h value)

/-- A field that is only ever written with one value ends with that value. -/
theorem lastWrite_const {value : String} {cs : List Cmd}
    (hmem : .hset key field value ∈ cs)
    (hall : ∀ x, .hset key field x ∈ cs → x = value) :
    lastWrite key field cs = some value := by
  obtain ⟨x, hx⟩ := Option.isSome_iff_exists.mp (lastWrite_isSome hmem)
  rw [hx, hall x (hset_mem_of_lastWrite hx)]

/-- Blocks that either leave the field alone or end with the same value in it. -/
theorem lastWrite_flatMap {α : Type} {block : α → List Cmd} {value : String}
    {as : List α}
    (hall : ∀ a ∈ as, lastWrite key field (block a) = none ∨
      lastWrite key field (block a) = some value)
    (hsome : ∃ a ∈ as, lastWrite key field (block a) = some value) :
    lastWrite key field (as.flatMap block) = some value := by
  induction as with
  | nil =>
    obtain ⟨a, ha, _⟩ := hsome
    cases ha
  | cons a rest ih =>
    rw [List.flatMap_cons, lastWrite_append]
    by_cases hrest : ∃ b ∈ rest, lastWrite key field (block b) = some value
    · rw [ih (fun b hb => hall b (List.mem_cons_of_mem a hb)) hrest, Option.some_or]
    · have hnone : lastWrite key field (rest.flatMap block) = none := by
        apply lastWrite_none
        intro x hx
        obtain ⟨b, hb, hmem⟩ := List.mem_flatMap.mp hx
        have hwrite := lastWrite_isSome hmem
        rcases hall b (List.mem_cons_of_mem a hb) with h | h
        · simp [h] at hwrite
        · exact hrest ⟨b, hb, h⟩
      obtain ⟨b, hb, hwrite⟩ := hsome
      rcases List.mem_cons.mp hb with rfl | htail
      · rw [hnone, hwrite, Option.none_or]
      · exact absurd ⟨b, htail, hwrite⟩ hrest

end LastWrite

inductive Writes : Cmd → Prop where
  | hset (key field value : String) : Writes (.hset key field value)
  | sadd (key member : String) : Writes (.sadd key member)

section ApplyAll

variable {cs : List Cmd} (hwrites : ∀ c ∈ cs, Writes c) (s : Store)

include hwrites

theorem applyAll_hash (key field : String) :
    (applyAll cs s).hash key field =
      (lastWrite key field cs).or (s.hash key field) := by
  induction cs generalizing s with
  | nil => rfl
  | cons c rest ih =>
    have hrest := fun d hd => hwrites d (List.mem_cons_of_mem c hd)
    have hc := hwrites c List.mem_cons_self
    cases hc with
    | hset k f x =>
      have hstep := ih hrest (s.setHash k f x)
      simp only [applyAll, List.foldl_cons, effect_hset] at hstep ⊢
      rw [hstep, lastWrite, Option.or_assoc]
      congr 1
      by_cases h : k = key ∧ f = field
      · obtain ⟨rfl, rfl⟩ := h
        simp [written]
      · have h' : ¬(key = k ∧ field = f) := by
          rintro ⟨rfl, rfl⟩
          exact h ⟨rfl, rfl⟩
        simp [written, Store.setHash, h, h']
    | sadd k x =>
      have hstep := ih hrest (s.addMember k x)
      simp only [applyAll, List.foldl_cons, effect_sadd] at hstep ⊢
      rw [hstep, lastWrite]
      simp [written]

theorem mem_applyAll_set (key member : String) :
    member ∈ (applyAll cs s).set key ↔
      member ∈ s.set key ∨ .sadd key member ∈ cs := by
  induction cs generalizing s with
  | nil => simp [applyAll]
  | cons c rest ih =>
    have hrest := fun d hd => hwrites d (List.mem_cons_of_mem c hd)
    have hc := hwrites c List.mem_cons_self
    cases hc with
    | hset k f x =>
      have hstep := ih hrest (s.setHash k f x)
      simp only [applyAll, List.foldl_cons, effect_hset] at hstep ⊢
      rw [hstep]
      simp
    | sadd k x =>
      have hstep := ih hrest (s.addMember k x)
      simp only [applyAll, List.foldl_cons, effect_sadd] at hstep ⊢
      rw [hstep]
      by_cases hk : key = k
      · subst hk
        by_cases hx : x ∈ s.set key
        · simp only [Store.addMember, hx, not_true_eq_false, and_false, if_false,
            List.mem_cons, Cmd.sadd.injEq, true_and]
          constructor
          · rintro (h | h)
            · exact .inl h
            · exact .inr (.inr h)
          · rintro (h | rfl | h)
            · exact .inl h
            · exact .inl hx
            · exact .inr h
        · simp [Store.addMember, hx, or_assoc]
      · simp [Store.addMember, hk]

end ApplyAll

end GameAcc.Writer
