import GameAcc.Agent.Ping
import Mathlib.Data.List.AList

/-!
`detectagent.py`: the measurement of a list of addresses. One worker takes each
entry `ip/port/mask`, pings the address unless an earlier region of the round
has measured it, and hands its result over in a dictionary of one entry. The
dictionaries are merged; they are keyed by the address without its port.
-/

namespace GameAcc.Agent

open GameAcc.Text

def LOSS_INF : Int := 100

/-- A dictionary from addresses to records. -/
abbrev Dict : Type := AList (fun _ : String => String)

namespace Dict

/-- `self.update(other)`. -/
def update (self other : Dict) : Dict := other ∪ self

/-- `self.values()` lists the records in no particular order. -/
def IsValues (self : Dict) (values : List String) : Prop :=
  values.Perm (self.entries.map (fun entry => entry.2))

end Dict

structure LocalVpnInfo where
  multiDetectIplst : Option (List String)
  multiDetectIfacelst : Option (List String)

/-- What `get_ping_ava_loss` returns. The average is an integer made of a float. -/
structure Outcome where
  ava : Int
  loss : Int
  ava_double : Rounding.isDouble ava = true
  deriving DecidableEq

/-- The two results of a detection are numbers when they were measured, and
texts when they were taken out of an earlier record. -/
inductive Result where
  | number (n : Int)
  | text (s : String)
  deriving DecidableEq

def Result.str : Result → String
  | .number n => Numeral.decimal n
  | .text s => s

/-- The commands a detection runs, and its two results. -/
structure Detection where
  cmds : List String
  ava : Result
  loss : Result

namespace Detection

/-- The results a detection starts with. -/
def unknown : Detection := ⟨[], .number AVA_INF, .number LOSS_INF⟩

/-- The results of an earlier record. A missing part ends the detection with
what it has. -/
def reuse (record : String) : Detection :=
  match split '/' record with
  | _ :: _ :: _ :: ava :: loss :: _ => ⟨[], .text ava, .text loss⟩
  | [_, _, _, ava] => { unknown with ava := .text ava }
  | _ => unknown

def measured (cmd : String) (outcome : Outcome) : Detection :=
  ⟨[cmd], .number outcome.ava, .number outcome.loss⟩

end Detection

section Worker

variable (info : LocalVpnInfo) (known : Dict) (measure : String → Outcome)

def dopingdetect (ip : String) : Detection :=
  match known.lookup ip with
  | some record => .reuse record
  | none =>
    -- a missing list raises, which has the same results as an empty one
    if 1 ≤ (info.multiDetectIplst.getD []).length then
      let cmd := "ping -c 5 -W 2 " ++ ip
      .measured cmd (measure cmd)
    else
      .unknown

def dohpingdetect (ip port : String) : Detection :=
  match known.lookup ip with
  | some record => .reuse record
  | none =>
    if 1 ≤ (info.multiDetectIfacelst.getD []).length then
      let cmd := "hping3 -c 5 -S -p " ++ port ++ " " ++ ip
      .measured cmd (measure cmd)
    else
      .unknown

/-- Both detections, the second only when the first found nothing. -/
def detect (ip port : String) : Detection :=
  let first := dopingdetect info known measure ip
  if first.ava = .number AVA_INF ∧ first.loss = .number LOSS_INF then
    let second := dohpingdetect info known measure ip port
    { second with cmds := first.cmds ++ second.cmds }
  else
    first

/-- What a worker puts into the queue. An entry that has not three parts is
answered with a name that is not bound, so its worker puts nothing. -/
def dodetect (ipstr : String) : Option (String × String) :=
  match split '/' ipstr with
  | [ip, port, _] =>
    let detection := detect info known measure ip port
    some (ip, ipstr ++ "/" ++ detection.ava.str ++ "/" ++ detection.loss.str)
  | _ => none

end Worker

section Pool

variable (info : LocalVpnInfo) (known : Dict)

/-- What the workers for a list put into the queue, each with its own results
of the commands. -/
def puts (measures : Nat → String → Outcome) (iplst : List String) : List (String × String) :=
  iplst.zipIdx.filterMap (fun task => dodetect info known (measures task.2) task.1)

/-- The queue, emptied into the dictionary. -/
def merge (queue : List (String × String)) : Dict :=
  queue.foldl (fun resultdict put => resultdict.update (AList.singleton put.1 put.2)) ∅

/-- `getdetectvalue`, when all workers finish: in any order. The last message of
the log converts the region's id. -/
inductive GetDetectValue (regionid iplist : String) : Dict → Prop where
  | finished {measures : Nat → String → Outcome} {queue : List (String × String)}
      (order : queue.Perm (puts info known measures (split ',' iplist)))
      (logged : (Numeral.readInt (Numeral.trim regionid.toList)).isSome) :
      GetDetectValue regionid iplist (merge queue)
  | raised (h : Numeral.readInt (Numeral.trim regionid.toList) = none) :
      GetDetectValue regionid iplist ∅

theorem merge_snoc (queue : List (String × String)) (put : String × String) :
    merge (queue ++ [put]) = AList.singleton put.1 put.2 ∪ merge queue := by
  rw [merge, List.foldl_append]
  rfl

theorem mem_merge {queue : List (String × String)} {ip : String} :
    ip ∈ merge queue ↔ ∃ record, (ip, record) ∈ queue := by
  induction queue using List.reverseRecOn with
  | nil => simp [merge]
  | append_singleton queue put ih =>
    rw [merge_snoc, AList.mem_union, ih, AList.mem_keys, AList.keys_singleton,
      List.mem_singleton]
    constructor
    · rintro (rfl | ⟨record, hrecord⟩)
      · exact ⟨put.2, by simp⟩
      · exact ⟨record, List.mem_append_left _ hrecord⟩
    · rintro ⟨record, hrecord⟩
      rcases List.mem_append.mp hrecord with hold | hnew
      · exact .inr ⟨record, hold⟩
      · exact .inl (congrArg Prod.fst (List.mem_singleton.mp hnew))

/-- A record of the dictionary was put into the queue under its key. -/
theorem put_of_lookup_merge {queue : List (String × String)} {ip record : String}
    (h : (merge queue).lookup ip = some record) : (ip, record) ∈ queue := by
  induction queue using List.reverseRecOn with
  | nil => cases h
  | append_singleton queue put ih =>
    rw [merge_snoc] at h
    rcases AList.mem_lookup_union.mp h with hnew | ⟨_, hold⟩
    · have hentry := AList.mem_lookup_iff.mp hnew
      obtain ⟨rfl, hput⟩ := Sigma.mk.inj (List.mem_singleton.mp hentry)
      rw [eq_of_heq hput]
      simp
    · exact List.mem_append_left _ (ih hold)

end Pool

section Recorded

/-- A record with integer results. The keys of a dictionary are the addresses of
its records. -/
structure IsRecord (ip record : String) (ava loss : Int) : Prop where
  double : Rounding.isDouble ava = true
  parts : ∃ port mask, split '/' record =
    [ip, port, mask, Numeral.decimal ava, Numeral.decimal loss]

/-- All values are records of their keys. -/
def Recorded (known : Dict) : Prop :=
  ∀ ip record, known.lookup ip = some record → ∃ ava loss, IsRecord ip record ava loss

variable {info : LocalVpnInfo} {known : Dict} {measure : String → Outcome}

/-- Both results are written as integers. -/
def Detection.Integral (detection : Detection) : Prop :=
  ∃ ava loss : Int, Rounding.isDouble ava = true ∧
    detection.ava.str = Numeral.decimal ava ∧ detection.loss.str = Numeral.decimal loss

theorem Detection.integral_unknown : Detection.unknown.Integral :=
  ⟨AVA_INF, LOSS_INF, isDouble_AVA_INF, rfl, rfl⟩

theorem Detection.integral_measured (cmd : String) (outcome : Outcome) :
    (Detection.measured cmd outcome).Integral :=
  ⟨outcome.ava, outcome.loss, outcome.ava_double, rfl, rfl⟩

theorem IsRecord.integral_reuse {ip record : String} {ava loss : Int}
    (h : IsRecord ip record ava loss) : (Detection.reuse record).Integral := by
  obtain ⟨port, mask, hparts⟩ := h.parts
  refine ⟨ava, loss, h.double, ?_⟩
  simp only [Detection.reuse, hparts, Result.str, and_self]

theorem Recorded.dopingdetect (h : Recorded known) (ip : String) :
    (dopingdetect info known measure ip).Integral := by
  unfold Agent.dopingdetect
  split
  · next record hlookup =>
    obtain ⟨ava, loss, hrecord⟩ := h ip record hlookup
    exact hrecord.integral_reuse
  · split
    · exact Detection.integral_measured _ _
    · exact Detection.integral_unknown

theorem Recorded.dohpingdetect (h : Recorded known) (ip port : String) :
    (dohpingdetect info known measure ip port).Integral := by
  unfold Agent.dohpingdetect
  split
  · next record hlookup =>
    obtain ⟨ava, loss, hrecord⟩ := h ip record hlookup
    exact hrecord.integral_reuse
  · split
    · exact Detection.integral_measured _ _
    · exact Detection.integral_unknown

theorem Recorded.detect (h : Recorded known) (ip port : String) :
    (detect info known measure ip port).Integral := by
  simp only [Agent.detect]
  split
  · exact h.dohpingdetect ip port
  · exact h.dopingdetect ip

/-- The parts of a worker's record: those of its entry, and the results. -/
theorem split_record {ipstr ip port mask : String} (hsplit : split '/' ipstr = [ip, port, mask])
    (ava loss : Int) :
    split '/' (ipstr ++ "/" ++ Numeral.decimal ava ++ "/" ++ Numeral.decimal loss) =
      [ip, port, mask, Numeral.decimal ava, Numeral.decimal loss] := by
  have hfree : ∀ n : Int, Free '/' (Numeral.decimal n) :=
    fun n => free_decimal n (by decide) (by decide)
  have htext : ipstr ++ "/" ++ Numeral.decimal ava ++ "/" ++ Numeral.decimal loss =
      ipstr ++ String.singleton '/' ++ Numeral.decimal ava ++ String.singleton '/' ++
        Numeral.decimal loss := rfl
  rw [htext, split_append, split_append, hsplit, split_free (hfree ava),
    split_free (hfree loss)]
  rfl

/-- What a worker puts is a record of the address it was put under. -/
theorem Recorded.dodetect (h : Recorded known) {ipstr : String} {put : String × String}
    (hput : dodetect info known measure ipstr = some put) :
    ∃ ava loss, IsRecord put.1 put.2 ava loss := by
  unfold Agent.dodetect at hput
  split at hput
  · next ip port mask hsplit =>
    obtain rfl := Option.some.inj hput
    have hintegral : (Agent.detect info known measure ip port).Integral := h.detect ip port
    obtain ⟨ava, loss, hdouble, hava, hloss⟩ := hintegral
    refine ⟨ava, loss, hdouble, port, mask, ?_⟩
    rw [hava, hloss]
    exact split_record hsplit ava loss
  · cases hput

theorem Recorded.empty : Recorded ∅ := by
  intro ip record h
  cases h

theorem Recorded.update {result : Dict} (hknown : Recorded known) (hresult : Recorded result) :
    Recorded (known.update result) := by
  intro ip record hlookup
  rcases AList.mem_lookup_union.mp hlookup with hnew | ⟨_, hold⟩
  · exact hresult ip record hnew
  · exact hknown ip record hold

/-- The dictionary of a region has records only, whatever list was measured. -/
theorem Recorded.getDetectValue (h : Recorded known) {regionid iplist : String}
    {result : Dict} (hresult : GetDetectValue info known regionid iplist result) :
    Recorded result := by
  cases hresult with
  | raised _ => exact Recorded.empty
  | finished order _ =>
    intro ip record hlookup
    have hput := order.mem_iff.mp (put_of_lookup_merge hlookup)
    obtain ⟨task, _, htask⟩ := List.mem_filterMap.mp hput
    exact h.dodetect htask

/-- The dictionaries `ip_detect_data` can be in a round. A region adds its
results or, when it fails, nothing. -/
inductive Reached (info : LocalVpnInfo) : Dict → Prop where
  | start : Reached info ∅
  | region {known result : Dict} {regionid iplist : String} (h : Reached info known)
      (hresult : GetDetectValue info known regionid iplist result) :
      Reached info (known.update result)

theorem Reached.recorded (h : Reached info known) : Recorded known := by
  induction h with
  | start => exact Recorded.empty
  | region _ hresult ih => exact ih.update (ih.getDetectValue hresult)

end Recorded

end GameAcc.Agent
