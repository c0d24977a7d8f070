import GameAcc.Agent.DetectGameLst

/-!
`detectagent.py`: the measurements of a round. The workers of a region see the
dictionary as it was before the region. An address that is in it is answered
from its record, so it is measured in one region and every later region reports
the same results under its own port and mask.
-/

namespace GameAcc.Agent

open GameAcc.Text GameAcc.Lua.DetectGameRegion

/-- What a call of `detectregion` meets: the list the controller answers with
(none when it cannot be had), the results of the commands of each worker, the
order the workers finish in and whether the report goes out. -/
structure Answer where
  iplist : Option String
  measures : Nat → String → Outcome
  queue : List (String × String) → List (String × String)
  order : ∀ puts, (queue puts).Perm puts
  regionreport : Bool

section Region

variable (info : LocalVpnInfo) (known : Dict) (answer : Answer) (regionid : String)

def getdetectvalue (iplist : String) : Dict :=
  if (Numeral.readInt (Numeral.trim regionid.toList)).isSome then
    merge (answer.queue (puts info known answer.measures (split ',' iplist)))
  else
    ∅

/-- The dictionary a region reports the values of, unless it is empty. -/
def resultdict : Dict :=
  match answer.iplist with
  | some iplist => getdetectvalue info known answer regionid iplist
  | none => ∅

def detectregion : Dict :=
  if answer.regionreport then resultdict info known answer regionid else ∅

/-- The commands the workers for a list run, each with its address. -/
def commands (measures : Nat → String → Outcome) (iplst : List String) :
    List (String × String) :=
  iplst.zipIdx.flatMap (fun task =>
    match split '/' task.1 with
    | [ip, port, _] =>
      (detect info known (measures task.2) ip port).cmds.map (fun cmd => (ip, cmd))
    | _ => [])

def Answer.commands : List (String × String) :=
  match answer.iplist with
  | some iplist => Agent.commands info known answer.measures (split ',' iplist)
  | none => []

theorem getDetectValue_getdetectvalue (iplist : String) :
    GetDetectValue info known regionid iplist
      (getdetectvalue info known answer regionid iplist) := by
  unfold getdetectvalue
  split
  · next hlogged => exact .finished (answer.order _) hlogged
  · next hraised => exact .raised (Option.not_isSome_iff_eq_none.mp hraised)

end Region

section Known

variable {info : LocalVpnInfo} {known : Dict} {answer : Answer} {regionid : String}

/-- Two records with the same time and the same loss. -/
def SameResults (record record' : String) : Prop :=
  (split '/' record).drop 3 = (split '/' record').drop 3

/-- The measured address is answered from its record. -/
theorem IsRecord.reuse {ip record : String} {ava loss : Int}
    (h : IsRecord ip record ava loss) : Detection.reuse record =
      ⟨[], .text (Numeral.decimal ava), .text (Numeral.decimal loss)⟩ := by
  obtain ⟨port, mask, hparts⟩ := h.parts
  simp only [Detection.reuse, hparts]

/-- Neither command is run for an address that has a record, also when the
record says that it could not be reached. -/
theorem detect_known {ip record : String} {ava loss : Int} (hlookup : known.lookup ip = some record)
    (h : IsRecord ip record ava loss) (measure : String → Outcome) (port : String) :
    detect info known measure ip port =
      ⟨[], .text (Numeral.decimal ava), .text (Numeral.decimal loss)⟩ := by
  have hfirst : dopingdetect info known measure ip =
      ⟨[], .text (Numeral.decimal ava), .text (Numeral.decimal loss)⟩ := by
    rw [dopingdetect, hlookup]
    exact h.reuse
  have hmeasured : ¬((dopingdetect info known measure ip).ava = .number AVA_INF ∧
      (dopingdetect info known measure ip).loss = .number LOSS_INF) := by
    rw [hfirst]
    rintro ⟨have', _⟩
    cases have'
  rw [detect, if_neg hmeasured, hfirst]

theorem commands_known (hknown : Recorded known) {ip record : String}
    (hlookup : known.lookup ip = some record) (measures : Nat → String → Outcome)
    (iplst : List String) (cmd : String) : (ip, cmd) ∉ commands info known measures iplst := by
  intro hmem
  obtain ⟨⟨ipstr, i⟩, _, htask⟩ := List.mem_flatMap.mp hmem
  obtain ⟨ava, loss, hrecord⟩ := hknown ip record hlookup
  revert htask
  dsimp only
  split
  · next ip' port mask _ =>
    intro htask
    obtain ⟨cmd', hcmd, hpair⟩ := List.mem_map.mp htask
    obtain rfl : ip' = ip := congrArg Prod.fst hpair
    rw [detect_known hlookup hrecord] at hcmd
    cases hcmd
  · intro htask
    cases htask

/-- What a worker puts for an address that has a record has the results of this
record. -/
theorem dodetect_known (hknown : Recorded known) {measure : String → Outcome}
    {ipstr ip record record' : String} (hlookup : known.lookup ip = some record)
    (hput : dodetect info known measure ipstr = some (ip, record')) :
    SameResults record record' := by
  obtain ⟨ava, loss, hrecord⟩ := hknown ip record hlookup
  obtain ⟨port, mask, hparts⟩ := hrecord.parts
  unfold dodetect at hput
  split at hput
  · next ip' port' mask' hsplit =>
    obtain ⟨rfl, rfl⟩ := Prod.mk.inj (Option.some.inj hput)
    have hput : split '/' (ipstr ++ "/" ++ (detect info known measure ip' port').ava.str ++ "/" ++
        (detect info known measure ip' port').loss.str) =
          [ip', port', mask', Numeral.decimal ava, Numeral.decimal loss] := by
      rw [detect_known hlookup hrecord]
      exact split_record hsplit ava loss
    rw [SameResults, hparts, hput]
    rfl
  · cases hput

theorem mem_puts_of_lookup {iplist ip record : String}
    (h : (getdetectvalue info known answer regionid iplist).lookup ip = some record) :
    ∃ task ∈ (split ',' iplist).zipIdx,
      dodetect info known (answer.measures task.2) task.1 = some (ip, record) := by
  unfold getdetectvalue at h
  split at h
  · have hput := (answer.order _).mem_iff.mp (put_of_lookup_merge h)
    exact List.mem_filterMap.mp hput
  · cases h

/-- Every record a region has of a known address has the known results. -/
theorem resultdict_known (hknown : Recorded known) {ip record record' : String}
    (hlookup : known.lookup ip = some record)
    (h : (resultdict info known answer regionid).lookup ip = some record') :
    SameResults record record' := by
  unfold resultdict at h
  split at h
  · obtain ⟨task, _, hput⟩ := mem_puts_of_lookup h
    exact dodetect_known hknown hlookup hput
  · cases h

theorem Recorded.resultdict (hknown : Recorded known) (answer : Answer) (regionid : String) :
    Recorded (resultdict info known answer regionid) := by
  unfold Agent.resultdict
  split
  · exact hknown.getDetectValue (getDetectValue_getdetectvalue info known answer regionid _)
  · exact Recorded.empty

theorem Recorded.detectregion (hknown : Recorded known) (answer : Answer) (regionid : String) :
    Recorded (detectregion info known answer regionid) := by
  unfold Agent.detectregion
  split
  · exact hknown.resultdict answer regionid
  · exact Recorded.empty

/-- A region that has anything to report has a record of every address of its
list. -/
theorem mem_resultdict {iplist ipstr ip port mask : String} (hiplist : answer.iplist = some iplist)
    (hipstr : ipstr ∈ split ',' iplist) (hsplit : split '/' ipstr = [ip, port, mask])
    (hne : (resultdict info known answer regionid).entries ≠ []) :
    ip ∈ resultdict info known answer regionid := by
  simp only [resultdict, hiplist, getdetectvalue] at hne ⊢
  split at hne
  · next hlogged =>
    rw [if_pos hlogged]
    obtain ⟨i, hi⟩ := List.mem_iff_getElem?.mp hipstr
    let detection := detect info known (answer.measures i) ip port
    have hput : dodetect info known (answer.measures i) ipstr =
        some (ip, ipstr ++ "/" ++ detection.ava.str ++ "/" ++ detection.loss.str) := by
      simp only [dodetect, hsplit, detection]
    apply mem_merge.mpr
    refine ⟨_, (answer.order _).mem_iff.mpr (List.mem_filterMap.mpr ⟨(ipstr, i), ?_, hput⟩)⟩
    exact List.mem_zipIdx_iff_getElem?.mpr hi
  · exact absurd rfl hne

end Known

section Round

/-- Every address of the earlier dictionary has a record with the same results
in the later one. -/
def Kept (known known' : Dict) : Prop :=
  ∀ ip record, known.lookup ip = some record →
    ∃ record', known'.lookup ip = some record' ∧ SameResults record record'

theorem Kept.refl (known : Dict) : Kept known known :=
  fun _ record hlookup => ⟨record, hlookup, rfl⟩

theorem Kept.trans {known known' known'' : Dict} (h : Kept known known')
    (h' : Kept known' known'') : Kept known known'' := by
  intro ip record hlookup
  obtain ⟨record', hlookup', hsame⟩ := h ip record hlookup
  obtain ⟨record'', hlookup'', hsame'⟩ := h' ip record' hlookup'
  exact ⟨record'', hlookup'', hsame.trans hsame'⟩

variable (info : LocalVpnInfo) (answers : List (Int × String) → Answer)

/-- A call within a round: the dictionary is the round's, and what the call
meets may depend on all that was called before. -/
def callRegion (round : Round) (_gameid : Int) (regionid : String) : Dict :=
  detectregion info round.ipDetectData (answers round.calls) regionid

variable {info answers}

theorem detectPair_ipDetectData (round : Round) (gameid : Int) (regionid : String) :
    (detectPair (callRegion info answers) gameid round regionid).ipDetectData =
      round.ipDetectData.update (callRegion info answers round gameid regionid) := by
  simp only [detectPair]
  split
  · next hempty =>
    have hdict : callRegion info answers round gameid regionid = ∅ := AList.ext hempty
    rw [hdict, Dict.update, AList.empty_union]
  · rfl

/-- One call keeps the records well formed. -/
theorem Recorded.detectPair {round : Round} (h : Recorded round.ipDetectData) (gameid : Int)
    (regionid : String) :
    Recorded (Agent.detectPair (callRegion info answers) gameid round regionid).ipDetectData := by
  rw [detectPair_ipDetectData]
  exact h.update (h.detectregion (answers round.calls) regionid)

/-- One call keeps the results of every address. -/
theorem Recorded.kept_detectPair {round : Round} (h : Recorded round.ipDetectData) (gameid : Int)
    (regionid : String) :
    Kept round.ipDetectData
      (Agent.detectPair (callRegion info answers) gameid round regionid).ipDetectData := by
  intro ip record hlookup
  rw [detectPair_ipDetectData, Dict.update]
  cases hresult : (callRegion info answers round gameid regionid).lookup ip with
  | none =>
    refine ⟨record, AList.mem_lookup_union.mpr (.inr ⟨?_, hlookup⟩), rfl⟩
    exact AList.lookup_eq_none.mp hresult
  | some record' =>
    refine ⟨record', AList.mem_lookup_union.mpr (.inl hresult), ?_⟩
    unfold callRegion Agent.detectregion at hresult
    split at hresult
    · exact resultdict_known h hlookup hresult
    · cases hresult

theorem Recorded.detectPairs {round : Round} (h : Recorded round.ipDetectData)
    (pairs : List (Int × String)) :
    Recorded (Agent.detectPairs (callRegion info answers) pairs round).ipDetectData ∧
      Kept round.ipDetectData
        (Agent.detectPairs (callRegion info answers) pairs round).ipDetectData := by
  induction pairs generalizing round with
  | nil => exact ⟨h, Kept.refl _⟩
  | cons pair rest ih =>
    obtain ⟨hrecorded, hkept⟩ := ih (h.detectPair pair.1 pair.2)
    exact ⟨hrecorded, (h.kept_detectPair pair.1 pair.2).trans hkept⟩

/-- A call for which an address has been measured before, with the record it
got: no command is run for the address, and the call reports its results. An
entry that has not three parts puts nothing. -/
structure Reuses (info : LocalVpnInfo) (known : Dict) (answer : Answer) (regionid : String)
    (ip record : String) : Prop where
  commands : ∀ cmd, (ip, cmd) ∉ answer.commands info known
  results : ∀ record', (resultdict info known answer regionid).lookup ip = some record' →
    SameResults record record'
  reported : ∀ iplist ipstr port mask, answer.iplist = some iplist →
    ipstr ∈ split ',' iplist → split '/' ipstr = [ip, port, mask] →
      (resultdict info known answer regionid).entries ≠ [] →
        ip ∈ resultdict info known answer regionid

theorem reuses_of_lookup {known : Dict} (hknown : Recorded known) {ip record : String}
    (hlookup : known.lookup ip = some record) (answer : Answer) (regionid : String) :
    Reuses info known answer regionid ip record := by
  refine ⟨?_, fun record' => resultdict_known hknown hlookup, ?_⟩
  · intro cmd
    unfold Answer.commands
    split
    · exact commands_known hknown hlookup _ _ cmd
    · exact List.not_mem_nil
  · intro iplist ipstr port mask hiplist hipstr hsplit
    exact mem_resultdict hiplist hipstr hsplit

theorem Reuses.congr {known : Dict} {answer : Answer} {regionid ip record record' : String}
    (h : Reuses info known answer regionid ip record') (hsame : SameResults record record') :
    Reuses info known answer regionid ip record :=
  ⟨h.commands, fun record'' hlookup => hsame.trans (h.results record'' hlookup), h.reported⟩

/-- In a round over any games and regions and whatever its calls meet: every
record of the dictionary has five parts at all times, and when a call has
returned a record of an address, every later call of the round uses the results
of this record. -/
theorem one_measurement (info : LocalVpnInfo) (answers : List (Int × String) → Answer)
    (gamelst : List DetectGame) :
    (∀ calls, calls <+: (detectgamelst (callRegion info answers) gamelst).calls →
      ∀ ip record,
        (detectPairs (callRegion info answers) calls .start).ipDetectData.lookup ip =
          some record → (split '/' record).length = 5) ∧
      ∀ before first between later after,
        (detectgamelst (callRegion info answers) gamelst).calls =
          before ++ first :: between ++ later :: after →
        ∀ ip record,
          (callRegion info answers (detectPairs (callRegion info answers) before .start)
            first.1 first.2).lookup ip = some record →
          Reuses info
            (detectPairs (callRegion info answers) (before ++ first :: between) .start).ipDetectData
            (answers (before ++ first :: between)) later.2 ip record := by
  have hstart : Recorded Round.start.ipDetectData := Recorded.empty
  constructor
  · intro calls _ ip record hlookup
    obtain ⟨ava, loss, hrecord⟩ := (hstart.detectPairs calls).1 ip record hlookup
    obtain ⟨port, mask, hparts⟩ := hrecord.parts
    rw [hparts]
    rfl
  · intro before first between later after _ ip record hlookup
    let round := detectPairs (callRegion info answers) before .start
    have hround : Recorded round.ipDetectData := (hstart.detectPairs before).1
    have hfirst : (detectPair (callRegion info answers) first.1 round
        first.2).ipDetectData.lookup ip = some record := by
      rw [detectPair_ipDetectData]
      exact AList.mem_lookup_union.mpr (.inl hlookup)
    have hbetween : detectPairs (callRegion info answers) (before ++ first :: between) .start =
        detectPairs (callRegion info answers) between
          (detectPair (callRegion info answers) first.1 round first.2) := by
      simp only [detectPairs, List.foldl_append, List.foldl_cons, round]
    obtain ⟨hrecorded, hkept⟩ := (hround.detectPair first.1 first.2).detectPairs between
    rw [hbetween]
    obtain ⟨record', hlookup', hsame⟩ := hkept ip record hfirst
    exact (reuses_of_lookup hrecorded hlookup' _ _).congr hsame

end Round

section Example

/-- A node whose pings and hpings reach 10.0.0.2 only. The second call of a
round finds no list. -/
def reachesOne : List (Int × String) → Answer := fun calls =>
  { iplist :=
      match calls with
      | [] => some "10.0.0.2/80/32,10.0.0.3/443/32"
      | [_] => none
      | _ => some "10.0.0.3/80/24,10.0.0.2"
    measures := fun _ cmd =>
      if cmd = "ping -c 5 -W 2 10.0.0.2" then ⟨40, 0, Rounding.isDouble_small (by decide)⟩
      else ⟨AVA_INF, 100, isDouble_AVA_INF⟩
    queue := id
    order := fun puts => List.Perm.refl puts
    regionreport := true }

def oneNode : LocalVpnInfo := ⟨some ["10.0.0.9"], some ["eth0"]⟩

def twoGames : List DetectGame := [⟨5, "1"⟩, ⟨7, "1,2"⟩]

/-- An address that was not reached is not tried again. -/
theorem one_measurement_unreached :
    Reuses oneNode
      (detectPairs (callRegion oneNode reachesOne) [(5, "1"), (7, "1")] .start).ipDetectData
      (reachesOne [(5, "1"), (7, "1")]) "2" "10.0.0.3" "10.0.0.3/443/32/99999/100" :=
  (one_measurement oneNode reachesOne twoGames).2 [] (5, "1") [(7, "1")] (7, "2") []
    (by decide +kernel) "10.0.0.3" "10.0.0.3/443/32/99999/100" (by decide +kernel)

end Example

end GameAcc.Agent
