import GameAcc.Lua.GameListPortText
import GameAcc.Writer.Failure
import GameAcc.Writer.LastReport

/-!
One writer and one reader on the same store, command by command. The writer
takes reports one after the other and may leave a call at any command; the
reader runs one request. Every command is atomic, and the two interleave in any
order.

`published` is a history variable: the last report of a triple whose write of
the activeid has been executed.
-/

namespace GameAcc.Interleaving

open GameAcc.Redis GameAcc.Mysql GameAcc.Command GameAcc.Writer GameAcc.Lua
open GameAcc.Lua.GameListPortText

/-- The command writes this field of this hash. -/
def Sets (key field : String) : Cmd → Bool
  | .hset k f _ => k = key && f = field
  | _ => false

/-- A report is published by the write of its triple's activeid. -/
def note (report : Report) (c : Cmd) (published : LastReports) : LastReports :=
  fun vpnid gameid regionid =>
    if triple report = some (vpnid, gameid, regionid) ∧
        Sets (activeidKey vpnid) (activeidField gameid regionid) c then some report
    else published vpnid gameid regionid

structure World where
  store : Store
  progress : Progress
  writer : Option (Report × Dealing Exit)
  reader : Handler Value
  published : LastReports

inductive Event where
  | start (report : Report)
  | command (report : Report) (c : Cmd)
  | leave
  | read (c : Cmd)

def Event.IsRead : Event → Prop
  | .read _ => True
  | _ => False

/-- The writer publishes a report for the triple and later deletes one of its
buffers for another report. -/
def PublishesThenDeletes (vpnid gameid regionid : String) (events : List Event) : Prop :=
  ∃ before report value rest,
    events = before ++ .command report
      (.hset (activeidKey vpnid) (activeidField gameid regionid) value) :: rest ∧
    ∃ report' activeid, IsBufferId activeid ∧
      Event.command report' (.del (detectDataKey vpnid gameid regionid activeid)) ∈ rest

namespace World

/-- The state `redis_init` leaves, with a request that has not started yet. -/
def initial (db : Database) (self : Self) (svpninfo : SvpnInfo) : World where
  store := load db
  progress := .start
  writer := none
  reader := getGameIpListBySvpnInfo self svpninfo
  published := fun _ _ _ => none

inductive Step : World → Event → World → Prop
  | start (w : World) (report : Report) (hidle : w.writer = none) :
      Step w (.start report)
        { w with writer := some (report, dealReport report), progress := .start }
  | command (w : World) {report : Report} {c : Cmd} {next : c.Reply → Dealing Exit}
      {r : c.Reply} {s' : Store} {progress' : Progress}
      (hwriter : w.writer = some (report, .issue c next))
      (hexec : watched c (w.store, w.progress) = .ok (r, (s', progress'))) :
      Step w (.command report c)
        { w with
          store := s'
          progress := progress'
          writer := some (report, next r)
          published := note report c w.published }
  | leave (w : World) {report : Report} {p : Dealing Exit}
      (hwriter : w.writer = some (report, p)) : Step w .leave { w with writer := none }
  | read (w : World) {c : Cmd} {next : c.Reply → Handler Value} {r : c.Reply} {s' : Store}
      (hreader : w.reader = .issue c next) (hexec : Lua.redis c w.store = .ok (r, s')) :
      Step w (.read c) { w with store := s', reader := next r }

inductive Run : World → List Event → World → Prop
  | nil (w : World) : Run w [] w
  | cons {w w' w'' : World} {e : Event} {events : List Event}
      (hstep : Step w e w') (hrest : Run w' events w'') : Run w (e :: events) w''

/-- Every command the reader has still to issue reads, and the running call is
at a point that `dealReport_holds` describes. -/
structure Valid (db : Database) (w : World) : Prop where
  sound : Sound db w.store
  reader : Only Cmd.Reads w.reader
  writer : ∀ report p, w.writer = some (report, p) →
    ∃ s, Sound db s ∧ Holds watched (conditions report s) p (w.store, w.progress)

end World

namespace World

variable {db : Database}

theorem valid_initial (self : Self) (svpninfo : SvpnInfo) :
    Valid db (initial db self svpninfo) where
  sound := Sound.load db
  reader := only_getGameIpListBySvpnInfo self svpninfo
  writer := by
    intro report p h
    cases h

/-- A point of a call is sound when the store the call found was. -/
theorem sound_of_holds {report : Report} {s s' : Store} {progress : Progress}
    {p : Dealing Exit} (hs : Sound db s)
    (h : Holds watched (conditions report s) p (s', progress)) : Sound db s' := by
  cases p with
  | done exit =>
    cases h with
    | skipped _ => exact hs
    | published d _ => exact hs.published d _
  | stop e =>
    obtain ⟨hstopped, _⟩ := h
    cases hstopped with
    | untouched => exact hs
    | unfinished d z => exact hs.store d z
  | issue c next => exact hs.pending (holds_issue.mp h).1

theorem read_store {c : Cmd} (hreads : c.Reads) {s s' : Store} {r : c.Reply}
    (hexec : Lua.redis c s = .ok (r, s')) : s' = s := by
  obtain ⟨r', hr'⟩ := serve_reads Stop.error hreads s
  have heq := Except.ok.inj (hr'.symm.trans hexec)
  exact (Prod.mk.inj heq).2.symm

theorem Valid.step {w w' : World} {e : Event} (h : Valid db w) (hstep : Step w e w') :
    Valid db w' := by
  cases hstep with
  | start report hidle =>
    refine ⟨h.sound, h.reader, ?_⟩
    intro report' p hwriter
    obtain ⟨rfl, rfl⟩ := Prod.mk.inj (Option.some.inj hwriter)
    exact ⟨w.store, h.sound, dealReport_holds report w.store⟩
  | @command report c next r s' progress' hwriter hexec =>
    obtain ⟨s, hs, hholds⟩ := h.writer _ _ hwriter
    have hnext : Holds watched (conditions report s) (next r) (s', progress') := by
      have hrest := (holds_issue.mp hholds).2
      simpa only [hexec] using hrest
    refine ⟨sound_of_holds hs hnext, h.reader, ?_⟩
    intro report' p hwriter'
    obtain ⟨rfl, rfl⟩ := Prod.mk.inj (Option.some.inj hwriter')
    exact ⟨s, hs, hnext⟩
  | leave hwriter =>
    refine ⟨h.sound, h.reader, ?_⟩
    intro report p hwriter'
    cases hwriter'
  | @read c next r s' hreader hexec =>
    have hreads := h.reader
    rw [hreader] at hreads
    obtain rfl := read_store hreads.1 hexec
    exact ⟨h.sound, hreads.2 r, h.writer⟩

theorem Valid.run {w w' : World} {events : List Event} (h : Valid db w)
    (hrun : Run w events w') : Valid db w' := by
  induction hrun with
  | nil w => exact h
  | cons hstep _ ih => exact ih (h.step hstep)

end World

end GameAcc.Interleaving
