import GameAcc.Writer.LastReport
import Mathlib.Algebra.BigOperators.Group.List.Basic
import Mathlib.Data.Rat.Floor

/-!
Detection records as `detectagent.py` reports them, `ip/port/mask/rtt/loss`, and
what `deal_report` reads out of them: the buffer has one member for each record,
and the tally counts and adds the round trip times that are not `AVA_INF`.
-/

namespace GameAcc.Writer

open GameAcc.Redis GameAcc.Text

theorem int_decimal (n : Int) : int (Numeral.decimal n) = .ok n := by
  simp [int, Numeral.readInt_trim_decimal]

/-- A part of a record: it has neither the separator of the parts nor the one
of the records. -/
structure Part where
  text : String
  no_comma : Free ',' text
  no_slash : Free '/' text

structure Record where
  ip : Part
  port : Part
  port_no_colon : Free ':' port.text
  mask : Part
  rtt : Int
  loss : Part

namespace Record

def parts (r : Record) : List String :=
  [r.ip.text, r.port.text, r.mask.text, Numeral.decimal r.rtt, r.loss.text]

/-- The record as it is sent. -/
def text (r : Record) : String := (String.singleton '/').intercalate r.parts

/-- The member it becomes in the buffer. -/
def member (r : Record) : String :=
  r.ip.text ++ ":" ++ r.port.text ++ "/" ++ r.mask.text

def detect (r : Record) : Detect := ⟨r.member, Rounding.round r.rtt, r.rtt⟩

/-- Where the record was measured. -/
def endpoint (r : Record) : String × String × String :=
  (r.ip.text, r.port.text, r.mask.text)

theorem text_no_comma (r : Record) : Free ',' r.text := by
  have hslash : Free ',' "/" := by decide
  have hrtt : Free ',' (Numeral.decimal r.rtt) := free_decimal _ (by decide) (by decide)
  have htext : r.text = r.ip.text ++ "/" ++ (r.port.text ++ "/" ++ (r.mask.text ++ "/" ++
      (Numeral.decimal r.rtt ++ "/" ++ r.loss.text))) := by
    apply String.ext
    simp [text, parts]
  rw [htext]
  exact free_append (free_append r.ip.no_comma hslash)
    (free_append (free_append r.port.no_comma hslash)
      (free_append (free_append r.mask.no_comma hslash)
        (free_append (free_append hrtt hslash) r.loss.no_comma)))

theorem split_text (r : Record) : split '/' r.text = r.parts := by
  apply split_intercalate
  · intro part hpart
    simp only [parts, List.mem_cons, List.not_mem_nil, or_false] at hpart
    rcases hpart with rfl | rfl | rfl | rfl | rfl
    · exact r.ip.no_slash
    · exact r.port.no_slash
    · exact r.mask.no_slash
    · exact free_decimal _ (by decide) (by decide)
    · exact r.loss.no_slash
  · exact List.cons_ne_nil _ _

theorem readDetect_text (r : Record) :
    readDetect r.text = if outOfRange r.rtt = true then none else some r.detect := by
  rw [readDetect, split_text]
  simp only [parts, readScore_decimal, int_decimal, detect, member]
  cases outOfRange r.rtt <;> rfl

/-- The member tells where the record was measured: the last colon and the only
slash separate the three texts. -/
theorem endpoint_of_member {r r' : Record} (h : r.member = r'.member) :
    r.endpoint = r'.endpoint := by
  have hslash : ∀ q : Record, split '/' q.member =
      split '/' (q.ip.text ++ String.singleton ':' ++ q.port.text) ++ [q.mask.text] := by
    intro q
    have hmember : q.member = (q.ip.text ++ String.singleton ':' ++ q.port.text) ++
        String.singleton '/' ++ q.mask.text := rfl
    rw [hmember, split_append, split_free q.mask.no_slash]
  have hcolon : ∀ q : Record, split ':' (q.ip.text ++ String.singleton ':' ++ q.port.text) =
      split ':' q.ip.text ++ [q.port.text] := by
    intro q
    rw [split_append, split_free q.port_no_colon]
  have hparts := congrArg (split '/') h
  rw [hslash, hslash] at hparts
  obtain ⟨hfront, hmask⟩ := List.append_inj' hparts rfl
  have hipport := congrArg (split ':') (split_injective '/' hfront)
  rw [hcolon, hcolon] at hipport
  obtain ⟨hip, hport⟩ := List.append_inj' hipport rfl
  have hip := split_injective ':' hip
  have hport := List.head_eq_of_cons_eq hport
  have hmask := List.head_eq_of_cons_eq hmask
  simp [endpoint, hip, hport, hmask]

end Record

/-- A record of one address. -/
def oneRecord (rtt : Int) : Record where
  ip := ⟨"1.2.3.4", by decide, by decide⟩
  port := ⟨"80", by decide, by decide⟩
  port_no_colon := by decide
  mask := ⟨"32", by decide, by decide⟩
  rtt := rtt
  loss := ⟨"0", by decide, by decide⟩

/-- The text of the records of a report. -/
def detectdata (records : List Record) : String :=
  (String.singleton ',').intercalate (records.map Record.text)

theorem readDetects_detectdata {records : List Record} (hne : records ≠ [])
    (hrange : ∀ r ∈ records, outOfRange r.rtt = false) :
    readDetects (detectdata records) = some (records.map Record.detect) := by
  have hsplit : split ',' (detectdata records) = records.map Record.text := by
    apply split_intercalate
    · intro part hpart
      obtain ⟨r, _, rfl⟩ := List.mem_map.mp hpart
      exact r.text_no_comma
    · simpa using hne
  rw [readDetects, hsplit]
  clear hsplit hne
  induction records with
  | nil => rfl
  | cons r rest ih =>
    have hrest := ih (fun r' hr' => hrange r' (List.mem_cons_of_mem r hr'))
    rw [List.map_cons, List.mapM_cons, r.readDetect_text, hrange r List.mem_cons_self,
      if_neg Bool.false_ne_true]
    simp [hrest]

/-- Every time of a report that can be read is in the range of doubles. -/
theorem outOfRange_of_readDetects {records : List Record} {detects : List Detect}
    (h : readDetects (detectdata records) = some detects) :
    ∀ r ∈ records, outOfRange r.rtt = false := by
  intro r hr
  have hsplit : split ',' (detectdata records) = records.map Record.text := by
    apply split_intercalate
    · intro part hpart
      obtain ⟨r', _, rfl⟩ := List.mem_map.mp hpart
      exact r'.text_no_comma
    · simpa using List.ne_nil_of_mem hr
  rw [readDetects, hsplit] at h
  clear hsplit
  induction records generalizing detects with
  | nil => cases hr
  | cons r' rest ih =>
    rw [List.map_cons, List.mapM_cons] at h
    obtain ⟨d, hd, h⟩ := Option.bind_eq_some_iff.mp h
    obtain ⟨ds, hds, _⟩ := Option.bind_eq_some_iff.mp h
    rcases List.mem_cons.mp hr with rfl | hr
    · by_contra hrange
      rw [r.readDetect_text, if_pos (by simpa using hrange)] at hd
      cases hd
    · exact ih hds hr

/-- Distinct members stay in the order of the records. -/
theorem contents_entries {detects : List Detect}
    (hnodup : (detects.map Detect.member).Nodup) :
    (contents detects).entries = detects.map (fun d => (d.member, d.score)) := by
  have hgeneral : ∀ (rest : List Detect) (z : SortedSet),
      (∀ d ∈ rest, d.member ∉ z.entries.map Prod.fst) →
      (rest.map Detect.member).Nodup →
      (rest.foldl (fun z d => z.add d.member d.score) z).entries =
        z.entries ++ rest.map (fun d => (d.member, d.score)) := by
    intro rest
    induction rest with
    | nil => simp
    | cons d rest ih =>
      intro z hnew hnodup
      obtain ⟨hd, hnodup⟩ := List.nodup_cons.mp hnodup
      have hkeep : z.entries.filter (fun e => e.1 ≠ d.member) = z.entries := by
        apply List.filter_eq_self.mpr
        intro e he
        have hne : e.1 ≠ d.member := by
          intro h
          exact hnew d List.mem_cons_self (h ▸ List.mem_map_of_mem he)
        simpa using hne
      have hadd : (z.add d.member d.score).entries = z.entries ++ [(d.member, d.score)] :=
        congrArg (· ++ [(d.member, d.score)]) hkeep
      rw [List.foldl_cons, ih _ _ hnodup, hadd, List.map_cons, List.append_assoc]
      · rfl
      · intro x hx
        rw [hadd, List.map_append, List.mem_append, not_or]
        refine ⟨hnew x (List.mem_cons_of_mem d hx), ?_⟩
        have hne : x.member ≠ d.member := by
          intro h
          exact hd (h ▸ List.mem_map_of_mem hx)
        simpa using hne
  have h := hgeneral detects .empty (by simp [SortedSet.empty]) hnodup
  simpa [contents, SortedSet.empty] using h

/-- The members of a buffer are members of its records. -/
theorem mem_contents {detects : List Detect} {e : String × Score}
    (h : e ∈ (contents detects).entries) : ∃ d ∈ detects, e = (d.member, d.score) := by
  induction detects using List.reverseRecOn with
  | nil => cases h
  | append_singleton rest d ih =>
    rw [contents, List.foldl_append] at h
    rcases SortedSet.mem_add.mp h with ⟨hrest, _⟩ | rfl
    · obtain ⟨d', hd', rfl⟩ := ih hrest
      exact ⟨d', List.mem_append_left _ hd', rfl⟩
    · exact ⟨d, by simp, rfl⟩

/-- Every record has its member in the buffer. -/
theorem member_contents {detects : List Detect} {member : String} :
    member ∈ (contents detects).entries.map Prod.fst ↔ ∃ d ∈ detects, d.member = member := by
  constructor
  · intro h
    obtain ⟨e, he, rfl⟩ := List.mem_map.mp h
    obtain ⟨d, hd, rfl⟩ := mem_contents he
    exact ⟨d, hd, rfl⟩
  · intro h
    induction detects using List.reverseRecOn with
    | nil => simp at h
    | append_singleton rest d ih =>
      rw [contents, List.foldl_append, List.mem_map]
      by_cases hlast : member = d.member
      · exact ⟨(d.member, d.score), SortedSet.mem_add.mpr (.inr rfl), hlast.symm⟩
      · obtain ⟨d', hd', hmember⟩ := h
        have hrest : d' ∈ rest := by
          rcases List.mem_append.mp hd' with hrest | hd'
          · exact hrest
          · obtain rfl := List.mem_singleton.mp hd'
            exact absurd hmember.symm hlast
        obtain ⟨e, he, hfst⟩ := List.mem_map.mp (ih ⟨d', hrest, hmember⟩)
        refine ⟨e, SortedSet.mem_add.mpr (.inl ⟨he, ?_⟩), hfst⟩
        rwa [hfst]

/-- Records that can all be read are read one by one. -/
theorem exists_readDetects {records : List String}
    (h : ∀ record ∈ records, ∃ d, readDetect record = some d) :
    ∃ detects, records.mapM readDetect = some detects ∧
      detects.map some = records.map readDetect := by
  induction records with
  | nil => exact ⟨[], rfl, rfl⟩
  | cons record rest ih =>
    obtain ⟨d, hd⟩ := h record List.mem_cons_self
    obtain ⟨detects, hread, hmap⟩ := ih (fun r hr => h r (List.mem_cons_of_mem record hr))
    refine ⟨d :: detects, ?_, ?_⟩
    · simp [hd, hread]
    · rw [List.map_cons, List.map_cons, hd, hmap]

/-- The loop over records that can all be read fills the buffer with them. -/
theorem Draft.run_fill {report : Report} {s : Store} (d : Draft report s)
    {detectlst : List String} {detects : List Detect}
    (hread : detectlst.mapM readDetect = some detects) :
    Command.run redis (detectlst.foldlM (addDetectdata d.key) Tally.zero) (d.store .empty) =
      (.ok (tally detects), d.store (contents detects)) := by
  let Φ : Command.Conditions Cmd Exn Tally Watch :=
    { pending := fun _ _ => True
      stopped := fun _ _ => False
      ended := fun t at_ => t = tally detects ∧ at_.1 = d.store (contents detects) }
  have hholds : Command.Holds watched Φ (detectlst.foldlM (addDetectdata d.key) Tally.zero)
      (d.store .empty, ⟨true, 0⟩) := by
    apply fill_holds
    · intro _ _ _
      trivial
    · intro hnone
      rw [hread] at hnone
      cases hnone
    · intro detects' hread'
      obtain rfl := Option.some.inj (hread.symm.trans hread')
      exact ⟨rfl, rfl⟩
  obtain ⟨progress, hrun⟩ := Command.run_ghosted advance
    (detectlst.foldlM (addDetectdata d.key) Tally.zero) (d.store .empty) ⟨true, 0⟩
  have hpost := hholds.run
  rw [hrun] at hpost
  generalize Command.run redis (detectlst.foldlM (addDetectdata d.key) Tally.zero)
    (d.store .empty) = result at hpost
  obtain ⟨e | t, s'⟩ := result
  · exact hpost.elim
  · exact Prod.ext (congrArg Except.ok hpost.1) hpost.2

theorem int_eq_ok {text : String} {n : Int} (h : int text = .ok n) :
    Numeral.readInt (Numeral.trim text.toList) = some n := by
  unfold int at h
  split at h
  · next hread =>
    rw [Except.ok.inj h] at hread
    exact hread
  · cases h

/-- The score of a well-formed record is the nearest double of its round trip time. -/
theorem readDetect_score {text : String} {d : Detect} (h : readDetect text = some d) :
    d.score = Rounding.round d.rtt := by
  unfold readDetect at h
  split at h
  · next ip port mask rtt rest hsplit =>
    split at h
    · next score n hscore hint =>
      obtain rfl := Option.some.inj h
      exact readScore_of_readInt hscore (int_eq_ok hint)
    · cases h
  · cases h

/-- Every record that was read stood in the text. -/
theorem mem_readDetects {detectstr : String} {detects : List Detect} {d : Detect}
    (h : readDetects detectstr = some detects) (hd : d ∈ detects) :
    ∃ detectdata ∈ split ',' detectstr, readDetect detectdata = some d := by
  unfold readDetects at h
  generalize split ',' detectstr = texts at h ⊢
  induction texts generalizing detects with
  | nil =>
    obtain rfl := Option.some.inj h
    cases hd
  | cons text rest ih =>
    rw [List.mapM_cons] at h
    obtain ⟨first, hfirst, h⟩ := Option.bind_eq_some_iff.mp h
    obtain ⟨others, hothers, h⟩ := Option.bind_eq_some_iff.mp h
    obtain rfl := Option.some.inj h
    rcases List.mem_cons.mp hd with rfl | hd
    · exact ⟨text, List.mem_cons_self, hfirst⟩
    · obtain ⟨detectdata, hmem, hread⟩ := ih hd hothers
      exact ⟨detectdata, List.mem_cons_of_mem text hmem, hread⟩

/-- A member can stand in a list separated by commas. -/
theorem readDetect_member {text : String} {d : Detect} (h : readDetect text = some d)
    (hfree : Free ',' text) : Free ',' d.member ∧ d.member ≠ "" := by
  unfold readDetect at h
  split at h
  · next ip port mask rtt rest hsplit =>
    split at h
    · obtain rfl := Option.some.inj h
      have hpart : ∀ part ∈ ip :: port :: mask :: rtt :: rest, Free ',' part := by
        intro part hpart
        rw [← hsplit] at hpart
        exact free_of_free_split hpart hfree
      have hcolon : Free ',' ":" := by decide
      have hslash : Free ',' "/" := by decide
      constructor
      · have hip := hpart ip (by simp)
        have hport := hpart port (by simp)
        have hmask := hpart mask (by simp)
        exact free_append (free_append (free_append (free_append hip hcolon) hport)
          hslash) hmask
      · intro hempty
        have hlist := congrArg String.toList hempty
        simp at hlist
    · cases h
  · cases h

/-- The text a report's records stand in. -/
theorem Report.mem_detects {report : Report} {detects : List Detect} {d : Detect}
    (h : report.detects = some detects) (hd : d ∈ detects) :
    ∃ detectstr, report.detectdata = .str detectstr ∧
      ∃ detectdata ∈ split ',' detectstr, readDetect detectdata = some d := by
  unfold Report.detects at h
  split at h
  · next detectstr hstr => exact ⟨detectstr, hstr, mem_readDetects h hd⟩
  · cases h

/-- The round trip times that were measured. -/
def measured (detects : List Detect) : List Int :=
  (detects.map Detect.rtt).filter (· ≠ AVA_INF)

theorem tally_eq (detects : List Detect) :
    tally detects = ⟨(measured detects).length, (measured detects).sum⟩ := by
  induction detects using List.reverseRecOn with
  | nil => rfl
  | append_singleton rest d ih =>
    have hfold : tally (rest ++ [d]) = (tally rest).add d.rtt := by
      simp [tally]
    have hmeasured : measured (rest ++ [d]) =
        measured rest ++ measured [d] := by
      simp [measured]
    rw [hfold, ih, hmeasured]
    by_cases hd : d.rtt = AVA_INF
    · simp [Tally.add, measured, hd]
    · simp [Tally.add, measured, hd]

/-- The floor of a mean, as `deal_report` documents its averages. -/
def floorMean (total count : Int) : Int :=
  if count = 0 then AVA_INF else ⌊(total / count : ℚ)⌋

/-- Python's floor division is the floor of the quotient. -/
theorem average_eq_floorMean {t : Tally} (h : 0 ≤ t.counter) :
    t.average = floorMean t.total t.counter := by
  unfold Tally.average floorMean
  by_cases hzero : t.counter = 0
  · simp [hzero]
  · obtain ⟨n, hn⟩ := Int.eq_ofNat_of_zero_le h
    rw [if_pos hzero, if_neg hzero, hn, Int.fdiv_eq_ediv_of_nonneg _ (by omega)]
    exact (Rat.floor_intCast_div_natCast t.total n).symm

end GameAcc.Writer
