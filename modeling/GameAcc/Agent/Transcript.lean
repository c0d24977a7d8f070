import GameAcc.Agent.Detect
import GameAcc.Foundations.Search

/-!
`detectagent.py`: what is read from the output of a ping. The loop takes line
after line until it has a time and a loss that differ from the values it begins
with. Positions in texts are counted from 0, and a text that is found at the
start of a line counts as not found.
-/

namespace GameAcc.Agent

open GameAcc.Search GameAcc.Text

def LOSS_MARK : String := "% packet loss"

/-- The text in front of the times: of ping, and of hping. -/
def AVA_MARK (flag : Bool) : String := if flag then "min/avg/max/mdev" else "min/avg/max"

/-- `lineinfo.find(mark) > 0` -/
def found (mark lineinfo : String) : Bool :=
  (find mark.toList lineinfo.toList).any (fun n => 0 < n)

/-- Every exception leaves the loss at `LOSS_INF`. -/
def filterLoss (lineinfo : String) : Int :=
  match find LOSS_MARK.toList lineinfo.toList with
  | some nr =>
    if 0 < nr then
      match rfind ',' (lineinfo.toList.take nr) with
      | some nl =>
        if 0 < nl then
          let tmpstr := (lineinfo.toList.take nr).drop (nl + 1)
          (Numeral.readInt (Numeral.trim tmpstr)).getD LOSS_INF
        else LOSS_INF
      | none => LOSS_INF
    else LOSS_INF
  | none => LOSS_INF

/-- The loop over the lines that `readline` returns, with the results so far. -/
def readOutput (flag : Bool) : List String → Outcome → Outcome
  | [], result => result
  | lineinfo :: rest, result =>
    if found LOSS_MARK lineinfo then
      readOutput flag rest { result with loss := filterLoss lineinfo }
    else
      let result :=
        if found (AVA_MARK flag) lineinfo then
          { result with ava := filterAva lineinfo, ava_double := isDouble_filterAva lineinfo }
        else result
      if result.ava ≠ AVA_INF ∧ result.loss ≠ LOSS_INF then result
      else readOutput flag rest result

def getPingAvaLoss (flag : Bool) (cstdout : List String) : Outcome :=
  readOutput flag cstdout ⟨AVA_INF, LOSS_INF, isDouble_AVA_INF⟩

/-- The pair that is returned. -/
def Outcome.results (outcome : Outcome) : Int × Int := (outcome.ava, outcome.loss)

/-- A line of the output. -/
inductive Line where
  | loss (front percent back : String)
  | average (front least ava rest : String)
  | other (text : String)

namespace Line

def text (flag : Bool) : Line → String
  | .loss front percent back => front ++ ", " ++ percent ++ LOSS_MARK ++ back
  | .average front least ava rest =>
    front ++ " " ++ AVA_MARK flag ++ " = " ++ least ++ "/" ++ ava ++ "/" ++ rest
  | .other text => text

/-- The text contains the mark. -/
def Occurs (mark text : String) : Prop := mark.toList <:+: text.toList

/-- The loss stands behind the last comma in front of its mark, the average
between the first two slashes behind the first `=`, and only the line of the
loss contains the mark of the loss. -/
def WellFormed (flag : Bool) : Line → Prop
  | .loss front percent _ =>
    front ≠ "" ∧ Free ',' percent ∧ ¬Occurs LOSS_MARK (front ++ ", " ++ percent)
  | .average front least ava rest =>
    front ≠ "" ∧ Free '=' front ∧ ¬(AVA_MARK flag).toList <+: front.toList ∧ Free '/' least ∧
      Free '/' ava ∧ ¬Occurs LOSS_MARK ((Line.average front least ava rest).text flag)
  | .other text => ¬Occurs LOSS_MARK text ∧ ¬Occurs (AVA_MARK flag) text

def percent? : Line → Option String
  | .loss _ percent _ => some percent
  | _ => none

def ava? : Line → Option String
  | .average _ _ ava _ => some ava
  | _ => none

end Line

/-- The integer of a numeral, and 100 otherwise. -/
def readLoss (percent : String) : Int :=
  (Numeral.readInt (Numeral.trim percent.toList)).getD LOSS_INF

section Found

variable {flag : Bool} {mark : String}

theorem found_eq_false {lineinfo : String} (h : ¬Line.Occurs mark lineinfo) :
    found mark lineinfo = false := by
  rw [found, find_eq_none_iff.mpr h]
  rfl

theorem found_of_occurs {lineinfo : String} (hoccurs : Line.Occurs mark lineinfo)
    (hbegins : ¬mark.toList <+: lineinfo.toList) : found mark lineinfo = true := by
  obtain ⟨n, hn, hpos⟩ := find_pos hoccurs hbegins
  rw [found, hn]
  simpa using hpos

end Found

section Lines

variable {flag : Bool}

/-- The position of the mark in the line of the loss. -/
theorem find_loss {front percent back : String}
    (h : ¬Line.Occurs LOSS_MARK (front ++ ", " ++ percent)) :
    find LOSS_MARK.toList ((Line.loss front percent back).text flag).toList =
      some (front ++ ", " ++ percent).toList.length := by
  have htext : ((Line.loss front percent back).text flag).toList =
      (front ++ ", " ++ percent).toList ++ (LOSS_MARK.toList ++ back.toList) := by
    simp only [Line.text, String.toList_append, List.append_assoc]
  rw [htext]
  have hfree : '%' ∉ " packet loss".toList := by
    decide
  exact find_append hfree h

theorem found_loss {front percent back : String}
    (h : ¬Line.Occurs LOSS_MARK (front ++ ", " ++ percent)) :
    found LOSS_MARK ((Line.loss front percent back).text flag) = true := by
  rw [found, find_loss h]
  simp

theorem trim_space (cs : List Char) : Numeral.trim (' ' :: cs) = Numeral.trim cs := rfl

/-- What stands between the last comma and the mark is the number. -/
theorem filterLoss_loss {front percent back : String} (hne : front ≠ "")
    (hfree : Free ',' percent) (h : ¬Line.Occurs LOSS_MARK (front ++ ", " ++ percent)) :
    filterLoss ((Line.loss front percent back).text flag) = readLoss percent := by
  have htake : ((Line.loss front percent back).text flag).toList.take
      (front ++ ", " ++ percent).toList.length = front.toList ++ ',' :: ' ' :: percent.toList := by
    have htext : ((Line.loss front percent back).text flag).toList =
        (front ++ ", " ++ percent).toList ++ (LOSS_MARK.toList ++ back.toList) := by
      simp only [Line.text, String.toList_append, List.append_assoc]
    rw [htext, List.take_left]
    simp [String.toList_append]
  have hcomma : ',' ∉ ' ' :: percent.toList := by
    rw [List.mem_cons, not_or]
    exact ⟨by decide, hfree⟩
  have hfront : 0 < front.toList.length := by
    apply List.length_pos_iff.mpr
    intro hnil
    exact hne (String.toList_eq_nil_iff.mp hnil)
  have hpos : 0 < (front ++ ", " ++ percent).toList.length := by simp
  have hdrop : (front.toList ++ ',' :: ' ' :: percent.toList).drop (front.toList.length + 1) =
      ' ' :: percent.toList := by
    simp
  simp only [filterLoss, find_loss h, if_pos hpos, htake, rfind_append hcomma, if_pos hfront,
    hdrop, trim_space, readLoss]

/-- The line of the average is not taken for the one of the loss, and its second
time is read. -/
theorem found_average {front least ava rest : String}
    (h : (Line.average front least ava rest).WellFormed flag) :
    found LOSS_MARK ((Line.average front least ava rest).text flag) = false ∧
      found (AVA_MARK flag) ((Line.average front least ava rest).text flag) = true ∧
      filterAva ((Line.average front least ava rest).text flag) = readAva ava := by
  obtain ⟨hne, hfree, hstart, hleast, hava, hloss⟩ := h
  refine ⟨found_eq_false hloss, ?_, ?_⟩
  · have htext : ((Line.average front least ava rest).text flag).toList = front.toList ++
        ' ' :: ((AVA_MARK flag).toList ++
          (" = " ++ least ++ "/" ++ ava ++ "/" ++ rest).toList) := by
      simp [Line.text, String.toList_append]
    apply found_of_occurs
    · rw [Line.Occurs, htext]
      refine ⟨front.toList ++ [' '], (" = " ++ least ++ "/" ++ ava ++ "/" ++ rest).toList, ?_⟩
      rw [List.append_assoc, List.append_assoc]
      rfl
    · rw [htext]
      intro hbegins
      apply hstart
      apply prefix_of_prefix_cons _ hbegins
      cases flag <;> decide
  · have htext : (Line.average front least ava rest).text flag =
        front ++ " " ++ AVA_MARK flag ++ " " ++ String.singleton '=' ++
          (" " ++ least ++ String.singleton '/' ++ (ava ++ String.singleton '/' ++ rest)) := by
      apply String.toList_inj.mp
      simp [Line.text, String.toList_append]
    rw [htext]
    apply filterAva_line
    · simp
    · have hmark : Free '=' (AVA_MARK flag) := by
        cases flag <;> decide
      exact free_append (free_append (free_append hfree (by decide)) hmark) (by decide)
    · exact free_append (by decide) hleast
    · exact hava

end Lines

section Loop

variable {flag : Bool}

def percents (lines : List Line) : List String := lines.filterMap Line.percent?

def averages (lines : List Line) : List String := lines.filterMap Line.ava?

theorem isDouble_average {ava : Option String} {before : Int}
    (h : Rounding.isDouble before = true) :
    Rounding.isDouble ((ava.map readAva).getD before) = true := by
  cases ava with
  | none => exact h
  | some ava => exact isDouble_readAva ava

/-- The result of a loop over lines: what they have, and otherwise what was there
before. -/
def resultOf (lines : List Line) (result : Outcome) : Outcome where
  ava := ((averages lines).head?.map readAva).getD result.ava
  loss := ((percents lines).head?.map readLoss).getD result.loss
  ava_double := isDouble_average result.ava_double

/-- Once a result differs from its first value, no line for it is left. -/
structure Pending (lines : List Line) (result : Outcome) : Prop where
  percent : (percents lines).length ≤ 1
  average : (averages lines).length ≤ 1
  lossRead : result.loss ≠ LOSS_INF → percents lines = []
  avaRead : result.ava ≠ AVA_INF → averages lines = []

/-- The loop ends early only when no line is left that it would read. -/
theorem Pending.resultOf_eq {lines : List Line} {result : Outcome} (h : Pending lines result)
    (hread : result.ava ≠ AVA_INF ∧ result.loss ≠ LOSS_INF) : resultOf lines result = result := by
  simp only [resultOf, h.avaRead hread.1, h.lossRead hread.2]
  rfl

/-- The rest of the loop after a line that is not the one of the loss. -/
theorem Pending.continue {lines : List Line} {result : Outcome} (h : Pending lines result)
    (hrest : readOutput flag (lines.map (Line.text flag)) result = resultOf lines result) :
    (if result.ava ≠ AVA_INF ∧ result.loss ≠ LOSS_INF then result
      else readOutput flag (lines.map (Line.text flag)) result) = resultOf lines result := by
  split
  · next hread => exact (h.resultOf_eq hread).symm
  · exact hrest

/-- After the line of the loss no other one is left. -/
theorem Pending.ofLoss {front percent back : String} {rest : List Line} {result : Outcome}
    (h : Pending (.loss front percent back :: rest) result) :
    Pending rest { result with loss := readLoss percent } ∧
      resultOf (.loss front percent back :: rest) result =
        resultOf rest { result with loss := readLoss percent } := by
  have hlength : (percents rest).length + 1 ≤ 1 := h.percent
  have hnone : percents rest = [] := List.length_eq_zero_iff.mp (by omega)
  have hcons : percents (.loss front percent back :: rest) = percent :: percents rest := rfl
  constructor
  · exact ⟨by omega, h.average, fun _ => hnone, h.avaRead⟩
  · simp only [resultOf, hcons, hnone]
    rfl

theorem Pending.ofAverage {front least ava after : String} {rest : List Line} {result : Outcome}
    (h : Pending (.average front least ava after :: rest) result) :
    Pending rest { result with ava := readAva ava, ava_double := isDouble_readAva ava } ∧
      resultOf (.average front least ava after :: rest) result =
        resultOf rest { result with ava := readAva ava, ava_double := isDouble_readAva ava } := by
  have hlength : (averages rest).length + 1 ≤ 1 := h.average
  have hnone : averages rest = [] := List.length_eq_zero_iff.mp (by omega)
  have hcons : averages (.average front least ava after :: rest) = ava :: averages rest := rfl
  constructor
  · exact ⟨h.percent, by omega, h.lossRead, fun _ => hnone⟩
  · simp only [resultOf, hcons, hnone]
    rfl

theorem readOutput_eq {lines : List Line} (hform : ∀ line ∈ lines, line.WellFormed flag)
    {result : Outcome} (h : Pending lines result) :
    readOutput flag (lines.map (Line.text flag)) result = resultOf lines result := by
  induction lines generalizing result with
  | nil => rfl
  | cons line rest ih =>
    obtain ⟨hline, hrest⟩ := List.forall_mem_cons.mp hform
    rw [List.map_cons, readOutput]
    cases line with
    | loss front percent back =>
      obtain ⟨hne, hfree, hmark⟩ := hline
      obtain ⟨hpending, hresult⟩ := h.ofLoss
      rw [if_pos (found_loss hmark), filterLoss_loss hne hfree hmark, hresult]
      exact ih hrest hpending
    | average front least ava after =>
      obtain ⟨hloss, hmark, hava⟩ := found_average hline
      obtain ⟨hpending, hresult⟩ := h.ofAverage
      rw [hloss, if_neg Bool.false_ne_true, if_pos hmark, hresult]
      simp only [hava]
      exact hpending.continue (ih hrest hpending)
    | other text =>
      obtain ⟨hloss, hmark⟩ := hline
      have hpending : Pending rest result := ⟨h.percent, h.average, h.lossRead, h.avaRead⟩
      have hresult : resultOf (.other text :: rest) result = resultOf rest result := rfl
      rw [Line.text, found_eq_false hloss, found_eq_false hmark, if_neg Bool.false_ne_true,
        if_neg Bool.false_ne_true, hresult]
      exact hpending.continue (ih hrest hpending)

/-- For every output with at most one line of each kind, in any order, the
result is what these lines have; the time is rounded down unless the numeral is
within its rounding error of the next integer. -/
theorem transcript_result {flag : Bool} {lines : List Line}
    (hform : ∀ line ∈ lines, line.WellFormed flag) (hpercents : (percents lines).length ≤ 1)
    (haverages : (averages lines).length ≤ 1) :
    (getPingAvaLoss flag (lines.map (Line.text flag))).results =
        (((averages lines).head?.map readAva).getD AVA_INF,
          ((percents lines).head?.map readLoss).getD LOSS_INF) ∧
      ∀ ava x, averages lines = [ava] →
        Numeral.readDecimal (Numeral.trim ava.toList) = some x → 0 ≤ x →
        x + x / 2 ^ 53 < ⌊x⌋ + 1 →
          (getPingAvaLoss flag (lines.map (Line.text flag))).ava = ⌊x⌋ := by
  have hpending : Pending lines ⟨AVA_INF, LOSS_INF, isDouble_AVA_INF⟩ :=
    ⟨hpercents, haverages, fun h => absurd rfl h, fun h => absurd rfl h⟩
  have hresult := readOutput_eq hform hpending
  refine ⟨congrArg Outcome.results hresult, ?_⟩
  intro ava x hava hread hx hnear
  rw [getPingAvaLoss, hresult]
  simp only [resultOf, hava]
  exact readAva_floor hread hx hnear

end Loop

section Example

/-- The end of a ping's output, with the summary behind the times. -/
def pingLines : List Line :=
  [.other "--- 10.0.0.2 ping statistics ---\n",
    .average "rtt" "12.411" "40.937" "41.459/0.018 ms\n",
    .loss "5 packets transmitted, 4 received" "20" ", time 4004ms\n"]

theorem pingLines_wellFormed : ∀ line ∈ pingLines, line.WellFormed true := by
  intro line hline
  simp only [pingLines, List.mem_cons, List.not_mem_nil, or_false] at hline
  rcases hline with rfl | rfl | rfl
  · simp only [Line.WellFormed, Line.Occurs]
    decide +kernel
  · simp only [Line.WellFormed, Line.Occurs]
    decide +kernel
  · simp only [Line.WellFormed, Line.Occurs]
    decide +kernel

theorem pingLines_result :
    (getPingAvaLoss true (pingLines.map (Line.text true))).results =
        (readAva "40.937", readLoss "20") ∧
      (getPingAvaLoss true (pingLines.map (Line.text true))).ava = ⌊(40937 / 1000 : ℚ)⌋ := by
  obtain ⟨hresult, hfloor⟩ := transcript_result pingLines_wellFormed (by decide) (by decide)
  refine ⟨hresult, hfloor "40.937" (40937 / 1000) rfl (by decide +kernel) (by norm_num) ?_⟩
  decide +kernel

/-- The forms alone do not fix the result: a negative average, one that is
rounded up to the next integer, one with an exponent, one too large for a
`double`, a comma in the number of the loss, a mark in front of it, an average
line that begins with its mark, and one that contains the other mark. -/
theorem forms_not_enough :
    (getPingAvaLoss true ["rtt min/avg/max/mdev = 1/-1.5/3/4 ms"]).results = (-1, 100) ∧
    (getPingAvaLoss true ["rtt min/avg/max/mdev = 1/0.99999999999999999999/3/4 ms"]).results =
      (1, 100) ∧
    (getPingAvaLoss true ["rtt min/avg/max/mdev = 1/2e1/3/4 ms"]).results = (20, 100) ∧
    (getPingAvaLoss true ["4 received, 1,5% packet loss, time 4004ms"]).results = (99999, 5) ∧
    (getPingAvaLoss true ["4% packet loss, 5% packet loss, time 4004ms"]).results = (99999, 100) ∧
    (getPingAvaLoss true ["min/avg/max/mdev min/avg/max/mdev = 1/2/3/4 ms"]).results =
      (99999, 100) ∧
    (getPingAvaLoss true ["rtt min/avg/max/mdev = 1/2/3/4 ms, 7% packet loss"]).results =
      (99999, 7) := by
  decide +kernel

end Example

end GameAcc.Agent
