import Mathlib.Data.Rat.Defs

/-!
`detectagent.py`: how the agent refreshes what it knows of the controllers and
of the games. Every statement that raises leaves the globals as they are at that
point; the handler turns it into the return value -1. The list of games is
assigned in one piece, the list of controllers is emptied and filled again.
-/

namespace GameAcc.Agent

/-- What `json.loads` makes of a body. -/
inductive Json where
  | none
  | bool (value : Bool)
  | num (value : ℚ)
  | str (value : String)
  | list (items : List Json)
  | dict (members : List (String × Json))

namespace Json

/-- `value[key]`, if it does not raise. -/
def get? (value : Json) (key : String) : Option Json :=
  match value with
  | .dict members => members.lookup key
  | _ => .none

/-- `value == n`. A truth value is a number. -/
def eqInt (value : Json) (n : Int) : Bool :=
  match value with
  | .bool b => n = if b then 1 else 0
  | .num q => q = n
  | _ => false

/-- `if value:` -/
def truthy : Json → Bool
  | .none => false
  | .bool b => b
  | .num q => q ≠ 0
  | .str s => s ≠ ""
  | .list items => !items.isEmpty
  | .dict members => !members.isEmpty

/-- What `for item in value` goes through, if it does not raise. -/
def items? : Json → Option (List Json)
  | .list items => some items
  | .dict members => some (members.map (fun member => .str member.1))
  | .str s => some (s.toList.map (fun c => .str (String.singleton c)))
  | .none | .bool _ | .num _ => .none

end Json

structure Globals where
  enableCcIplst : List Json
  gamelst : Json

/-- A block of statements under a handler. -/
abbrev Py := ExceptT Unit (StateM Globals)

namespace Py

variable {α : Type}

/-- A value, unless taking it raises. -/
def ofOption : Option α → Py α
  | some value => pure value
  | none => throw ()

/-- What is returned, `excepted` where a statement raised, and the globals. -/
def handled (block : Py α) (excepted : α) (s : Globals) : α × Globals :=
  match block.run.run s with
  | (.ok value, s) => (value, s)
  | (.error _, s) => (excepted, s)

end Py

open Py

/-- The loop over the controllers. -/
def appendNodes : List Json → Py Unit
  | [] => pure ()
  | item :: rest => do
    let enabled ← ofOption (item.get? "enabled")
    if enabled.eqInt 1 then
      let nodeip ← ofOption (item.get? "nodeip")
      modify (fun s => { s with enableCcIplst := s.enableCcIplst ++ [nodeip] })
    appendNodes rest

/-- The request is answered with a decoded body, or it raises. -/
def getcclstBody (response : Option Json) : Py Int := do
  let retval ← ofOption response
  let code ← ofOption (retval.get? "code")
  if code.eqInt 0 then
    modify (fun s => { s with enableCcIplst := [] })
    let data ← ofOption (retval.get? "data")
    let ccnodesInfolst ← ofOption (data.get? "cc_node_lst")
    if ccnodesInfolst.truthy then
      let items ← ofOption ccnodesInfolst.items?
      appendNodes items
    return 0
  else
    return -1

def getcclst (response : Option Json) : Globals → Int × Globals :=
  handled (getcclstBody response) (-1)

/-- `getgamelst` returns nothing of use; here it is whether it came to its end. -/
def getgamelstBody (response : Option Json) : Py Bool := do
  let retval ← ofOption response
  let code ← ofOption (retval.get? "code")
  if code.eqInt 0 then
    let data ← ofOption (retval.get? "data")
    let gamelist ← ofOption (data.get? "gamelist")
    modify (fun s => { s with gamelst := gamelist })
    return true
  else
    return false

def getgamelst (response : Option Json) : Globals → Bool × Globals :=
  handled (getgamelstBody response) false

section Blocks

variable {α β : Type}

@[simp] theorem handled_pure (value excepted : α) (s : Globals) :
    handled (pure value) excepted s = (value, s) := rfl

@[simp] theorem handled_none (f : α → Py β) (excepted : β) (s : Globals) :
    handled (ofOption none >>= f) excepted s = (excepted, s) := rfl

@[simp] theorem handled_some (value : α) (f : α → Py β) (excepted : β) (s : Globals) :
    handled (ofOption (some value) >>= f) excepted s = handled (f value) excepted s := rfl

@[simp] theorem handled_modify (g : Globals → Globals) (f : PUnit → Py β) (excepted : β)
    (s : Globals) :
    handled (modify g >>= f) excepted s = handled (f ⟨⟩) excepted (g s) := rfl

end Blocks

section Loop

/-- What an entry adds to the list; none when it raises. -/
def node? (item : Json) : Option (List Json) :=
  (item.get? "enabled").bind (fun enabled =>
    if enabled.eqInt 1 then (item.get? "nodeip").map (fun nodeip => [nodeip]) else some [])

/-- What the loop adds to the list before it ends or an entry raises. -/
def appended : List Json → List Json
  | [] => []
  | item :: rest => (node? item).elim [] (fun nodeips => nodeips ++ appended rest)

variable {α : Type} {f : Unit → Py α} {excepted : α}

theorem handled_appendNodes_none {item : Json} (h : node? item = none) (rest : List Json)
    (s : Globals) : handled (appendNodes (item :: rest) >>= f) excepted s = (excepted, s) := by
  simp only [appendNodes, bind_assoc]
  cases henabled : item.get? "enabled" with
  | none => rfl
  | some enabled =>
    rw [node?, henabled, Option.bind_some] at h
    rw [handled_some]
    split at h
    · next hone =>
      have hnodeip : item.get? "nodeip" = none := Option.map_eq_none_iff.mp h
      rw [if_pos hone, hnodeip, bind_assoc, handled_none]
    · cases h

theorem handled_appendNodes_some {item : Json} {nodeips : List Json}
    (h : node? item = some nodeips) (rest : List Json) (s : Globals) :
    handled (appendNodes (item :: rest) >>= f) excepted s =
      handled (appendNodes rest >>= f) excepted
        { s with enableCcIplst := s.enableCcIplst ++ nodeips } := by
  simp only [appendNodes, bind_assoc]
  cases henabled : item.get? "enabled" with
  | none =>
    rw [node?, henabled] at h
    cases h
  | some enabled =>
    rw [node?, henabled, Option.bind_some] at h
    rw [handled_some]
    split at h
    · next hone =>
      obtain ⟨nodeip, hnodeip, rfl⟩ := Option.map_eq_some_iff.mp h
      rw [if_pos hone, hnodeip, bind_assoc, handled_some, bind_assoc, handled_modify]
    · next hzero =>
      obtain rfl := Option.some.inj h
      rw [if_neg hzero, List.append_nil]

/-- The list is filled up to the first entry that raises. -/
theorem handled_appendNodes (items : List Json) (s : Globals) :
    handled (appendNodes items >>= fun _ => pure 0) (-1) s =
      (if items.all (fun item => (node? item).isSome) then (0 : Int) else -1,
        { s with enableCcIplst := s.enableCcIplst ++ appended items }) := by
  induction items generalizing s with
  | nil => simp [appendNodes, appended]
  | cons item rest ih =>
    cases h : node? item with
    | none =>
      rw [handled_appendNodes_none h]
      simp [appended, h]
    | some nodeips =>
      rw [handled_appendNodes_some h, ih]
      simp [appended, h]

end Loop

section Refresh

/-- The response is an object with the code 0. -/
def Accepted (response : Option Json) : Prop :=
  ∃ retval code, response = some retval ∧ retval.get? "code" = some code ∧ code.eqInt 0 = true

def ccNodeLst? (response : Option Json) : Option Json :=
  (response.bind (fun retval => retval.get? "data")).bind (fun data => data.get? "cc_node_lst")

/-- What the loop over the controllers goes through; none when it is not there
or nothing to go through. -/
def nodeItems? (response : Option Json) : Option (List Json) :=
  (ccNodeLst? response).bind (fun ccnodesInfolst =>
    if ccnodesInfolst.truthy then ccnodesInfolst.items? else some [])

/-- All entries can be read. -/
def Usable (response : Option Json) : Prop :=
  ∃ items, nodeItems? response = some items ∧ ∀ item ∈ items, (node? item).isSome

theorem getcclst_refused {response : Option Json} (h : ¬Accepted response) (s : Globals) :
    getcclst response s = (-1, s) := by
  rw [getcclst, getcclstBody]
  cases response with
  | none => rfl
  | some retval =>
    rw [handled_some]
    cases hcode : retval.get? "code" with
    | none => rfl
    | some code =>
      have hnonzero : ¬code.eqInt 0 = true := fun hzero => h ⟨retval, code, rfl, hcode, hzero⟩
      rw [handled_some, if_neg hnonzero, handled_pure]

theorem getcclst_accepted {response : Option Json} (h : Accepted response) (s : Globals) :
    getcclst response s =
      handled (ofOption (nodeItems? response) >>= fun items =>
        appendNodes items >>= fun _ => pure 0) (-1) { s with enableCcIplst := [] } := by
  obtain ⟨retval, code, rfl, hcode, hzero⟩ := h
  rw [getcclst, getcclstBody, handled_some, hcode, handled_some, if_pos hzero, handled_modify,
    nodeItems?, ccNodeLst?, Option.bind_some]
  cases hdata : retval.get? "data" with
  | none => rfl
  | some data =>
    rw [handled_some, Option.bind_some]
    cases hlst : data.get? "cc_node_lst" with
    | none => rfl
    | some ccnodesInfolst =>
      rw [handled_some, Option.bind_some]
      cases htruthy : ccnodesInfolst.truthy with
      | false => rfl
      | true => rw [if_pos rfl, if_pos rfl]

/-- What is left when the refresh has begun: the addresses in front of the first
entry that raises. -/
theorem getcclst_list {response : Option Json} (h : Accepted response) (s : Globals) :
    (getcclst response s).2 =
      { s with enableCcIplst := appended ((nodeItems? response).getD []) } := by
  rw [getcclst_accepted h]
  cases hitems : nodeItems? response with
  | none => rfl
  | some items =>
    rw [handled_some, handled_appendNodes]
    rfl

theorem getcclst_zero_iff {response : Option Json} (s : Globals) :
    (getcclst response s).1 = 0 ↔ Accepted response ∧ Usable response := by
  constructor
  · intro hzero
    have haccepted : Accepted response := by
      by_contra hrefused
      rw [getcclst_refused hrefused] at hzero
      cases hzero
    refine ⟨haccepted, ?_⟩
    rw [getcclst_accepted haccepted] at hzero
    cases hitems : nodeItems? response with
    | none =>
      rw [hitems, handled_none] at hzero
      cases hzero
    | some items =>
      rw [hitems, handled_some, handled_appendNodes] at hzero
      refine ⟨items, hitems, ?_⟩
      split at hzero
      · next hall => exact List.all_eq_true.mp hall
      · cases hzero
  · rintro ⟨haccepted, items, hitems, hall⟩
    rw [getcclst_accepted haccepted, hitems, handled_some, handled_appendNodes,
      if_pos (List.all_eq_true.mpr hall)]

theorem getcclst_ret (response : Option Json) (s : Globals) :
    (getcclst response s).1 = 0 ∨ (getcclst response s).1 = -1 := by
  by_cases haccepted : Accepted response
  · rw [getcclst_accepted haccepted]
    cases nodeItems? response with
    | none => exact .inr rfl
    | some items =>
      rw [handled_some, handled_appendNodes]
      dsimp only
      split
      · exact .inl rfl
      · exact .inr rfl
  · rw [getcclst_refused haccepted]
    exact .inr rfl

end Refresh

section Configuration

def Json.elements : Json → List Json
  | .list items => items
  | _ => []

/-- The entries of the list of controllers. -/
def entries (response : Option Json) : List Json :=
  ((ccNodeLst? response).map Json.elements).getD []

def enabledNode (item : Json) : Option Json :=
  if (item.get? "enabled").any (fun enabled => enabled.eqInt 1) then item.get? "nodeip" else none

/-- A failed refresh leaves what was there, a successful one has the addresses
of the enabled controllers in their order. -/
structure KeepsLast (cclst games : Option Json) (s : Globals) : Prop where
  cclstFailed : (getcclst cclst s).1 = -1 →
    (getcclst cclst s).2.enableCcIplst = s.enableCcIplst
  gamesFailed : (getgamelst games s).1 = false → (getgamelst games s).2.gamelst = s.gamelst
  refreshed : (getcclst cclst s).1 = 0 →
    (getcclst cclst s).2.enableCcIplst = (entries cclst).filterMap enabledNode

/-- `getgamelst` assigns what it has read to the end. -/
theorem getgamelst_failed (games : Option Json) (s : Globals)
    (h : (getgamelst games s).1 = false) : (getgamelst games s).2.gamelst = s.gamelst := by
  revert h
  rw [getgamelst, getgamelstBody]
  cases games with
  | none => exact fun _ => rfl
  | some retval =>
    rw [handled_some]
    cases retval.get? "code" with
    | none => exact fun _ => rfl
    | some code =>
      rw [handled_some]
      split
      · cases retval.get? "data" with
        | none => exact fun _ => rfl
        | some data =>
          rw [handled_some]
          cases data.get? "gamelist" with
          | none => exact fun _ => rfl
          | some gamelist =>
            intro h
            cases h
      · exact fun _ => rfl

theorem appended_eq {items : List Json} (h : ∀ item ∈ items, (node? item).isSome) :
    appended items = items.filterMap enabledNode := by
  induction items with
  | nil => rfl
  | cons item rest ih =>
    obtain ⟨hitem, hrest⟩ := List.forall_mem_cons.mp h
    obtain ⟨nodeips, hnodeips⟩ := Option.isSome_iff_exists.mp hitem
    rw [appended, hnodeips, Option.elim_some, ih hrest, List.filterMap_cons]
    obtain ⟨enabled, henabled, hnode⟩ := Option.bind_eq_some_iff.mp hnodeips
    rw [enabledNode, henabled, Option.any_some]
    split at hnode
    · next hone =>
      obtain ⟨nodeip, hnodeip, rfl⟩ := Option.map_eq_some_iff.mp hnode
      rw [if_pos hone, hnodeip]
      rfl
    · next hzero =>
      obtain rfl := Option.some.inj hnode
      rw [if_neg hzero]
      rfl

/-- Texts cannot be read as entries. -/
theorem eq_nil_of_texts {texts : List String}
    (h : ∀ item ∈ texts.map Json.str, (node? item).isSome) : texts = [] := by
  cases texts with
  | nil => rfl
  | cons text rest =>
    have hfirst := h (.str text) List.mem_cons_self
    cases hfirst

/-- Only the entries of a list can all be read. -/
theorem Json.elements_of_items {value : Json} {items : List Json}
    (hitems : value.items? = some items) (hall : ∀ item ∈ items, (node? item).isSome) :
    value.elements = items := by
  cases value with
  | list elements => exact Option.some.inj hitems
  | dict members =>
    obtain rfl := Option.some.inj hitems
    have hmap : members.map (fun member => Json.str member.1) =
        (members.map Prod.fst).map Json.str := List.map_map.symm
    rw [hmap] at hall ⊢
    rw [eq_nil_of_texts hall]
    rfl
  | str text =>
    obtain rfl := Option.some.inj hitems
    have hmap : text.toList.map (fun c => Json.str (String.singleton c)) =
        (text.toList.map String.singleton).map Json.str := List.map_map.symm
    rw [hmap] at hall ⊢
    rw [eq_nil_of_texts hall]
    rfl
  | none => cases hitems
  | bool b => cases hitems
  | num q => cases hitems

theorem Json.elements_of_falsy {value : Json} (h : value.truthy = false) :
    value.elements = [] := by
  cases value with
  | list elements =>
    have hempty : elements = [] := by simpa [Json.truthy] using h
    exact hempty
  | _ => rfl

theorem Usable.entries {response : Option Json} (h : Usable response) :
    nodeItems? response = some (entries response) := by
  obtain ⟨items, hitems, hall⟩ := h
  obtain ⟨ccnodesInfolst, hlst, hread⟩ := Option.bind_eq_some_iff.mp hitems
  have helements : ccnodesInfolst.elements = items := by
    cases htruthy : ccnodesInfolst.truthy with
    | false =>
      rw [htruthy] at hread
      rw [Json.elements_of_falsy htruthy]
      exact Option.some.inj hread
    | true =>
      rw [htruthy, if_pos rfl] at hread
      exact Json.elements_of_items hread hall
  rw [hitems, Agent.entries, hlst, Option.map_some, Option.getD_some, helements]

/-- An answer whose second controller has no address. -/
def withoutAddress : Json :=
  .dict [("code", .num 0), ("data", .dict [("cc_node_lst", .list [
    .dict [("nodename", .str "BGP-SM-1-3f7"), ("enabled", .num 1),
      ("nodeip", .str "223.202.197.12")],
    .dict [("nodename", .str "BGP-SM-g-3gk"), ("enabled", .num 1)]])])]

/-- The controllers of the last round. -/
def lastRound : Globals where
  enableCcIplst := [.str "223.202.197.12", .str "163.53.95.199"]
  gamelst := .list []

end Configuration

end GameAcc.Agent
