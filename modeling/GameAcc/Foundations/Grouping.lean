import Mathlib.Data.List.Perm.Basic
import Mathlib.Data.List.Induction
import Mathlib.Data.List.Nodup

/-!
A table that a loop over rows fills with one item for each key. Each row is
added to the item of its key, which a first row starts. The table is a list of
keys and items; a program that visits it may see the entries in any order, so
the results are stated up to permutation.
-/

namespace GameAcc.Grouping

variable {Key Item Row Out : Type} [DecidableEq Key]

/-- `table[key] = item`. -/
def assign (table : List (Key × Item)) (key : Key) (item : Item) : List (Key × Item) :=
  table.filter (fun entry => entry.1 ≠ key) ++ [(key, item)]

/-- One pass: the item of the row's key, or a new one, with the row added. -/
def addRow (key : Row → Key) (start : Row → Item) (add : Item → Row → Item)
    (table : List (Key × Item)) (row : Row) : List (Key × Item) :=
  assign table (key row) (add ((table.lookup (key row)).getD (start row)) row)

theorem nodup_keys_assign {table : List (Key × Item)} (h : (table.map Prod.fst).Nodup)
    (key : Key) (item : Item) : ((assign table key item).map Prod.fst).Nodup := by
  rw [assign, List.map_append, List.nodup_append]
  refine ⟨h.sublist (List.filter_sublist.map Prod.fst), List.nodup_singleton _, ?_⟩
  intro k hk k' hk'
  obtain ⟨entry, hentry, rfl⟩ := List.mem_map.mp hk
  obtain rfl := List.mem_singleton.mp hk'
  simpa using (List.mem_filter.mp hentry).2

theorem lookup_cons_ite (key key' : Key) (item : Item) (rest : List (Key × Item)) :
    ((key, item) :: rest).lookup key' =
      if key' = key then some item else rest.lookup key' := by
  by_cases h : key' = key
  · rw [if_pos h, List.lookup_cons, beq_iff_eq.mpr h]
  · rw [if_neg h, List.lookup_cons, beq_eq_false_iff_ne.mpr h]

theorem lookup_assign (table : List (Key × Item)) (key key' : Key) (item : Item) :
    (assign table key item).lookup key' =
      if key' = key then some item else table.lookup key' := by
  induction table with
  | nil => exact lookup_cons_ite key key' item []
  | cons entry rest ih =>
    obtain ⟨k, other⟩ := entry
    unfold assign at ih ⊢
    by_cases hk : k = key
    · subst hk
      rw [List.filter_cons_of_neg (by simp), ih, lookup_cons_ite]
      by_cases hkey : key' = k
      · rw [if_pos hkey, if_pos hkey]
      · rw [if_neg hkey, if_neg hkey, if_neg hkey]
    · rw [List.filter_cons_of_pos (by simpa using hk), List.cons_append, lookup_cons_ite,
        lookup_cons_ite, ih]
      by_cases hkey : key' = k
      · subst hkey
        rw [if_pos rfl, if_neg hk, if_pos rfl]
      · rw [if_neg hkey, if_neg hkey]

/-- The entry of a key can be visited last. -/
theorem perm_lookup {table : List (Key × Item)} (h : (table.map Prod.fst).Nodup)
    (key : Key) :
    table.Perm (table.filter (fun entry => entry.1 ≠ key) ++
      ((table.lookup key).map (fun item => (key, item))).toList) := by
  induction table with
  | nil => exact List.Perm.nil
  | cons entry rest ih =>
    obtain ⟨k, item⟩ := entry
    obtain ⟨hnew, hnodup⟩ := List.nodup_cons.mp h
    by_cases hk : k = key
    · subst hk
      have hrest : rest.filter (fun entry => entry.1 ≠ k) = rest := by
        apply List.filter_eq_self.mpr
        intro e he
        have hne : e.1 ≠ k := by
          rintro rfl
          exact hnew (List.mem_map.mpr ⟨e, he, rfl⟩)
        simpa using hne
      have hswap : ((k, item) :: rest).Perm (rest ++ [(k, item)]) :=
        (List.perm_append_singleton (k, item) rest).symm
      rw [List.filter_cons_of_neg (by simp), hrest, List.lookup_cons, beq_self_eq_true]
      exact hswap
    · have hbeq : (key == k) = false := by simpa using Ne.symm hk
      rw [List.filter_cons_of_pos (by simpa using hk), List.lookup_cons, hbeq]
      exact (ih hnodup).cons (k, item)

/-- Where the keys are distinct, an entry is what its key is looked up to. -/
theorem mem_iff_lookup {table : List (Key × Item)} (h : (table.map Prod.fst).Nodup)
    {key : Key} {item : Item} : (key, item) ∈ table ↔ table.lookup key = some item := by
  have hmem := @List.Perm.mem_iff _ (key, item) _ _ (perm_lookup h key)
  constructor
  · intro hentry
    have hlast := hmem.mp hentry
    simpa using hlast
  · intro hlookup
    apply hmem.mpr
    simp [hlookup]

/-- Rows taken key by key are the rows with one of the keys. -/
theorem flatMap_filter_perm {keys : List Key} (h : keys.Nodup) (key : Row → Key)
    (rows : List Row) :
    (keys.flatMap (fun k => rows.filter (fun row => key row = k))).Perm
      (rows.filter (fun row => keys.any (fun k => key row = k))) := by
  induction keys with
  | nil => simp
  | cons k rest ih =>
    obtain ⟨hnew, hrest⟩ := List.nodup_cons.mp h
    have hfirst : (rows.filter (fun row => (k :: rest).any (fun k => key row = k))).filter
        (fun row => key row = k) = rows.filter (fun row => key row = k) := by
      rw [List.filter_filter]
      apply List.filter_congr
      intro row _
      by_cases hk : key row = k <;> simp [hk]
    have hothers : (rows.filter (fun row => (k :: rest).any (fun k => key row = k))).filter
        (fun row => !decide (key row = k)) =
          rows.filter (fun row => rest.any (fun k => key row = k)) := by
      rw [List.filter_filter]
      apply List.filter_congr
      intro row _
      by_cases hk : key row = k
      · have hother : ∀ x ∈ rest, k ≠ x := fun x hx heq => hnew (heq ▸ hx)
        simpa [hk] using hother
      · simp [hk]
    have hsplit := List.filter_append_perm (fun row => decide (key row = k))
      (rows.filter (fun row => (k :: rest).any (fun k => key row = k)))
    rw [hfirst, hothers] at hsplit
    rw [List.flatMap_cons]
    exact ((ih hrest).append_left _).trans hsplit

section Fold

variable {key : Row → Key} {start : Row → Item} {add : Item → Row → Item}
  {Fits : Key → Item → Prop} {out : Item → List Out} {value : Row → Out}

/-- What a table holds after the rows: items that fit their keys, one for each
key, whose contents together are the rows. -/
structure Grouped (Fits : Key → Item → Prop) (out : Item → List Out) (value : Row → Out)
    (rows : List Row) (table : List (Key × Item)) : Prop where
  nodup : (table.map Prod.fst).Nodup
  fits : ∀ entry ∈ table, Fits entry.1 entry.2
  contents : (table.flatMap (fun entry => out entry.2)).Perm (rows.map value)

/-- Adding a row to the right item keeps the table grouped. -/
theorem Grouped.addRow {rows : List Row} {table : List (Key × Item)}
    (h : Grouped Fits out value rows table) (row : Row) (hstart : out (start row) = [])
    (hadd : ∀ item, item = start row ∨ Fits (key row) item →
      Fits (key row) (add item row) ∧ out (add item row) = out item ++ [value row]) :
    Grouped Fits out value (rows ++ [row]) (addRow key start add table row) := by
  have hitem : (table.lookup (key row)).getD (start row) = start row ∨
      Fits (key row) ((table.lookup (key row)).getD (start row)) := by
    cases hlookup : table.lookup (key row) with
    | none => exact .inl rfl
    | some item =>
      obtain ⟨before, after, hsplit, _⟩ := List.lookup_eq_some_iff.mp hlookup
      exact .inr (h.fits (key row, item) (by rw [hsplit]; simp))
  obtain ⟨hfits, hout⟩ := hadd _ hitem
  refine ⟨nodup_keys_assign h.nodup _ _, ?_, ?_⟩
  · intro entry hentry
    rcases List.mem_append.mp hentry with hold | hnew
    · exact h.fits entry (List.mem_filter.mp hold).1
    · obtain rfl := List.mem_singleton.mp hnew
      exact hfits
  · have hold : (table.flatMap (fun entry => out entry.2)).Perm
        ((table.filter (fun entry => entry.1 ≠ key row)).flatMap (fun entry => out entry.2) ++
          out ((table.lookup (key row)).getD (start row))) := by
      have hperm := (perm_lookup h.nodup (key row)).flatMap_right (fun entry => out entry.2)
      cases hlookup : table.lookup (key row) with
      | none => simpa [hlookup, hstart] using hperm
      | some item => simpa [hlookup] using hperm
    have hnew : (Grouping.addRow key start add table row).flatMap (fun entry => out entry.2) =
        (table.filter (fun entry => entry.1 ≠ key row)).flatMap (fun entry => out entry.2) ++
          out ((table.lookup (key row)).getD (start row)) ++ [value row] := by
      rw [Grouping.addRow, assign, List.flatMap_append, List.flatMap_singleton, hout,
        List.append_assoc]
    rw [hnew, List.map_append]
    exact (hold.symm.trans h.contents).append_right [value row]

/-- The table after all rows. -/
theorem grouped_foldl (hstart : ∀ row, out (start row) = [])
    (hadd : ∀ row item, item = start row ∨ Fits (key row) item →
      Fits (key row) (add item row) ∧ out (add item row) = out item ++ [value row])
    (rows : List Row) :
    Grouped Fits out value rows (rows.foldl (Grouping.addRow key start add) []) := by
  induction rows using List.reverseRecOn with
  | nil => exact ⟨List.nodup_nil, by simp, List.Perm.nil⟩
  | append_singleton rows row ih =>
    rw [List.foldl_append, List.foldl_cons, List.foldl_nil]
    exact ih.addRow row (hstart row) (hadd row)

end Fold

end GameAcc.Grouping
