import GameAcc.Foundations.Text
import Mathlib.Data.List.TakeWhile

/-!
Lists joined with a separator behind every part, and then stripped. Stripping
removes the empty parts at the two ends and keeps those between parts that are
not empty, so the pieces of the result are those of the parts exactly when no
empty part stands between two others.
-/

namespace GameAcc.Text

section Inner

variable {α : Type*} {p : α → Bool}

/-- The part of a list from the first to the last element without the property. -/
def inner (p : α → Bool) (l : List α) : List α := (l.dropWhile p).rdropWhile p

/-- An element with the property that has elements without it on both sides. -/
def Between (p : α → Bool) (l : List α) : Prop :=
  ∃ before x after, l = before ++ x :: after ∧ p x = true ∧
    (∃ b ∈ before, p b = false) ∧ ∃ a ∈ after, p a = false

theorem dropWhile_append_of_mem {l l' : List α} (h : ∃ b ∈ l, p b = false) :
    (l ++ l').dropWhile p = l.dropWhile p ++ l' := by
  rw [List.dropWhile_append, if_neg]
  intro hempty
  obtain ⟨b, hb, hfalse⟩ := h
  have hall := List.dropWhile_eq_nil_iff.mp (List.isEmpty_iff.mp hempty)
  simp [hall b hb] at hfalse

theorem rdropWhile_append_of_mem {l l' : List α} (h : ∃ b ∈ l', p b = false) :
    (l ++ l').rdropWhile p = l ++ l'.rdropWhile p := by
  obtain ⟨b, hb, hfalse⟩ := h
  rw [List.rdropWhile, List.reverse_append,
    dropWhile_append_of_mem ⟨b, List.mem_reverse.mpr hb, hfalse⟩, List.reverse_append,
    List.reverse_reverse]
  rfl

theorem exists_inner_iff {l : List α} :
    (∃ x ∈ inner p l, p x = true) ↔ Between p l := by
  constructor
  · rintro ⟨x, hx, htrue⟩
    obtain ⟨before, after, hsplit⟩ := List.append_of_mem hx
    have hne : inner p l ≠ [] := by
      rw [hsplit]
      simp
    have hdrop : l.dropWhile p ≠ [] := by
      intro hnil
      simp [inner, hnil] at hne
    obtain ⟨tail, htail⟩ : ∃ tail, before ++ x :: after ++ tail = l.dropWhile p := by
      rw [← hsplit]
      exact List.rdropWhile_prefix p _
    refine ⟨l.takeWhile p ++ before, x, after ++ tail, ?_, htrue, ?_, ?_⟩
    · calc l = l.takeWhile p ++ l.dropWhile p := List.takeWhile_append_dropWhile.symm
        _ = l.takeWhile p ++ before ++ x :: (after ++ tail) := by simp [← htail]
    · have hfirst := List.head_dropWhile_not p hdrop
      cases before with
      | nil =>
        simp [← htail, htrue] at hfirst
      | cons b rest =>
        refine ⟨b, List.mem_append_right _ List.mem_cons_self, ?_⟩
        simpa [← htail] using hfirst
    · have hlast := List.rdropWhile_last_not p (l.dropWhile p) hne
      rcases List.eq_nil_or_concat after with rfl | ⟨rest, a, rfl⟩
      · have hgetLast : (inner p l).getLast hne = x := by
          simp [hsplit]
        exact absurd htrue (hgetLast ▸ hlast)
      · have hgetLast : (inner p l).getLast hne = a := by
          simp [hsplit]
        refine ⟨a, by simp, ?_⟩
        have hfalse : ¬p a = true := hgetLast ▸ hlast
        simpa using hfalse
  · rintro ⟨before, x, after, rfl, htrue, hbefore, hafter⟩
    refine ⟨x, ?_, htrue⟩
    obtain ⟨a, ha, hfalse⟩ := hafter
    rw [inner, dropWhile_append_of_mem hbefore,
      rdropWhile_append_of_mem ⟨a, List.mem_cons_of_mem x ha, hfalse⟩]
    apply List.mem_append_right
    have hcons : (x :: after).rdropWhile p = x :: after.rdropWhile p :=
      @rdropWhile_append_of_mem α p [x] after ⟨a, ha, hfalse⟩
    rw [hcons]
    exact List.mem_cons_self

instance (p : α → Bool) (l : List α) : Decidable (Between p l) :=
  decidable_of_iff (∃ x ∈ inner p l, p x = true) exists_inner_iff

theorem between_map {β : Type*} {f : β → α} {l : List β} :
    Between p (l.map f) ↔ Between (p ∘ f) l := by
  constructor
  · rintro ⟨before, x, after, hsplit, htrue, ⟨b, hb, hfalse⟩, a, ha, hfalse'⟩
    obtain ⟨before, rest, rfl, rfl, hrest⟩ := List.map_eq_append_iff.mp hsplit
    obtain ⟨x, after, rfl, rfl, rfl⟩ := List.map_eq_cons_iff.mp hrest
    obtain ⟨y, hy, rfl⟩ := List.mem_map.mp hb
    obtain ⟨z, hz, rfl⟩ := List.mem_map.mp ha
    exact ⟨before, x, after, rfl, htrue, ⟨y, hy, hfalse⟩, z, hz, hfalse'⟩
  · rintro ⟨before, x, after, rfl, htrue, ⟨b, hb, hfalse⟩, a, ha, hfalse'⟩
    exact ⟨before.map f, f x, after.map f, by simp, htrue,
      ⟨f b, List.mem_map_of_mem hb, hfalse⟩, f a, List.mem_map_of_mem ha, hfalse'⟩

end Inner

section Joined

variable {sep : Char}

def isEmpty (part : String) : Bool := part = ""

/-- The parts with the separator behind each. -/
def joined (sep : Char) (parts : List String) : String :=
  parts.foldl (fun acc part => acc ++ part ++ String.singleton sep) ""

/-- A part that neither begins nor ends with the separator. -/
structure Closed (sep : Char) (part : String) : Prop where
  first : part.toList.head? ≠ some sep
  last : part.toList.getLast? ≠ some sep

theorem joined_snoc (parts : List String) (part : String) :
    joined sep (parts ++ [part]) = joined sep parts ++ part ++ String.singleton sep := by
  simp [joined, List.foldl_append]

theorem joined_toList (parts : List String) :
    (joined sep parts).toList = parts.flatMap (fun part => part.toList ++ [sep]) := by
  induction parts using List.reverseRecOn with
  | nil => rfl
  | append_singleton parts part ih =>
    rw [joined_snoc]
    simp [ih]

theorem intercalate_toList_snoc (parts : List String) (part : String) :
    ((String.singleton sep).intercalate (parts ++ [part])).toList =
      (joined sep parts).toList ++ part.toList := by
  induction parts with
  | nil => simp [joined]
  | cons first rest ih =>
    have hcons : (String.singleton sep).intercalate (first :: (rest ++ [part])) =
        first ++ String.singleton sep ++ (String.singleton sep).intercalate (rest ++ [part]) := by
      cases rest with
      | nil => exact String.intercalate_cons_cons
      | cons second rest => exact String.intercalate_cons_cons
    rw [List.cons_append, hcons, String.toList_append, ih, joined_toList, joined_toList]
    simp

theorem dropWhile_joined {parts : List String} (h : ∀ part ∈ parts, Closed sep part) :
    (joined sep parts).toList.dropWhile (· == sep) =
      (joined sep (parts.dropWhile isEmpty)).toList := by
  rw [joined_toList, joined_toList]
  induction parts with
  | nil => rfl
  | cons part rest ih =>
    have hrest := ih (fun q hq => h q (List.mem_cons_of_mem part hq))
    by_cases hempty : part = ""
    · subst hempty
      simpa [isEmpty] using hrest
    · obtain ⟨c, cs, hcs⟩ := List.exists_cons_of_ne_nil
        (mt String.toList_eq_nil_iff.mp hempty)
      have hne : c ≠ sep := by
        have hfirst := (h part List.mem_cons_self).first
        simpa [hcs] using hfirst
      rw [List.dropWhile_cons_of_neg (by simpa [isEmpty] using hempty), List.flatMap_cons, hcs]
      simp [hne]

theorem rdropWhile_joined {parts : List String} (h : ∀ part ∈ parts, Closed sep part) :
    (joined sep parts).toList.rdropWhile (· == sep) =
      ((String.singleton sep).intercalate (parts.rdropWhile isEmpty)).toList := by
  induction parts using List.reverseRecOn with
  | nil => rfl
  | append_singleton parts part ih =>
    have hrest := ih (fun q hq => h q (List.mem_append_left _ hq))
    have hsnoc : (joined sep (parts ++ [part])).toList.rdropWhile (· == sep) =
        ((joined sep parts).toList ++ part.toList).rdropWhile (· == sep) := by
      rw [joined_snoc, String.toList_append, String.toList_append, String.toList_singleton,
        List.rdropWhile_concat_pos _ _ _ (by simp)]
    rw [hsnoc]
    by_cases hempty : part = ""
    · subst hempty
      rw [List.rdropWhile_concat_pos _ _ _ (by simp [isEmpty]), String.toList_empty,
        List.append_nil, hrest]
    · obtain ⟨cs, c, hcs⟩ := List.eq_nil_or_concat part.toList |>.resolve_left
        (mt String.toList_eq_nil_iff.mp hempty)
      have hne : c ≠ sep := by
        have hlast := (h part (by simp)).last
        simpa [hcs] using hlast
      rw [List.rdropWhile_concat_neg _ _ _ (by simpa [isEmpty] using hempty),
        intercalate_toList_snoc, hcs, List.concat_eq_append, ← List.append_assoc,
        List.rdropWhile_concat_neg _ _ _ (by simpa using hne)]

/-- Stripping what was joined removes the empty parts at the ends. -/
theorem strip_joined {parts : List String} (h : ∀ part ∈ parts, Closed sep part) :
    strip sep (joined sep parts) =
      (String.singleton sep).intercalate (inner isEmpty parts) := by
  apply String.ext
  rw [strip, String.toList_ofList, dropWhile_joined h, rdropWhile_joined, inner]
  intro part hpart
  exact h part ((List.dropWhile_sublist isEmpty).subset hpart)

end Joined

section Elements

variable {sep : Char} {parts : List String}

/-- The elements of a joined list; an empty text has none. -/
def elements (sep : Char) (s : String) : List String :=
  if s = "" then [] else split sep s

/-- No element is empty. -/
def Proper (sep : Char) (s : String) : Prop := "" ∉ elements sep s

theorem elements_empty (sep : Char) : elements sep "" = [] := if_pos rfl

theorem elements_of_ne {s : String} (h : s ≠ "") : elements sep s = split sep s := if_neg h

theorem fields_eq_filter (s : String) :
    fields sep s = (elements sep s).filter (fun part => part ≠ "") := by
  by_cases h : s = ""
  · rw [h, fields_empty, elements_empty, List.filter_nil]
  · rw [elements_of_ne h, fields]

/-- A text is proper when its elements are its pieces that are not empty. -/
theorem elements_eq_fields_iff {s : String} :
    elements sep s = fields sep s ↔ Proper sep s := by
  rw [fields_eq_filter, Proper]
  constructor
  · intro h hmem
    rw [h] at hmem
    simp at hmem
  · intro h
    symm
    apply List.filter_eq_self.mpr
    intro part hpart
    have hne : part ≠ "" := by
      rintro rfl
      exact h hpart
    simpa using hne

theorem split_empty (sep : Char) : split sep "" = [""] := by
  simp [split]

theorem Proper.closed {s : String} (h : Proper sep s) : Closed sep s := by
  constructor
  · intro hfirst
    obtain ⟨cs, hcs⟩ := List.head?_eq_some_iff.mp hfirst
    have hs : s = "" ++ String.singleton sep ++ String.ofList cs := by
      apply String.ext
      simp [hcs]
    have hne : s ≠ "" := by
      rintro rfl
      simp at hcs
    apply h
    rw [elements_of_ne hne, hs, split_append, split_empty]
    simp
  · intro hlast
    obtain ⟨cs, hcs⟩ := List.getLast?_eq_some_iff.mp hlast
    have hs : s = String.ofList cs ++ String.singleton sep ++ "" := by
      apply String.ext
      simp [hcs]
    have hne : s ≠ "" := by
      rintro rfl
      simp at hcs
    apply h
    rw [elements_of_ne hne, hs, split_append, split_empty]
    simp

/-- Joined pieces that are not empty make a proper text. -/
theorem proper_intercalate (hfree : ∀ part ∈ parts, Free sep part)
    (hempty : ∀ part ∈ parts, part ≠ "") :
    elements sep ((String.singleton sep).intercalate parts) = parts ∧
      Proper sep ((String.singleton sep).intercalate parts) := by
  have helements : elements sep ((String.singleton sep).intercalate parts) = parts := by
    by_cases hne : parts = []
    · subst hne
      exact elements_empty sep
    · have hsplit := split_intercalate hfree hne
      have hjoined : (String.singleton sep).intercalate parts ≠ "" := by
        intro hnil
        rw [hnil, split_empty] at hsplit
        exact hempty "" (by simp [← hsplit]) rfl
      rw [elements_of_ne hjoined, hsplit]
  refine ⟨helements, ?_⟩
  intro hmem
  rw [helements] at hmem
  exact hempty "" hmem rfl

theorem fields_joined (parts : List String) :
    fields sep (joined sep parts) = parts.flatMap (fields sep) := by
  induction parts using List.reverseRecOn with
  | nil => exact fields_empty sep
  | append_singleton parts part ih =>
    have hjoin : fields sep (joined sep parts ++ part) =
        fields sep (joined sep parts) ++ fields sep part := by
      rcases List.eq_nil_or_concat parts with rfl | ⟨rest, last, rfl⟩
      · simp [joined, fields_empty]
      · rw [List.concat_eq_append, joined_snoc, fields_append, fields_trailing]
    rw [joined_snoc, fields_trailing, hjoin, ih, List.flatMap_append, List.flatMap_singleton]

/-- The elements of what is stripped are the pieces of the inner parts. -/
theorem elements_strip_joined (h : ∀ part ∈ parts, Proper sep part) :
    "" ∈ elements sep (strip sep (joined sep parts)) ↔ Between isEmpty parts := by
  have hclosed : ∀ part ∈ parts, Closed sep part := fun part hpart => (h part hpart).closed
  have hinner : ∀ part ∈ inner isEmpty parts, part ∈ parts := fun part hpart =>
    (List.dropWhile_sublist isEmpty).subset ((List.rdropWhile_prefix _ _).subset hpart)
  rw [strip_joined hclosed, ← exists_inner_iff]
  by_cases hnil : inner isEmpty parts = []
  · have hempty : (String.singleton sep).intercalate ([] : List String) = "" := rfl
    rw [hnil, hempty, elements_empty]
    simp
  · have hsplit := split_intercalate_flatMap sep hnil
    constructor
    · intro hmem
      by_cases hs : (String.singleton sep).intercalate (inner isEmpty parts) = ""
      · rw [hs, elements_empty] at hmem
        cases hmem
      rw [elements_of_ne hs, hsplit, List.mem_flatMap] at hmem
      obtain ⟨part, hpart, hpiece⟩ := hmem
      refine ⟨part, hpart, ?_⟩
      by_contra hfull
      have hne : part ≠ "" := by simpa [isEmpty] using hfull
      apply h part (hinner part hpart)
      rwa [elements_of_ne hne]
    · rintro ⟨part, hpart, hempty⟩
      have hmem : "" ∈ split sep ((String.singleton sep).intercalate (inner isEmpty parts)) := by
        obtain rfl : part = "" := by simpa [isEmpty] using hempty
        rw [hsplit, List.mem_flatMap]
        exact ⟨"", hpart, by simp [split_empty]⟩
      have hs : (String.singleton sep).intercalate (inner isEmpty parts) ≠ "" := by
        obtain ⟨before, x, after, hparts, _, ⟨b, hb, hfull⟩, _⟩ :=
          exists_inner_iff.mp ⟨part, hpart, hempty⟩
        have hbparts : b ∈ parts := by simp [hparts, hb]
        have hne : b ≠ "" := by simpa [isEmpty] using hfull
        intro hnone
        have hfields : fields sep b = [] := by
          have hall := @fields_joined sep parts
          rw [← fields_strip, strip_joined hclosed, hnone, fields_empty] at hall
          exact List.flatMap_eq_nil_iff.mp hall.symm b hbparts
        rw [← elements_eq_fields_iff.mpr (h b hbparts), elements_of_ne hne] at hfields
        exact split_ne_nil sep b hfields
      rwa [elements_of_ne hs]

/-- No element is lost, merged or empty exactly when no empty part stands
between two others. -/
theorem elements_strip_joined_iff (h : ∀ part ∈ parts, Proper sep part) :
    elements sep (strip sep (joined sep parts)) = parts.flatMap (elements sep) ↔
      ¬Between isEmpty parts := by
  have hparts : parts.flatMap (elements sep) = fields sep (strip sep (joined sep parts)) := by
    rw [fields_strip, fields_joined]
    exact List.flatMap_congr (fun part hpart => elements_eq_fields_iff.mpr (h part hpart))
  rw [hparts, elements_eq_fields_iff, Proper, elements_strip_joined h]

end Elements

end GameAcc.Text
