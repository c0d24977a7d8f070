import GameAcc.Foundations.Numeral
import Mathlib.Data.List.DropRight

/-!
Texts put together from parts with a separator. Keys, fields, lists of
addresses and detection records are all of this kind, in three languages. The
file fixes what splitting gives back: a text joined from parts that are free of
the separator splits into exactly those parts, which is how a joined text
determines its parts.
-/

namespace GameAcc.Text

/-- `s.split(sep)`: the pieces between the separators, empty ones included. -/
def split (sep : Char) (s : String) : List String :=
  (s.toList.splitOn sep).map String.ofList

/-- The text does not contain the character. -/
def Free (sep : Char) (s : String) : Prop := sep ∉ s.toList

instance (sep : Char) (s : String) : Decidable (Free sep s) := by
  unfold Free; infer_instance

/-- `s.strip(sep)`: the separators removed at both ends. -/
def strip (sep : Char) (s : String) : String :=
  String.ofList ((s.toList.dropWhile (· == sep)).rdropWhile (· == sep))

/-- The pieces of a text that are not empty. -/
def fields (sep : Char) (s : String) : List String :=
  (split sep s).filter (fun part => part ≠ "")

theorem split_ne_nil (sep : Char) (s : String) : split sep s ≠ [] := by
  simp [split, List.splitOn_ne_nil]

theorem split_free {sep : Char} {s : String} (h : Free sep s) :
    split sep s = [s] := by
  simp [split, List.splitOn_eq_singleton h]

/-- A text with a single piece is that piece. -/
theorem eq_of_split_singleton {sep : Char} {s w : String} (h : split sep s = [w]) :
    s = w := by
  have hjoin : [sep].intercalate (s.toList.splitOn sep) = s.toList :=
    List.intercalate_splitOn sep
  obtain ⟨cs, hcs, hw⟩ := List.map_eq_singleton_iff.mp h
  rw [hcs, List.intercalate_singleton] at hjoin
  rw [← hw, hjoin, String.ofList_toList]

theorem split_injective (sep : Char) : Function.Injective (split sep) := by
  intro a b h
  have hjoin : ∀ s : String, [sep].intercalate (s.toList.splitOn sep) = s.toList :=
    fun _ => List.intercalate_splitOn sep
  have hlists : a.toList.splitOn sep = b.toList.splitOn sep := by
    apply List.map_injective_iff.mpr _ h
    intro x y hxy
    have hlist := congrArg String.toList hxy
    simpa using hlist
  rw [← String.toList_inj, ← hjoin a, ← hjoin b, hlists]

theorem split_append (sep : Char) (a b : String) :
    split sep (a ++ String.singleton sep ++ b) = split sep a ++ split sep b := by
  have hlist : (a ++ String.singleton sep ++ b).toList =
      a.toList ++ sep :: b.toList := by simp
  rw [split, hlist, List.splitOn_append_cons_self, List.map_append]
  rfl

theorem mem_splitOn_free {sep : Char} (cs : List Char) :
    ∀ part ∈ cs.splitOn sep, sep ∉ part := by
  induction cs with
  | nil => simp
  | cons c cs ih =>
    rw [List.splitOn_cons_eq_if_modifyHead]
    split
    · next h =>
      intro part hpart
      rcases List.mem_cons.mp hpart with rfl | htail
      · exact List.not_mem_nil
      · exact ih part htail
    · next h =>
      obtain ⟨first, rest, hsplit⟩ := List.exists_cons_of_ne_nil (List.splitOn_ne_nil sep cs)
      rw [hsplit] at ih ⊢
      intro part hpart
      rcases List.mem_cons.mp hpart with rfl | htail
      · intro hmem
        rcases List.mem_cons.mp hmem with rfl | hfirst
        · simp at h
        · exact ih first List.mem_cons_self hfirst
      · exact ih part (List.mem_cons_of_mem first htail)

theorem free_of_mem_split {sep : Char} {s part : String}
    (h : part ∈ split sep s) : Free sep part := by
  obtain ⟨cs, hcs, rfl⟩ := List.mem_map.mp h
  simpa [Free] using mem_splitOn_free s.toList cs hcs

theorem mem_of_mem_splitOn {sep c : Char} (cs : List Char) :
    ∀ part ∈ cs.splitOn sep, c ∈ part → c ∈ cs := by
  induction cs with
  | nil => simp
  | cons d ds ih =>
    rw [List.splitOn_cons_eq_if_modifyHead]
    split
    · intro part hpart hc
      rcases List.mem_cons.mp hpart with rfl | htail
      · cases hc
      · exact List.mem_cons_of_mem d (ih part htail hc)
    · obtain ⟨first, rest, hsplit⟩ := List.exists_cons_of_ne_nil (List.splitOn_ne_nil sep ds)
      rw [hsplit] at ih ⊢
      intro part hpart hc
      rcases List.mem_cons.mp hpart with rfl | htail
      · rcases List.mem_cons.mp hc with rfl | hfirst
        · exact List.mem_cons_self
        · exact List.mem_cons_of_mem d (ih first List.mem_cons_self hfirst)
      · exact List.mem_cons_of_mem d (ih part (List.mem_cons_of_mem first htail) hc)

/-- A piece of a text that is free of another character is free of it, too. -/
theorem free_of_free_split {sep other : Char} {s part : String}
    (h : part ∈ split sep s) (hfree : Free other s) : Free other part := by
  intro hc
  obtain ⟨cs, hcs, rfl⟩ := List.mem_map.mp h
  rw [String.toList_ofList] at hc
  exact hfree (mem_of_mem_splitOn s.toList cs hcs hc)

/-- Parts that are free of the separator are read back from their joined text. -/
theorem split_intercalate {sep : Char} {parts : List String}
    (hfree : ∀ part ∈ parts, Free sep part) (hne : parts ≠ []) :
    split sep ((String.singleton sep).intercalate parts) = parts := by
  have hclean : ∀ cs ∈ parts.map String.toList, sep ∉ cs := by
    intro cs hcs
    obtain ⟨part, hpart, rfl⟩ := List.mem_map.mp hcs
    exact hfree part hpart
  have hmap : parts.map String.toList ≠ [] := by simpa using hne
  have hsplit := List.splitOn_intercalate sep hclean hmap
  rw [split, String.toList_intercalate, String.toList_singleton, hsplit]
  simp [Function.comp_def]

theorem intercalate_split (sep : Char) (s : String) :
    (String.singleton sep).intercalate (split sep s) = s := by
  apply split_injective sep
  exact split_intercalate (fun _ => free_of_mem_split) (split_ne_nil sep s)

/-- Splitting a joined text splits its parts one by one. -/
theorem split_intercalate_flatMap (sep : Char) {parts : List String}
    (hne : parts ≠ []) :
    split sep ((String.singleton sep).intercalate parts) =
      parts.flatMap (split sep) := by
  induction parts with
  | nil => exact absurd rfl hne
  | cons part rest ih =>
    cases rest with
    | nil => simp
    | cons next rest =>
      rw [String.intercalate_cons_cons, split_append, ih (List.cons_ne_nil next rest)]
      rfl

theorem fields_append (sep : Char) (a b : String) :
    fields sep (a ++ String.singleton sep ++ b) = fields sep a ++ fields sep b := by
  rw [fields, split_append, List.filter_append]
  rfl

theorem fields_empty (sep : Char) : fields sep "" = [] := by
  simp [fields, split]

theorem fields_intercalate {sep : Char} {parts : List String}
    (hfree : ∀ part ∈ parts, Free sep part) (hempty : ∀ part ∈ parts, part ≠ "") :
    fields sep ((String.singleton sep).intercalate parts) = parts := by
  by_cases hne : parts = []
  · subst hne
    exact fields_empty sep
  · rw [fields, split_intercalate hfree hne]
    exact List.filter_eq_self.mpr (by simpa using hempty)

theorem fields_leading (sep : Char) (s : String) :
    fields sep (String.singleton sep ++ s) = fields sep s := by
  have h := fields_append sep "" s
  rwa [String.empty_append, fields_empty, List.nil_append] at h

theorem fields_trailing (sep : Char) (s : String) :
    fields sep (s ++ String.singleton sep) = fields sep s := by
  have h := fields_append sep s ""
  rwa [String.append_empty, fields_empty, List.append_nil] at h

theorem fields_dropWhile (sep : Char) (cs : List Char) :
    fields sep (String.ofList (cs.dropWhile (· == sep))) =
      fields sep (String.ofList cs) := by
  induction cs with
  | nil => rfl
  | cons c cs ih =>
    by_cases hc : c = sep
    · subst hc
      have hcons : String.ofList (c :: cs) = String.singleton c ++ String.ofList cs := by
        apply String.ext
        simp
      rw [List.dropWhile_cons_of_pos (by simp), ih, hcons, fields_leading]
    · rw [List.dropWhile_cons_of_neg (by simpa using hc)]

theorem fields_rdropWhile (sep : Char) (cs : List Char) :
    fields sep (String.ofList (cs.rdropWhile (· == sep))) =
      fields sep (String.ofList cs) := by
  induction cs using List.reverseRecOn with
  | nil => rfl
  | append_singleton cs c ih =>
    by_cases hc : c = sep
    · subst hc
      have hsnoc : String.ofList (cs ++ [c]) = String.ofList cs ++ String.singleton c := by
        apply String.ext
        simp
      rw [List.rdropWhile_concat_pos _ _ _ (by simp), ih, hsnoc, fields_trailing]
    · rw [List.rdropWhile_concat_neg _ _ _ (by simpa using hc)]

/-- Stripping separators at the ends loses no piece. -/
theorem fields_strip (sep : Char) (s : String) :
    fields sep (strip sep s) = fields sep s := by
  rw [strip, fields_rdropWhile, fields_dropWhile, String.ofList_toList]

theorem free_append {sep : Char} {a b : String} (ha : Free sep a) (hb : Free sep b) :
    Free sep (a ++ b) := by
  simpa [Free, String.toList_append] using And.intro ha hb

/-- No separator of the system occurs in the decimal text of an integer. -/
theorem free_decimal {sep : Char} (n : Int) (hsign : sep ≠ '-')
    (hdigit : sep.isDigit = false) : Free sep (Numeral.decimal n) := by
  intro hmem
  rcases Numeral.decimal_chars n sep hmem with h | h
  · exact hsign h
  · simp [hdigit] at h

theorem decimal_injective : Function.Injective Numeral.decimal := by
  intro a b h
  have hread := congrArg (fun s => Numeral.readInt s.toList) h
  simpa only [Numeral.readInt_decimal, Option.some.injEq] using hread

end GameAcc.Text
