import RenditionPipeline.Library.Text

/-!
# Paths

Texts that are made of parts with a separator between two of them, such as the
keys of an object storage. As long as no part contains the separator, the path
determines its parts (`RenditionPipeline.Text.join_inj`), and it begins with
another path and a separator just when it goes on from the parts of that one
(`RenditionPipeline.Text.startsWith_join_iff`): directories of a tree of paths
are prefixes, and nothing else is.
-/

namespace RenditionPipeline

namespace Text

/-- The pieces of a text between the occurrences of a character. -/
def split (s : String) (c : Char) : List String := (s.toList.splitOn c).map String.ofList

theorem toList_join (sep : String) (parts : List String) :
    (join sep parts).toList = sep.toList.intercalate (parts.map String.toList) := by
  induction parts with
  | nil => rfl
  | cons s parts ih =>
    cases parts with
    | nil => simp [join]
    | cons t rest =>
      rw [join, String.toList_append, String.toList_append, ih]
      simp [List.intercalate_cons_cons]

section Separator

variable {c : Char} {parts parts' : List String}

/-- No part contains the separator. -/
def Apart (c : Char) (parts : List String) : Prop := ∀ p ∈ parts, c ∉ p.toList

theorem splitOn_join (hne : parts ≠ []) (h : Apart c parts) :
    (join (String.singleton c) parts).toList.splitOn c = parts.map String.toList := by
  rw [toList_join, String.toList_singleton]
  refine List.splitOn_intercalate c (fun l hl => ?_) (by simpa using hne)
  obtain ⟨p, hp, rfl⟩ := List.mem_map.mp hl
  exact h p hp

/-- **Splitting a path gives its parts back.** -/
theorem split_join (hne : parts ≠ []) (h : Apart c parts) :
    split (join (String.singleton c) parts) c = parts := by
  rw [split, splitOn_join hne h, List.map_map]
  exact List.map_id'' (fun s => String.ofList_toList) parts

/-- The pieces of a text do not contain the separator. -/
theorem apart_split (s : String) : Apart c (split s c) := by
  have hpieces : ∀ {cs l : List Char}, l ∈ cs.splitOn c → c ∉ l := by
    intro cs
    induction cs with
    | nil => simp [List.splitOn_nil]
    | cons x cs ih =>
      intro l hl
      rw [List.splitOn_cons_eq_if_modifyHead] at hl
      split at hl
      · rcases List.mem_cons.mp hl with rfl | hl
        · exact List.not_mem_nil
        · exact ih hl
      · rename_i hx
        obtain ⟨first, rest, hsplit⟩ := List.exists_cons_of_ne_nil (List.splitOn_ne_nil c cs)
        rw [hsplit, List.modifyHead_cons] at hl
        rcases List.mem_cons.mp hl with rfl | hl
        · rw [List.mem_cons, not_or]
          exact ⟨fun he => hx (by simp [he]), ih (by simp [hsplit])⟩
        · exact ih (by simp [hsplit, hl])
  intro p hp
  obtain ⟨l, hl, rfl⟩ := List.mem_map.mp hp
  rw [String.toList_ofList]
  exact hpieces hl

/-- A text is made of its pieces. -/
theorem join_split (s : String) : join (String.singleton c) (split s c) = s := by
  rw [← String.toList_inj, toList_join, split, List.map_map, String.toList_singleton]
  have hid : (s.toList.splitOn c).map (String.toList ∘ String.ofList) = s.toList.splitOn c :=
    List.map_id'' (fun l => String.toList_ofList) _
  rw [hid, List.intercalate_splitOn]

/-- **The pieces of a text** are parts without the separator that it is made of. -/
theorem split_eq_iff {s : String} (hne : parts ≠ []) :
    split s c = parts ↔ Apart c parts ∧ s = join (String.singleton c) parts := by
  constructor
  · rintro rfl
    exact ⟨apart_split s, (join_split s).symm⟩
  · rintro ⟨h, rfl⟩
    exact split_join hne h

/-- **A path determines its parts.** -/
theorem join_inj (hne : parts ≠ []) (hne' : parts' ≠ []) (h : Apart c parts)
    (h' : Apart c parts')
    (he : join (String.singleton c) parts = join (String.singleton c) parts') : parts = parts' := by
  rw [← split_join hne h, he, split_join hne' h']

theorem join_append (hne : parts ≠ []) (hne' : parts' ≠ []) (sep : String) :
    join sep (parts ++ parts') = join sep parts ++ sep ++ join sep parts' := by
  induction parts with
  | nil => exact absurd rfl hne
  | cons s parts ih =>
    cases parts with
    | nil =>
      obtain ⟨t, rest, rfl⟩ := List.exists_cons_of_ne_nil hne'
      rfl
    | cons t rest =>
      rw [List.cons_append, List.cons_append, join, ← List.cons_append, ih (by simp), join]
      simp only [String.append_assoc]

/-- **A path lies below another** just when its parts go on from the parts of that
one. -/
theorem startsWith_join_iff (hne : parts ≠ []) (hne' : parts' ≠ []) (h : Apart c parts)
    (h' : Apart c parts') :
    startsWith (join (String.singleton c) parts')
        (join (String.singleton c) parts ++ String.singleton c) = true ↔
      ∃ rest, rest ≠ [] ∧ parts' = parts ++ rest := by
  rw [startsWith_iff]
  constructor
  · rintro ⟨tail, htail⟩
    -- splitting the longer path at the separator after the shorter one
    have hsplit := congrArg (List.splitOn c) htail
    rw [String.toList_append, String.toList_singleton, List.append_assoc, List.singleton_append,
      List.splitOn_append_cons_self, splitOn_join hne h, splitOn_join hne' h'] at hsplit
    refine ⟨(tail.splitOn c).map String.ofList, by simp [List.splitOn_ne_nil], ?_⟩
    have hparts := congrArg (List.map String.ofList) hsplit
    rw [List.map_append, List.map_map, List.map_map] at hparts
    simpa [Function.comp_def] using hparts.symm
  · rintro ⟨rest, hrest, rfl⟩
    rw [join_append hne hrest]
    exact startsWith_iff.mp (startsWith_append _ _)

end Separator

end Text

end RenditionPipeline
