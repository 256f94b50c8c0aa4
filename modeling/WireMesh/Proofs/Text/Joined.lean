import WireMesh.Text.Split

/-!
This module contains texts that consist of parts with a separator between them. As long as no part
holds the separator, cutting the text gives back the parts it was put together from.
-/

namespace WireMesh.Text

variable {sep : Char} {cs : List Char} {parts : List (List Char)}

theorem length_splitOn (sep : Char) (cs : List Char)
    : (cs.splitOn sep).length = cs.count sep + 1 := by
  induction cs with
  | nil => rfl
  | cons c rest ih =>
    rw [List.splitOn_cons_eq_if_modifyHead]
    rw [List.count_cons]
    split
    . rw [List.length_cons]
      rw [ih]
    . rw [List.length_modifyHead]
      rw [ih]

theorem splitOn_eq_pair_iff {before after : List Char}
    : cs.splitOn sep = [before, after]
        ↔
      cs = before ++ sep :: after ∧ sep ∉ before ∧ sep ∉ after := by
  constructor
  . intro h
    have hjoin : [sep].intercalate (cs.splitOn sep) = cs := List.intercalate_splitOn sep
    have hcount := length_splitOn sep cs
    rw [h] at hjoin hcount
    have hcs : cs = before ++ sep :: after := by
      rw [← hjoin]
      simp
    refine ⟨hcs, ?_⟩
    rw [hcs] at hcount
    rw [List.count_append, List.count_cons_self] at hcount
    rw [← List.count_eq_zero, ← List.count_eq_zero]
    simp only [List.length_cons, List.length_nil] at hcount
    omega
  . rintro ⟨rfl, hbefore, hafter⟩
    rw [List.splitOn_append_cons_self_of_not_mem hbefore]
    rw [List.splitOn_eq_singleton hafter]

theorem mem_intercalate {c : Char} (h : c ∈ [sep].intercalate parts)
    : c = sep ∨ ∃ part ∈ parts, c ∈ part := by
  induction parts with
  | nil => cases h
  | cons part rest ih =>
    cases rest with
    | nil =>
      rw [List.intercalate_singleton] at h
      exact .inr ⟨part, List.mem_singleton_self part, h⟩
    | cons next rest =>
      rw [List.intercalate_cons_cons] at h
      grind

theorem exists_intercalate_concat (sep : Char) (front : List (List Char)) (last : List Char)
    : ∃ before, [sep].intercalate (front ++ [last]) = before ++ last := by
  induction front with
  | nil => exact ⟨[], List.intercalate_singleton⟩
  | cons part rest ih =>
    obtain ⟨before, hbefore⟩ := ih
    refine ⟨part ++ sep :: before, ?_⟩
    rw [List.cons_append]
    rw [List.intercalate_cons_of_ne_nil (by simp)]
    rw [hbefore]
    simp

theorem splitOn_eq_iff (h : ∀ part ∈ parts, sep ∉ part)
    : cs.splitOn sep = parts ↔ parts ≠ [] ∧ cs = [sep].intercalate parts := by
  constructor
  . rintro rfl
    exact ⟨List.splitOn_ne_nil sep cs, (List.intercalate_splitOn sep).symm⟩
  . rintro ⟨hne, rfl⟩
    exact List.splitOn_intercalate sep h hne

theorem forall_mem_splitOn_iff {form : List Char → Prop} (h : ∀ part, form part → sep ∉ part)
    : (∀ part ∈ cs.splitOn sep, form part)
        ↔
      ∃ parts, parts ≠ [] ∧ (∀ part ∈ parts, form part) ∧ cs = [sep].intercalate parts := by
  constructor
  . intro hforms
    exact ⟨cs.splitOn sep, List.splitOn_ne_nil sep cs, hforms, (List.intercalate_splitOn sep).symm⟩
  . rintro ⟨parts, hne, hforms, hcs⟩
    rw [(splitOn_eq_iff fun part hpart => h part (hforms part hpart)).2 ⟨hne, hcs⟩]
    exact hforms

end WireMesh.Text
