import Mathlib.Data.List.Basic

/-!
This module contains that a list which is sorted by texts ascends, and does so strictly if the texts
are distinct, and that items may be left out before the list is sorted or after it.
-/

namespace WireMesh.Text

variable {α : Type}

theorem decide_le_trans (key : α → String) (a b c : α) (hab : decide (key a ≤ key b) = true)
    (hbc : decide (key b ≤ key c) = true) : decide (key a ≤ key c) = true := by
  rw [decide_eq_true_eq] at hab hbc ⊢
  exact String.le_trans hab hbc

theorem decide_le_total (key : α → String) (a b : α)
    : (decide (key a ≤ key b) || decide (key b ≤ key a)) = true := by
  rw [Bool.or_eq_true, decide_eq_true_eq, decide_eq_true_eq]
  exact String.le_total (key a) (key b)

theorem pairwise_le_mergeSort (key : α → String) (items : List α)
    : (items.mergeSort fun a b => decide (key a ≤ key b)).Pairwise fun a b => key a ≤ key b := by
  have hsorted := List.pairwise_mergeSort (decide_le_trans key) (decide_le_total key) items
  simp only [decide_eq_true_eq] at hsorted
  exact hsorted

theorem pairwise_lt_mergeSort (key : α → String) {items : List α} (h : (items.map key).Nodup)
    : (items.mergeSort fun a b => decide (key a ≤ key b)).Pairwise fun a b => key a < key b := by
  have hperm := List.mergeSort_perm items fun a b => decide (key a ≤ key b)
  rw [← (hperm.map key).nodup_iff] at h
  apply ((pairwise_le_mergeSort key items).and (List.pairwise_map.1 h)).imp
  rintro a b ⟨hle, hne⟩
  rw [← String.not_le]
  intro hge
  exact hne (String.le_antisymm hle hge)

theorem exists_mergeSort_cons (key : α → String) (item : α) (items : List α)
    : ∃ below above, (items.mergeSort fun a b => decide (key a ≤ key b)) = below ++ above
        ∧ ((item :: items).mergeSort fun a b => decide (key a ≤ key b)) = below ++ item :: above
        ∧ (∀ b ∈ below, decide (key item ≤ key b) = false)
        ∧ ∀ b ∈ above, decide (key item ≤ key b) = true := by
  obtain ⟨below, above, hcons, hitems, hbelow⟩ :=
    List.mergeSort_cons (decide_le_trans key) (decide_le_total key) item items
  refine ⟨below, above, hitems, hcons, fun b hb => ?_, fun b hb => ?_⟩
  . rw [← Bool.not_eq_true']
    exact hbelow b hb
  . have hsorted := pairwise_le_mergeSort key (item :: items)
    rw [hcons, List.pairwise_append, List.pairwise_cons] at hsorted
    rw [decide_eq_true_eq]
    exact hsorted.2.1.1 b hb

theorem eq_of_append_eq_append {p : α → Bool} {below above below' above' : List α}
    (h : below ++ above = below' ++ above') (hbelow : ∀ a ∈ below, p a = false)
    (habove : ∀ a ∈ above, p a = true) (hbelow' : ∀ a ∈ below', p a = false)
    (habove' : ∀ a ∈ above', p a = true) : below = below' ∧ above = above' := by
  have hfilter := congrArg (List.filter p) h
  rw [List.filter_append, List.filter_append] at hfilter
  rw [List.filter_eq_self.2 habove, List.filter_eq_self.2 habove'] at hfilter
  rw [List.filter_eq_nil_iff.2 (by simpa using hbelow)] at hfilter
  rw [List.filter_eq_nil_iff.2 (by simpa using hbelow')] at hfilter
  rw [List.nil_append, List.nil_append] at hfilter
  subst hfilter
  exact ⟨List.append_cancel_right h, rfl⟩

theorem mergeSort_filter (key : α → String) (p : α → Bool) (items : List α)
    : ((items.filter p).mergeSort fun a b => decide (key a ≤ key b))
        =
      (items.mergeSort fun a b => decide (key a ≤ key b)).filter p := by
  -- This is so because sorting keeps the order of items with the same text.
  induction items with
  | nil => simp
  | cons item rest ih =>
    obtain ⟨below, above, hrest, hcons, hbelow, habove⟩ := exists_mergeSort_cons key item rest
    rw [hrest, List.filter_append] at ih
    rw [hcons, List.filter_append]
    cases hp : p item with
    | false =>
      rw [List.filter_cons_of_neg (by simp [hp]), List.filter_cons_of_neg (by simp [hp])]
      exact ih
    | true =>
      rw [List.filter_cons_of_pos hp, List.filter_cons_of_pos hp]
      obtain ⟨below', above', hrest', hcons', hbelow', habove'⟩ :=
        exists_mergeSort_cons key item (rest.filter p)
      rw [ih] at hrest'
      obtain ⟨rfl, rfl⟩ := eq_of_append_eq_append hrest'
        (fun b hb => hbelow b (List.mem_of_mem_filter hb))
        (fun b hb => habove b (List.mem_of_mem_filter hb)) hbelow' habove'
      exact hcons'

end WireMesh.Text
