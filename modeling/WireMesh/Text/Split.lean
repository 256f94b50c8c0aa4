/-!
This module contains the ways in which a text is cut at a separator: at its first occurrence, at its
last one, and at both ends.
-/

namespace WireMesh.Text

def splitFirst (sep : Char) (cs : List Char) : Option (List Char × List Char) :=
  match cs with
  | [] => none
  | c :: rest =>
    if c = sep then
      some ([], rest)
    else
      match splitFirst sep rest with
      | some (before, after) => some (c :: before, after)
      | none => none

def splitLast (sep : Char) (cs : List Char) : Option (List Char × List Char) :=
  match cs with
  | [] => none
  | c :: rest =>
    match splitLast sep rest with
    | some (before, after) => some (c :: before, after)
    | none => if c = sep then some ([], rest) else none

def trimRight (fill : Char) (cs : List Char) : List Char :=
  (cs.reverse.dropWhile (· = fill)).reverse

def trim (fill : Char) (cs : List Char) : List Char :=
  trimRight fill (cs.dropWhile (· = fill))

theorem splitFirst_eq_some_iff {sep : Char} {cs before after : List Char}
    : splitFirst sep cs = some (before, after) ↔ cs = before ++ sep :: after ∧ sep ∉ before := by
  induction cs generalizing before with
  | nil => simp [splitFirst]
  | cons c rest ih =>
    unfold splitFirst
    by_cases hc : c = sep
    · cases before <;> grind
    · cases before with
      | nil => cases h : splitFirst sep rest <;> simp [hc]
      | cons d tail =>
        specialize @ih tail
        cases h : splitFirst sep rest <;> grind

theorem splitLast_eq_none_iff {sep : Char} {cs : List Char}
    : splitLast sep cs = none ↔ sep ∉ cs := by
  induction cs with
  | nil => simp [splitLast]
  | cons c rest ih =>
    unfold splitLast
    cases h : splitLast sep rest <;> grind

theorem splitLast_eq_some_iff {sep : Char} {cs before after : List Char}
    : splitLast sep cs = some (before, after) ↔ cs = before ++ sep :: after ∧ sep ∉ after := by
  induction cs generalizing before with
  | nil => simp [splitLast]
  | cons c rest ih =>
    have hnone := @splitLast_eq_none_iff sep rest
    unfold splitLast
    cases before with
    | nil => cases h : splitLast sep rest <;> grind
    | cons d tail =>
      specialize @ih tail
      cases h : splitLast sep rest <;> grind

theorem dropWhile_replicate_append {fill : Char} {rest : List Char} (h : rest.head? ≠ some fill)
    (count : Nat) : (List.replicate count fill ++ rest).dropWhile (· = fill) = rest := by
  induction count with
  | zero =>
    cases rest with
    | nil => rfl
    | cons c rest =>
      have hc : c ≠ fill := by simpa using h
      simp [hc]
  | succ count ih => simpa [List.replicate_succ] using ih

theorem exists_replicate_append_dropWhile (fill : Char) (cs : List Char)
    : ∃ count, cs = List.replicate count fill ++ cs.dropWhile (· = fill) := by
  induction cs with
  | nil => exact ⟨0, rfl⟩
  | cons c rest ih =>
    by_cases hc : c = fill
    . obtain ⟨count, hrest⟩ := ih
      refine ⟨count + 1, ?_⟩
      rw [List.dropWhile_cons_of_pos (by simpa using hc)]
      rw [List.replicate_succ, List.cons_append]
      rw [← hrest, hc]
    . refine ⟨0, ?_⟩
      rw [List.dropWhile_cons_of_neg (by simpa using hc)]
      rfl

theorem trimRight_append_replicate {fill : Char} {core : List Char}
    (h : core.getLast? ≠ some fill) (count : Nat)
    : trimRight fill (core ++ List.replicate count fill) = core := by
  unfold trimRight
  rw [List.reverse_append, List.reverse_replicate]
  rw [dropWhile_replicate_append (by rw [List.head?_reverse]; exact h)]
  rw [List.reverse_reverse]

theorem exists_trimRight_append_replicate (fill : Char) (cs : List Char)
    : ∃ count, cs = trimRight fill cs ++ List.replicate count fill := by
  obtain ⟨count, hcount⟩ := exists_replicate_append_dropWhile fill cs.reverse
  refine ⟨count, ?_⟩
  have h := congrArg List.reverse hcount
  rw [List.reverse_reverse] at h
  rw [List.reverse_append, List.reverse_replicate] at h
  exact h

theorem trim_eq_iff {fill : Char} {cs core : List Char} (hhead : core.head? ≠ some fill)
    (hlast : core.getLast? ≠ some fill)
    : trim fill cs = core
        ↔
      ∃ before after, cs
        = List.replicate before fill ++ core ++ List.replicate after fill := by
  unfold trim
  constructor
  . rintro rfl
    obtain ⟨before, hbefore⟩ := exists_replicate_append_dropWhile fill cs
    obtain ⟨after, hafter⟩ := exists_trimRight_append_replicate fill (cs.dropWhile (· = fill))
    refine ⟨before, after, ?_⟩
    rw [List.append_assoc]
    rw [← hafter]
    exact hbefore
  . rintro ⟨before, after, rfl⟩
    cases core with
    | nil =>
      rw [List.append_nil, List.replicate_append_replicate]
      rw [← List.append_nil (List.replicate (before + after) fill)]
      rw [dropWhile_replicate_append hhead]
      rfl
    | cons c rest =>
      rw [List.append_assoc]
      rw [dropWhile_replicate_append (by simpa using hhead)]
      exact trimRight_append_replicate hlast after

end WireMesh.Text
