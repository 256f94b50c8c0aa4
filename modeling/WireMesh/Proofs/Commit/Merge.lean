import WireMesh.Commit
import WireMesh.Proofs.Reading

/-!
This module contains what merging pending values comes to. Every member but the hooks takes its
pending value, if there is one. A hook takes the value of the last pending field that sets it: its
own field or the field of all hooks, whichever stands later.
-/

namespace WireMesh

namespace Commit

def hookValue? (hook : Hook) (change : String × Value) : Option Value :=
  if change.1 = hook.key then
    some change.2
  else if change.1 = hooksField then
    (change.2.members?.bind fun more => Entries.get? more hook.key).filter fun v => !v.isNull
  else
    none

/--
Whether a pending value, if it is that of all hooks, is an object with distinct keys.
-/
def SetsHooks (change : String × Value) : Prop :=
  change.1 = hooksField
    → ∃ more, change.2.members? = some more ∧ (Entries.keys more).Nodup

variable {model : Model} {members members' : List (String × Value)}

theorem setMember_eq_ok_iff {field : String} {v : Value}
    : setMember model members field v = .ok members'
        ↔
      field ∈ Entries.keys members ∧ Entries.put members field v = members' := by
  unfold setMember
  split
  . next hmem => simp [hmem]
  . next hmem => simp [hmem]

theorem key_ne_hooksField (hook : Hook) : hook.key ≠ hooksField := by
  cases hook <;> decide

theorem ofKey?_eq_some {field : String} {hook : Hook} (h : Hook.ofKey? field = some hook)
    : field = hook.key := by
  have := List.find?_some h
  rw [beq_iff_eq] at this
  exact this.symm

theorem hookValue?_key (hook : Hook) (v : Value) : hookValue? hook (hook.key, v) = some v :=
  if_pos rfl

theorem hookValue?_hooksField (hook : Hook) (v : Value)
    : hookValue? hook (hooksField, v)
        =
      (v.members?.bind fun more => Entries.get? more hook.key).filter fun v => !v.isNull := by
  unfold hookValue?
  rw [if_neg (key_ne_hooksField hook).symm]
  rw [if_pos rfl]

theorem hookValue?_of_ne {hook : Hook} {field : String} (v : Value) (hkey : field ≠ hook.key)
    (hfield : field ≠ hooksField) : hookValue? hook (field, v) = none := by
  unfold hookValue?
  rw [if_neg hkey]
  rw [if_neg hfield]

theorem mergeField_eq_ok {field : String} {v : Value}
    (h : mergeField model members field v = .ok members')
    : field ∉ immutableFields
        ∧ ((∃ (hook : Hook) (hooks : List (String × Value)), field = hook.key
              ∧ Entries.get? members hooksField = some (.object hooks)
              ∧ members' = Entries.put members hooksField (.object (Entries.put hooks field v)))
          ∨ (∃ hooks more, field = hooksField
              ∧ Entries.get? members hooksField = some (.object hooks)
              ∧ v.members? = some more
              ∧ members' = Entries.put members hooksField
                  (.object (Entries.putAll hooks (more.filter fun entry => !entry.2.isNull))))
          ∨ (field ∈ Entries.keys members
              ∧ members' = Entries.put members field v
              ∧ (field = hooksField → v.members? = none)
              ∧ ∀ hook : Hook, field = hook.key → Entries.get? members hooksField = none)) := by
  unfold mergeField at h
  split at h
  . cases h
  . next himmutable =>
    refine ⟨himmutable, ?_⟩
    -- Only a target with hooks takes the name of a hook as such, so the name alone does not decide.
    split at h
    . next hook hooks hkey hhooks =>
      unfold setHook at h
      split at h
      . cases h
        exact .inl ⟨hook, _, ofKey?_eq_some hkey, hhooks, rfl⟩
      . cases h
    . next hnone =>
      have hhook : ∀ hook : Hook, field = hook.key → Entries.get? members hooksField = none := by
        rintro hook rfl
        rw [Option.eq_none_iff_forall_ne_some]
        intro hooks hhooks
        exact hnone hook hooks hook.ofKey?_key hhooks
      split at h
      . next hfield =>
        split at h
        . next more hmore =>
          unfold mergeHooks at h
          split at h
          . cases h
          . next hooks hhooks =>
            cases h
            exact .inr (.inl ⟨hooks, more, hfield, hhooks, hmore, rfl⟩)
          . cases h
        . next hmore =>
          obtain ⟨hmem, hput⟩ := setMember_eq_ok_iff.1 h
          exact .inr (.inr ⟨hmem, hput.symm, fun _ => hmore, hhook⟩)
      . next hfield =>
        obtain ⟨hmem, hput⟩ := setMember_eq_ok_iff.1 h
        exact .inr (.inr ⟨hmem, hput.symm, fun hf => (hfield hf).elim, hhook⟩)

theorem get?_mergeField {field key : String} {v : Value}
    (h : mergeField model members field v = .ok members') (hkey : key ≠ hooksField)
    (hhook : Hook.ofKey? key = none)
    : Entries.get? members' key = if field = key then some v else Entries.get? members key := by
  obtain ⟨-, ⟨hook, hooks, rfl, -, rfl⟩ | ⟨hooks, more, rfl, -, -, rfl⟩ | ⟨-, rfl, -⟩⟩ :=
    mergeField_eq_ok h
  . rw [Entries.get?_put]
    rw [if_neg hkey.symm]
    rw [if_neg]
    rintro rfl
    rw [Hook.ofKey?_key] at hhook
    cases hhook
  . rw [Entries.get?_put]
    rw [if_neg hkey.symm]
    rw [if_neg hkey.symm]
  . rw [Entries.get?_put]

theorem hooks_mergeField {field : String} {v : Value} {hooks : List (String × Value)}
    (h : mergeField model members field v = .ok members')
    (hhooks : Entries.get? members hooksField = some (.object hooks)) (hsets : SetsHooks (field, v))
    : ∃ hooks', Entries.get? members' hooksField = some (.object hooks')
        ∧ ∀ hook : Hook, Entries.get? hooks' hook.key
            = (hookValue? hook (field, v)).or (Entries.get? hooks hook.key) := by
  obtain ⟨-, ⟨set, _, rfl, hget, rfl⟩ | ⟨_, more, rfl, hget, hmore, rfl⟩ | ⟨-, rfl, hnone, hset⟩⟩ :=
    mergeField_eq_ok h
  . rw [hhooks] at hget
    cases hget
    refine ⟨_, Entries.get?_put_self .., ?_⟩
    intro hook
    rw [Entries.get?_put]
    unfold hookValue?
    split
    . rfl
    . rw [if_neg (key_ne_hooksField set)]
      rfl
  . rw [hhooks] at hget
    cases hget
    obtain ⟨_, hmembers, hnodup⟩ := hsets rfl
    rw [hmore] at hmembers
    cases hmembers
    refine ⟨_, Entries.get?_put_self .., ?_⟩
    intro hook
    rw [Entries.get?_putAll (Entries.nodup_keys_filter hnodup _)]
    rw [Entries.get?_filter hnodup]
    rw [hookValue?_hooksField]
    rw [hmore]
    rfl
  . have hfield : field ≠ hooksField := by
      intro hfield
      obtain ⟨more, hmembers, -⟩ := hsets hfield
      rw [hnone hfield] at hmembers
      cases hmembers
    refine ⟨hooks, ?_, ?_⟩
    . rw [Entries.get?_put]
      rw [if_neg hfield]
      exact hhooks
    . intro hook
      rw [hookValue?_of_ne v _ hfield]
      . rfl
      . intro hkey
        rw [hset hook hkey] at hhooks
        cases hhooks

theorem merge_cons_eq_ok_iff {field : String} {v : Value} {rest : List (String × Value)}
    : merge model members ((field, v) :: rest) = .ok members'
        ↔
      ∃ between, mergeField model members field v = .ok between
        ∧ merge model between rest = .ok members' := by
  rw [merge]
  cases mergeField model members field v with
  | error e => simp
  | ok between => simp

theorem notMem_immutableFields_of_merge {changes : List (String × Value)}
    (h : merge model members changes = .ok members')
    : ∀ field ∈ Entries.keys changes, field ∉ immutableFields := by
  induction changes generalizing members with
  | nil => simp
  | cons change rest ih =>
    obtain ⟨between, hfield, hrest⟩ := merge_cons_eq_ok_iff.1 h
    rw [Entries.keys_cons]
    rw [List.forall_mem_cons]
    exact ⟨(mergeField_eq_ok hfield).1, ih hrest⟩

theorem get?_merge {changes : List (String × Value)} {key : String}
    (h : merge model members changes = .ok members') (hnodup : (Entries.keys changes).Nodup)
    (hkey : key ≠ hooksField) (hhook : Hook.ofKey? key = none)
    : Entries.get? members' key
        =
      (Entries.get? changes key).or (Entries.get? members key) := by
  induction changes generalizing members with
  | nil =>
    cases h
    rfl
  | cons change rest ih =>
    obtain ⟨between, hfield, hrest⟩ := merge_cons_eq_ok_iff.1 h
    rw [Entries.keys_cons, List.nodup_cons] at hnodup
    rw [ih hrest hnodup.2]
    rw [get?_mergeField hfield hkey hhook]
    rw [Entries.get?_cons]
    split
    . next heq =>
      subst heq
      rw [Entries.get?_eq_none_iff.2 hnodup.1]
      rfl
    . rfl

theorem hooks_merge {changes : List (String × Value)} {hooks : List (String × Value)}
    (h : merge model members changes = .ok members')
    (hhooks : Entries.get? members hooksField = some (.object hooks))
    (hsets : ∀ change ∈ changes, SetsHooks change)
    : ∃ hooks', Entries.get? members' hooksField = some (.object hooks')
        ∧ ∀ hook : Hook, Entries.get? hooks' hook.key
            = (changes.reverse.findSome? (hookValue? hook)).or (Entries.get? hooks hook.key) := by
  induction changes generalizing members hooks with
  | nil =>
    cases h
    exact ⟨hooks, hhooks, fun hook => rfl⟩
  | cons change rest ih =>
    rw [List.forall_mem_cons] at hsets
    obtain ⟨between, hfield, hrest⟩ := merge_cons_eq_ok_iff.1 h
    obtain ⟨hooks₁, hhooks₁, hget₁⟩ := hooks_mergeField hfield hhooks hsets.1
    obtain ⟨hooks₂, hhooks₂, hget₂⟩ := ih hrest hhooks₁ hsets.2
    refine ⟨hooks₂, hhooks₂, ?_⟩
    intro hook
    rw [hget₂]
    rw [hget₁]
    rw [List.reverse_cons]
    rw [List.findSome?_append]
    rw [List.findSome?_singleton]
    rw [Option.or_assoc]

theorem patch_eq_ok_iff {α : Type} {read : Value → Checked α} {changes : List (String × Value)}
    {a : α}
    : patch model read members changes = .ok a
        ↔
      ∃ merged, merge model members changes = .ok merged ∧ read (.object merged) = .ok a := by
  unfold patch
  cases merge model members changes with
  | error e => simp
  | ok merged =>
    simp only [Except.ok.injEq, exists_eq_left']
    cases read (.object merged) with
    | ok b => simp
    | faulty faults => simp

variable {α : Type} {changes : List (String × Value)} {name : String} {read : Value → Checked α}
  {a default : α} {old : Value}

theorem required_eq_ok_iff_of_get?
    (hget : Entries.get? members' name = (Entries.get? changes name).or (some old))
    : Members.required members' name read = .ok a
        ↔
      read ((Entries.get? changes name).getD old) = .ok a := by
  rw [Members.required_eq_ok_iff]
  rw [hget, Option.or_some]
  simp

theorem optional_eq_ok_iff_of_get?
    (hget : Entries.get? members' name = (Entries.get? changes name).or (some old))
    : Members.optional members' name read default = .ok a
        ↔
      read ((Entries.get? changes name).getD old) = .ok a := by
  rw [Option.or_some] at hget
  rw [Members.optional_of_get?_eq_some hget]
  exact Checked.under_eq_ok_iff

end Commit

end WireMesh
