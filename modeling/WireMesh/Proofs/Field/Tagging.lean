import WireMesh.Proofs.Field.HookByHook
import WireMesh.Proofs.Value.Rearranged

/-!
This module contains that tagging a value and taking the plain form undo each other. The plain form
of a tagged value is the value that was tagged, up to the order of members, and the plain form of a
field value is tagged as that field value again. There are two exceptions to the latter: a group
that has exactly the keys of a switch, and a switch whose flag is no truth value.
-/

namespace WireMesh

namespace Value

theorem plainMembers_rearranged {members : List (String × Value)}
    (h : ∀ entry ∈ members, entry.2.toPlain.Rearranged entry.2)
    : (object (plainMembers members)).Rearranged (.object members) := by
  apply Rearranged.object
  . rw [keys_plainMembers]
  . intro key v w hv hw
    rw [get?_plainMembers, hw] at hv
    cases hv
    exact h _ (Entries.mem_of_get?_eq_some hw)

-- The proofs follow the recursion of `isPlain`: a value, the members of an object.
mutual

theorem toPlain_rearranged {v : Value} (h : v.isPlain = true) : v.toPlain.Rearranged v := by
  cases v with
  | object members =>
    cases hf : Field.ofValue? (.object members) with
    | none =>
      rw [toPlain_of_ofValue?_eq_none hf]
      exact .refl _
    | some f =>
      rw [toPlain_of_ofValue? hf]
      cases f with
      | text s => cases (Field.ofValue?_eq_text_iff h).1 hf
      | toggle flag value =>
        obtain ⟨b, rfl⟩ := Field.flag_of_isPlain h hf
        obtain ⟨_, ⟨⟩, hperm⟩ := (Field.ofValue?_eq_toggle_iff h).1 hf
        exact .of_perm hperm.symm (isPlain_object_iff.1 h).1
      | group others =>
        cases Field.eq_object_of_isPlain h hf
        exact plainMembers_rearranged (toPlain_rearranged_of_mem (Field.isPlain_group h hf).2)
  | null => exact .refl _
  | bool b => exact .refl _
  | int n => exact .refl _
  | real x => exact .refl _
  | text s => exact .refl _
  | list items => exact .refl _
  | _ => cases h
termination_by structural v

theorem toPlain_rearranged_of_mem {members : List (String × Value)}
    (h : haveMembersPlain members = true)
    : ∀ entry ∈ members, entry.2.toPlain.Rearranged entry.2 := by
  cases members with
  | nil => exact List.forall_mem_nil _
  | cons entry rest =>
    rw [haveMembersPlain, Bool.and_eq_true] at h
    rw [List.forall_mem_cons]
    exact ⟨toPlain_rearranged h.1, toPlain_rearranged_of_mem h.2⟩
termination_by structural members

end

end Value

namespace Field

def holdsPlain : Field → Bool
  | .text _ => true
  | .toggle _ value => value.isPlain
  | .group members => (Value.object members).isPlain

inductive Rearranged : Field → Field → Prop where
  | refl (f : Field) : Rearranged f f
  | group {members others : List (String × Value)}
      (object : (Value.object members).Rearranged (.object others))
      : Rearranged (.group members) (.group others)

/--
Whether the plain form of a field value has another shape, or none: a group with exactly the keys of
a switch looks like a switch, and a switch whose flag is no truth value looks like nothing.
-/
def LosesShape : Field → Prop
  | .text _ => False
  | .toggle flag _ => ∀ b, flag ≠ .bool b
  | .group members => (Entries.keys members).Perm ["enabled", "value"]

variable {f g : Field}

theorem plain_rearranged (h : f.holdsPlain = true) : f.plain.Rearranged f := by
  cases f with
  | text s => exact .refl _
  | toggle flag value => exact .refl _
  | group members =>
    apply Rearranged.group
    apply Value.plainMembers_rearranged
    intro entry hentry
    exact Value.toPlain_rearranged ((Value.isPlain_object_iff.1 h).2 entry hentry)

theorem exists_flag_of_not_losesShape {flag value : Value} (h : ¬ (toggle flag value).LosesShape)
    : ∃ b, flag = .bool b := by
  obtain ⟨b, hb⟩ := not_forall.1 h
  exact ⟨b, Classical.not_not.1 hb⟩

theorem ofValue?_toPlain_of_not_losesShape (hplain : f.holdsPlain = true) (h : ¬ f.LosesShape)
    : ofValue? f.toPlain = some f.plain := by
  cases f with
  | text s => rfl
  | toggle flag value =>
    obtain ⟨b, rfl⟩ := exists_flag_of_not_losesShape h
    rfl
  | group members =>
    have hpair := (pair?_eq_none_iff (Value.isPlain_object_iff.1 hplain).1).2 h
    exact ofMembers?_plainMembers hpair

theorem exists_toggle_of_losesShape (hplain : f.holdsPlain = true) (h : f.LosesShape)
    (hg : ofValue? f.toPlain = some g) : ∃ b value, g = .toggle (.bool b) value := by
  cases f with
  | text s => exact h.elim
  | toggle flag value =>
    obtain hg | ⟨-, hpair⟩ := ofMembers?_eq_some hg
    . exact hg
    . cases hpair
  | group members =>
    obtain hg | ⟨-, hpair⟩ := ofMembers?_eq_some hg
    . exact hg
    . rw [pair?_plainMembers, Option.map_eq_none_iff] at hpair
      exact ((pair?_eq_none_iff (Value.isPlain_object_iff.1 hplain).1).1 hpair h).elim

theorem not_rearranged_of_losesShape (hplain : f.holdsPlain = true) (h : f.LosesShape)
    (hg : ofValue? f.toPlain = some g) : ¬ g.Rearranged f := by
  obtain ⟨b, value, rfl⟩ := exists_toggle_of_losesShape hplain h hg
  intro hsame
  cases hsame
  exact h b rfl

theorem Rearranged.same_toValue (h : g.Rearranged f) (hplain : f.holdsPlain = true)
    (hshape : ¬ f.LosesShape) : g.toValue.same f.toValue = true := by
  cases h with
  | refl f =>
    cases f with
    | text s => exact beq_self_eq_true s
    | toggle flag value =>
      obtain ⟨b, rfl⟩ := exists_flag_of_not_losesShape hshape
      rw [toValue, Value.same, Bool.and_eq_true]
      exact ⟨beq_self_eq_true _, Value.same_self hplain⟩
    | group members => exact Value.same_self (v := .object members) hplain
  | group hobject => exact hobject.same hplain

end Field

theorem toPlain_inverts_tagging
    : (∀ (v : Value) (f : Field), v.isPlain = true → Field.ofValue? v = some f
          → f.toPlain.Rearranged v ∧ f.toPlain.same v = true)
      ∧ (∀ f : Field, f.holdsPlain = true
          → (¬ f.LosesShape
              → ∃ g, Field.ofValue? f.toPlain = some g ∧ g.Rearranged f
                ∧ g.toValue.same f.toValue = true)
            ∧ (f.LosesShape → ∀ g, Field.ofValue? f.toPlain = some g → ¬ g.Rearranged f))
      ∧ (∀ o : Override, (Field.ofValue? (.override o)).map Field.toPlain = some o.toValue)
      ∧ ∀ h : Hooks, (Field.ofValue? (.hooks h)).map Field.toPlain = some h.toValue := by
  refine ⟨?_, ?_, ?_, ?_⟩
  . intro v f hplain hf
    rw [← Value.toPlain_of_ofValue? hf]
    have hsame := Value.toPlain_rearranged hplain
    exact ⟨hsame, hsame.same hplain⟩
  . intro f hplain
    constructor
    . intro hshape
      have hsame := Field.plain_rearranged hplain
      exact ⟨f.plain, Field.ofValue?_toPlain_of_not_losesShape hplain hshape, hsame,
        hsame.same_toValue hplain hshape⟩
    . intro hshape g hg
      exact Field.not_rearranged_of_losesShape hplain hshape hg
  . intro o
    rfl
  . intro h
    rfl

def mixedMembers : List (String × Value) :=
  [("pre_up", .object [("value", .text "echo up;"), ("enabled", .bool true)]),
   ("post_up", .object [("enabled", .int 1), ("value", .null)]),
   ("more", .object
     [("dns", .object [("value", .list [.text "10.0.0.1"]), ("enabled", .bool false)])])]

def switchMembers : List (String × Value) :=
  [("value", .null), ("enabled", .bool true)]

theorem toPlain_inverts_tagging_mixed
    : (Value.object mixedMembers).isPlain = true
      ∧ Field.ofValue? (.object mixedMembers) = some (.group mixedMembers)
      ∧ (Field.group mixedMembers).toPlain.Rearranged (.object mixedMembers)
      ∧ (Field.group mixedMembers).toPlain.same (.object mixedMembers) = true
      ∧ (Field.group mixedMembers).holdsPlain = true
      ∧ (∃ g, Field.ofValue? (Field.group mixedMembers).toPlain = some g
          ∧ g.Rearranged (.group mixedMembers)
          ∧ g.toValue.same (Field.group mixedMembers).toValue = true)
      ∧ (Field.group switchMembers).holdsPlain = true
      ∧ Field.ofValue? (Field.group switchMembers).toPlain = some (.toggle (.bool true) .null)
      ∧ ¬ (Field.toggle (.bool true) .null).Rearranged (.group switchMembers) := by
  have hplain : (Value.object mixedMembers).isPlain = true := rfl
  have htag : Field.ofValue? (.object mixedMembers) = some (.group mixedMembers) := rfl
  have hshape : ¬ (Field.group mixedMembers).LosesShape := by
    unfold Field.LosesShape
    decide
  have hlost : (Field.group switchMembers).LosesShape := List.Perm.swap _ _ _
  obtain ⟨hsame, heq⟩ := toPlain_inverts_tagging.1 _ _ hplain htag
  have hfound := (toPlain_inverts_tagging.2.1 (.group mixedMembers) rfl).1 hshape
  have hother := (toPlain_inverts_tagging.2.1 (.group switchMembers) rfl).2 hlost _ rfl
  exact ⟨hplain, htag, hsame, heq, rfl, hfound, rfl, rfl, hother⟩

end WireMesh
