import WireMesh.Proofs.Field.Reported

/-!
This module contains the check of all hooks at once. A group of hooks is accepted if and only if the
script of every hook is accepted under the field of that hook, and it is reported with the same
scripts.
-/

namespace WireMesh

open Value

theorem Value.plainMembers_wireMembers (members : List (ConnectionId × Value))
    : plainMembers (Field.wireMembers members) = plainLinks members := by
  induction members with
  | nil => rfl
  | cons entry rest ih =>
    unfold Field.wireMembers at ih ⊢
    rw [List.map_cons]
    rw [plainMembers]
    rw [plainLinks]
    rw [ih]

theorem Value.toPlain_of_ofValue? {v : Value} {f : Field} (h : Field.ofValue? v = some f)
    : v.toPlain = f.toPlain := by
  cases v with
  | object members =>
    change Field.ofMembers? members = some f at h
    rw [toPlain]
    rw [h]
    unfold Field.ofMembers? at h
    split at h
    . cases h
      rfl
    . cases h
    . cases h
      rfl
  | links members =>
    cases h
    rw [toPlain]
    rw [← plainMembers_wireMembers]
    rfl
  | text s => cases h; rfl
  | mobility m => cases h; rfl
  | override o => cases h; rfl
  | hooks hooks => cases h; rfl
  | textField s => cases h; rfl
  | toggleField flag value => cases h; rfl
  | groupField members => cases h; rfl
  | _ => cases h

theorem Value.get?_plainMembers (members : List (String × Value)) (key : String)
    : Entries.get? (plainMembers members) key = (Entries.get? members key).map toPlain := by
  induction members with
  | nil => rfl
  | cons entry rest ih =>
    obtain ⟨k, v⟩ := entry
    rw [plainMembers]
    rw [Entries.get?_cons, Entries.get?_cons]
    split
    . rfl
    . exact ih

theorem Value.keys_plainMembers (members : List (String × Value))
    : Entries.keys (plainMembers members) = Entries.keys members := by
  induction members with
  | nil => rfl
  | cons entry rest ih =>
    obtain ⟨k, v⟩ := entry
    rw [plainMembers]
    rw [Entries.keys_cons, Entries.keys_cons]
    rw [ih]

theorem Value.isPlain_of_get? {members : List (String × Value)} {key : String} {v : Value}
    (hplain : haveMembersPlain members = true) (h : Entries.get? members key = some v)
    : v.isPlain = true :=
  haveMembersPlain_iff.1 hplain _ (Entries.mem_of_get?_eq_some h)

theorem Field.eq_object_of_isPlain {v : Value} {members : List (String × Value)}
    (hplain : v.isPlain = true) (h : ofValue? v = some (.group members)) : v = .object members := by
  cases v with
  | object more =>
    change ofMembers? more = _ at h
    unfold ofMembers? at h
    split at h
    . cases h
    . cases h
    . cases h
      rfl
  | hooks hooks => cases hplain
  | links members => cases hplain
  | groupField members => cases hplain
  | _ => cases h

theorem Field.isPlain_group {v : Value} {members : List (String × Value)}
    (hplain : v.isPlain = true) (h : ofValue? v = some (.group members))
    : (Entries.keys members).Nodup ∧ haveMembersPlain members = true := by
  rw [eq_object_of_isPlain hplain h] at hplain
  rw [isPlain, Bool.and_eq_true, decide_eq_true_eq] at hplain
  exact hplain

namespace ToggleRule

theorem script_apply_eq_accepted {f : Field} {reported : Value}
    (h : script.apply f = .ok (.accepted reported))
    : (∃ flag value, f = .toggle flag value) ∧ reported = f.toPlain := by
  obtain ⟨flag, value, rfl, hreported⟩ := apply_eq_accepted_iff.1 h
  refine ⟨⟨flag, value, rfl⟩, ?_⟩
  split at hreported
  . obtain ⟨normal, haccept, rfl⟩ := hreported
    have haccept := Except.ok.inj haccept
    split at haccept
    . cases haccept
      rfl
    . cases haccept
  . exact hreported

end ToggleRule

namespace Rule

theorem applyHooks_eq_accepted_iff {members : List (String × Value)} {hooks : List Hook}
    {reported : Value}
    : applyHooks members hooks = .ok (.accepted reported)
        ↔
      (∀ hook ∈ hooks, ∃ v f, Entries.get? members hook.key = some v ∧ Field.ofValue? v = some f
          ∧ ToggleRule.script.apply f = .ok (.accepted f.toPlain))
        ∧ reported = .object (plainMembers members) := by
  induction hooks with
  | nil =>
    simp only [applyHooks, Except.ok.injEq, Ruling.accepted.injEq, List.not_mem_nil, false_implies,
      implies_true, true_and]
    exact eq_comm
  | cons hook rest ih =>
    rw [applyHooks]
    rw [List.forall_mem_cons]
    cases hv : Entries.get? members hook.key with
    | none => simp
    | some v =>
      dsimp only
      cases hf : Field.ofValue? v with
      | none => simp [hf]
      | some f =>
        dsimp only
        split
        . next hscript => simp [hf, hscript]
        . next hscript => simp [hf, hscript]
        . next again hscript =>
          obtain ⟨-, rfl⟩ := ToggleRule.script_apply_eq_accepted hscript
          rw [ih]
          simp [hf, hscript]

end Rule

section Group

variable {context : Option Context}

theorem reported_group {v reported : Value}
    (h : validate "scripts" v context = .ok (.accepted reported))
    : ∃ members, Field.ofValue? v = some (.group members)
        ∧ reported = .object (plainMembers members)
        ∧ ∀ hook : Hook, ∃ w, Entries.get? members hook.key = some w
            ∧ validate hook.key w context = .ok (.accepted w.toPlain) := by
  obtain ⟨_, f, ⟨⟩, hf, hbreak, happly⟩ := validate_eq_accepted_iff.1 h
  cases f with
  | text s => cases happly
  | toggle flag value => cases happly
  | group members =>
    obtain ⟨hall, rfl⟩ := Rule.applyHooks_eq_accepted_iff.1 happly
    refine ⟨members, hf, rfl, ?_⟩
    intro hook
    obtain ⟨w, g, hw, hg, hscript⟩ := hall hook hook.mem_all
    refine ⟨w, hw, ?_⟩
    rw [validate_eq_accepted_iff]
    rw [toPlain_of_ofValue? hg]
    refine ⟨_, g, Rule.ofField?_key hook, hg, ?_, hscript⟩
    -- The group has been searched for line breaks; its members have not.
    have hmember := List.any_eq_false.1 hbreak _ (Entries.mem_of_get?_eq_some hw)
    obtain ⟨⟨flag, value, rfl⟩, -⟩ := ToggleRule.script_apply_eq_accepted hscript
    rw [hg] at hmember
    exact eq_false_of_ne_true hmember

theorem accepts_hooks_iff {hooks : Hooks}
    : Accepts "scripts" (.hooks hooks) context
        ↔
      ∀ hook : Hook, Accepts hook.key (.override (hooks.get hook)) context := by
  constructor
  . rintro ⟨reported, hreported⟩ hook
    obtain ⟨_, ⟨⟩, -, hall⟩ := reported_group hreported
    obtain ⟨w, hw, haccepted⟩ := hall hook
    rw [hooks.get?_members] at hw
    cases hw
    exact ⟨_, haccepted⟩
  . intro h
    have hscript : ∀ hook : Hook, (hooks.get hook).value.toValue.hasLineBreak = false
        ∧ ∃ reported, ToggleRule.script.apply
            (.toggle (.bool (hooks.get hook).enabled) (hooks.get hook).value.toValue)
          = .ok (.accepted reported) := by
      intro hook
      have hf : Field.ofValue? (.override (hooks.get hook)) = some
          (.toggle (.bool (hooks.get hook).enabled) (hooks.get hook).value.toValue) := rfl
      exact (accepts_iff (Rule.ofField?_key hook) hf).1 (h hook)
    rw [@accepts_iff _ _ _ .hooks _ rfl rfl]
    constructor
    . apply List.any_eq_false.2
      intro entry hentry
      obtain ⟨hook, -, rfl⟩ := List.mem_map.1 hentry
      exact ne_true_of_eq_false (hscript hook).1
    . refine ⟨_, Rule.applyHooks_eq_accepted_iff.2 ⟨?_, rfl⟩⟩
      intro hook _
      refine ⟨_, _, hooks.get?_members hook, Field.ofValue?_toValue _, ?_⟩
      obtain ⟨reported, hreported⟩ := (hscript hook).2
      obtain ⟨-, rfl⟩ := ToggleRule.script_apply_eq_accepted hreported
      exact hreported

end Group

end WireMesh
