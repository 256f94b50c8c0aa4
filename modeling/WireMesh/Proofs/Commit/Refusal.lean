import WireMesh.Proofs.Commit.Patch
import WireMesh.Proofs.ConnectionId.Canonical

/-!
This module contains how a commit fails. It is refused, with the reason, unless it comes upon hooks
that are not there: one of a peer is set after all of them have been replaced by something that is
no object, or all of them are to be merged into a connection. A change is reached only if those
before it are merged.
-/

namespace WireMesh

def CommitError.isRefusal : CommitError → Bool
  | .hooksReplaced _ | .noHooks => false
  | _ => true

def Peer.ownFields : List String :=
  ["name", "address", "mobility", "endpoint", "private_key", "public_key", "dns", "mtu",
    "persistent_keepalive"]

def Connection.ownFields : List String :=
  ["enabled", "pre_shared_key", "allowed_ips_a_to_b", "allowed_ips_b_to_a", "persistent_keepalive"]

namespace Commit

def Settles (outcome : Except CommitError Network) : Prop :=
  (∃ n, outcome = .ok n) ∨ ∃ e, outcome = .error e ∧ e.isRefusal = true

theorem settles_iff {outcome : Except CommitError Network}
    : Settles outcome ↔ ¬ ∃ e, outcome = .error e ∧ e.isRefusal = false := by
  unfold Settles
  cases outcome with
  | ok n => simp
  | error e => simp

/--
Whether `found` holds of some change and those behind it, and the fields of all before it pass.
-/
def Reaches (passes : String → Prop) (found : String × Value → List (String × Value) → Prop)
    (changes : List (String × Value)) : Prop :=
  ∃ before change after, changes = before ++ change :: after
    ∧ (∀ earlier ∈ before, passes earlier.1) ∧ found change after

section Reaches

variable {passes : String → Prop} {found : String × Value → List (String × Value) → Prop}
  {change : String × Value} {changes rest : List (String × Value)}

theorem not_reaches_nil : ¬ Reaches passes found [] := by
  rintro ⟨before, change, after, heq, -⟩
  cases before with
  | nil => cases heq
  | cons earlier before => cases heq

theorem reaches_cons_iff
    : Reaches passes found (change :: rest)
        ↔
      found change rest ∨ (passes change.1 ∧ Reaches passes found rest) := by
  constructor
  . rintro ⟨before, reached, after, heq, hpasses, hfound⟩
    cases before with
    | nil =>
      cases heq
      exact .inl hfound
    | cons earlier before =>
      cases heq
      rw [List.forall_mem_cons] at hpasses
      exact .inr ⟨hpasses.1, before, reached, after, rfl, hpasses.2, hfound⟩
  . rintro (hfound | ⟨hpass, before, reached, after, rfl, hpasses, hfound⟩)
    . exact ⟨[], change, rest, rfl, List.forall_mem_nil _, hfound⟩
    . exact ⟨change :: before, reached, after, rfl, List.forall_mem_cons.2 ⟨hpass, hpasses⟩, hfound⟩

theorem Reaches.exists_mem (h : Reaches passes found changes)
    : ∃ change ∈ changes, ∃ after, found change after := by
  obtain ⟨before, change, after, rfl, -, hfound⟩ := h
  exact ⟨change, by simp, after, hfound⟩

end Reaches

def SetsHook (own : String → Prop) (hook : Hook) (changes : List (String × Value)) : Prop :=
  Reaches own (fun change _ => change.1 = hook.key) changes

def ReplacesHooks (own : String → Prop) (hook : Hook) (changes : List (String × Value)) : Prop :=
  Reaches (fun field => own field ∨ ∃ hook : Hook, field = hook.key)
    (fun change after =>
      change.1 = hooksField ∧ change.2.members? = none ∧ SetsHook own hook after)
    changes

def MergesHooks (own : String → Prop) (changes : List (String × Value)) : Prop :=
  Reaches own (fun change _ => change.1 = hooksField ∧ ∃ more, change.2.members? = some more)
    changes

structure Ordinary (names : List String) (field : String) : Prop where
  mem : field ∈ names
  notMem_immutableFields : field ∉ immutableFields
  ne_hooksField : field ≠ hooksField
  ofKey?_eq_none : Hook.ofKey? field = none

section Step

variable {model : Model} {names : List String} {members : List (String × Value)} {field : String}
  {v : Value}

theorem ne_key_of_ofKey?_eq_none (h : Hook.ofKey? field = none) (hook : Hook)
    : field ≠ hook.key := by
  rintro rfl
  rw [hook.ofKey?_key] at h
  cases h

theorem Ordinary.ne_key (h : Ordinary names field) (hook : Hook) : field ≠ hook.key :=
  ne_key_of_ofKey?_eq_none h.ofKey?_eq_none hook

theorem not_ordinary_key (names : List String) (hook : Hook) : ¬ Ordinary names hook.key :=
  fun h => h.ne_key hook rfl

theorem field_cases (names : List String) (field : String)
    : field = hooksField ∨ (∃ hook : Hook, field = hook.key) ∨ Ordinary names field
        ∨ (field ≠ hooksField ∧ Hook.ofKey? field = none ∧ ¬ Ordinary names field) := by
  by_cases hfield : field = hooksField
  . exact .inl hfield
  cases hkey : Hook.ofKey? field with
  | some hook => exact .inr (.inl ⟨hook, ofKey?_eq_some hkey⟩)
  | none =>
    by_cases hordinary : Ordinary names field
    . exact .inr (.inr (.inl hordinary))
    . exact .inr (.inr (.inr ⟨hfield, rfl, hordinary⟩))

theorem key_notMem_immutableFields (hook : Hook) : hook.key ∉ immutableFields := by
  cases hook <;> decide

theorem mergeField_ordinary (h : Ordinary (Entries.keys members) field)
    : mergeField model members field v = .ok (Entries.put members field v) := by
  unfold mergeField setMember
  rw [if_neg h.notMem_immutableFields]
  rw [h.ofKey?_eq_none]
  dsimp only
  rw [if_neg h.ne_hooksField]
  rw [if_pos h.mem]

theorem mergeField_not_ordinary (hfield : field ≠ hooksField) (hkey : Hook.ofKey? field = none)
    (h : ¬ Ordinary (Entries.keys members) field)
    : ∃ e, mergeField model members field v = .error e ∧ e.isRefusal = true := by
  unfold mergeField setMember
  split
  . exact ⟨_, rfl, rfl⟩
  . next himmutable =>
    rw [hkey]
    dsimp only
    rw [if_neg]
    . exact ⟨_, rfl, rfl⟩
    . intro hmem
      exact h ⟨hmem, himmutable, hfield, hkey⟩

theorem mergeField_key {hooks : Value} (hook : Hook)
    (hhooks : Entries.get? members hooksField = some hooks)
    : mergeField model members hook.key v = setHook members hooks hook.key v := by
  unfold mergeField
  rw [if_neg (key_notMem_immutableFields hook)]
  rw [hook.ofKey?_key]
  rw [hhooks]

theorem mergeField_key_of_replaced {replaced : Value} (hook : Hook)
    (hhooks : Entries.get? members hooksField = some replaced)
    (hreplaced : replaced.members? = none)
    : mergeField model members hook.key v = .error (.hooksReplaced hook.key) := by
  rw [mergeField_key hook hhooks]
  cases replaced with
  | object _ => cases hreplaced
  | _ => rfl

theorem mergeField_key_of_hookless (hook : Hook) (hhooks : Entries.get? members hooksField = none)
    (hmem : hook.key ∉ Entries.keys members)
    : mergeField model members hook.key v = .error (.unknownField hook.key model) := by
  unfold mergeField setMember
  rw [if_neg (key_notMem_immutableFields hook)]
  rw [hhooks]
  rw [if_neg (key_ne_hooksField hook)]
  rw [if_neg hmem]
  cases Hook.ofKey? hook.key with
  | some _ => rfl
  | none => rfl

theorem mergeField_hooksField
    : mergeField model members hooksField v
        =
      match v.members? with
      | some more => mergeHooks members more
      | none => setMember model members hooksField v := by
  rfl

section Hooks

variable {hooks more : List (String × Value)} {old : Value}

theorem mergeField_hooks (hhooks : Entries.get? members hooksField = some (.object hooks))
    (hmore : v.members? = some more)
    : mergeField model members hooksField v
        =
      .ok (Entries.put members hooksField
        (.object (Entries.putAll hooks (more.filter fun entry => !entry.2.isNull)))) := by
  rw [mergeField_hooksField]
  rw [hmore]
  unfold mergeHooks
  rw [hhooks]

theorem mergeField_hooks_of_hookless (hhooks : Entries.get? members hooksField = none)
    (hmore : v.members? = some more)
    : mergeField model members hooksField v = .error .noHooks := by
  rw [mergeField_hooksField]
  rw [hmore]
  unfold mergeHooks
  rw [hhooks]

theorem mergeField_replacement (hhooks : Entries.get? members hooksField = some old)
    (hnone : v.members? = none)
    : mergeField model members hooksField v = .ok (Entries.put members hooksField v) := by
  rw [mergeField_hooksField]
  rw [hnone]
  unfold setMember
  rw [if_pos]
  exact Entries.mem_keys_of_get?_eq_some hhooks

theorem mergeField_replacement_of_hookless (hhooks : Entries.get? members hooksField = none)
    (hnone : v.members? = none)
    : mergeField model members hooksField v = .error (.unknownField hooksField model) := by
  rw [mergeField_hooksField]
  rw [hnone]
  unfold setMember
  rw [if_neg (Entries.get?_eq_none_iff.1 hhooks)]

end Hooks

theorem keys_put_ordinary (h : Ordinary (Entries.keys members) field)
    : Entries.keys (Entries.put members field v) = Entries.keys members := by
  rw [Entries.keys_put]
  rw [if_pos h.mem]

theorem hooks_put_ordinary (h : Ordinary (Entries.keys members) field)
    : Entries.get? (Entries.put members field v) hooksField = Entries.get? members hooksField := by
  rw [Entries.get?_put]
  rw [if_neg h.ne_hooksField]

theorem keys_put_hooksField {hooks : Value} (h : Entries.get? members hooksField = some hooks)
    : Entries.keys (Entries.put members hooksField v) = Entries.keys members := by
  rw [Entries.keys_put]
  rw [if_pos]
  exact Entries.mem_keys_of_get?_eq_some h

end Step

def BreaksOff (model : Model) (members changes : List (String × Value)) (e : CommitError) : Prop :=
  merge model members changes = .error e ∧ e.isRefusal = false

section Run

variable {model : Model} {members changes rest : List (String × Value)} {field : String} {v : Value}
  {e : CommitError}

theorem not_breaksOff_nil : ¬ BreaksOff model members [] e := by
  rintro ⟨h, -⟩
  cases h

theorem breaksOff_cons_of_ok {between : List (String × Value)}
    (h : mergeField model members field v = .ok between)
    : BreaksOff model members ((field, v) :: rest) e ↔ BreaksOff model between rest e := by
  unfold BreaksOff
  rw [merge]
  rw [h]

theorem breaksOff_cons_of_error {cause : CommitError}
    (h : mergeField model members field v = .error cause)
    : BreaksOff model members ((field, v) :: rest) e ↔ cause = e ∧ e.isRefusal = false := by
  unfold BreaksOff
  rw [merge]
  rw [h]
  dsimp only
  rw [Except.error.injEq]

theorem not_breaksOff_cons
    (h : ∃ cause, mergeField model members field v = .error cause ∧ cause.isRefusal = true)
    : ¬ BreaksOff model members ((field, v) :: rest) e := by
  obtain ⟨cause, hcause, hrefusal⟩ := h
  rw [breaksOff_cons_of_error hcause]
  rintro ⟨rfl, hbroken⟩
  rw [hrefusal] at hbroken
  cases hbroken

theorem breaksOff_of_replaced {replaced : Value}
    (hhooks : Entries.get? members hooksField = some replaced)
    (hreplaced : replaced.members? = none) (honce : hooksField ∉ Entries.keys changes)
    : BreaksOff model members changes e
        ↔
      ∃ hook : Hook, SetsHook (Ordinary (Entries.keys members)) hook changes
        ∧ e = .hooksReplaced hook.key := by
  unfold SetsHook
  induction changes generalizing members with
  | nil => simp [not_breaksOff_nil, not_reaches_nil]
  | cons change rest ih =>
    obtain ⟨field, v⟩ := change
    rw [Entries.keys_cons, List.mem_cons, not_or] at honce
    simp only [reaches_cons_iff]
    obtain rfl | ⟨hook, rfl⟩ | hordinary | ⟨hfield, hkey, hnot⟩ :=
      field_cases (Entries.keys members) field
    . exact (honce.1 rfl).elim
    . rw [breaksOff_cons_of_error (mergeField_key_of_replaced hook hhooks hreplaced)]
      constructor
      . rintro ⟨rfl, -⟩
        exact ⟨hook, .inl rfl, rfl⟩
      . rintro ⟨other, hkey | ⟨hordinary, -⟩, rfl⟩
        . exact ⟨congrArg _ hkey, rfl⟩
        . exact (not_ordinary_key _ hook hordinary).elim
    . rw [breaksOff_cons_of_ok (mergeField_ordinary hordinary)]
      rw [ih ((hooks_put_ordinary hordinary).trans hhooks) honce.2]
      rw [keys_put_ordinary hordinary]
      simp [hordinary, hordinary.ne_key]
    . simp [not_breaksOff_cons (mergeField_not_ordinary hfield hkey hnot), hnot,
        ne_key_of_ofKey?_eq_none hkey]

theorem breaksOff_of_intact {hooks : List (String × Value)}
    (hhooks : Entries.get? members hooksField = some (.object hooks))
    (hnodup : (Entries.keys changes).Nodup)
    : BreaksOff model members changes e
        ↔
      ∃ hook : Hook, ReplacesHooks (Ordinary (Entries.keys members)) hook changes
        ∧ e = .hooksReplaced hook.key := by
  unfold ReplacesHooks
  induction changes generalizing members hooks with
  | nil => simp [not_breaksOff_nil, not_reaches_nil]
  | cons change rest ih =>
    obtain ⟨field, v⟩ := change
    rw [Entries.keys_cons, List.nodup_cons] at hnodup
    simp only [reaches_cons_iff]
    obtain rfl | ⟨hook, rfl⟩ | hordinary | ⟨hfield, hkey, hnot⟩ :=
      field_cases (Entries.keys members) field
    . have hpass : ¬ (Ordinary (Entries.keys members) hooksField
          ∨ ∃ hook : Hook, hooksField = hook.key) := by
        rintro (hordinary | ⟨hook, hkey⟩)
        . exact hordinary.ne_hooksField rfl
        . exact key_ne_hooksField hook hkey.symm
      simp only [hpass, false_and, or_false, true_and]
      cases hmembers : v.members? with
      | some more =>
        rw [breaksOff_cons_of_ok (mergeField_hooks hhooks hmembers)]
        rw [ih (Entries.get?_put_self ..) hnodup.2]
        constructor
        . rintro ⟨hook, hreplaces, -⟩
          obtain ⟨later, hmem, -, hfield, -⟩ := hreplaces.exists_mem
          exact (hnodup.1 (List.mem_map.2 ⟨later, hmem, hfield⟩)).elim
        . rintro ⟨hook, ⟨hnone, -⟩, -⟩
          cases hnone
      | none =>
        rw [breaksOff_cons_of_ok (mergeField_replacement hhooks hmembers)]
        rw [breaksOff_of_replaced (Entries.get?_put_self ..) hmembers hnodup.1]
        rw [keys_put_hooksField hhooks]
        simp
    . have hset : mergeField model members hook.key v
          = .ok (Entries.put members hooksField (.object (Entries.put hooks hook.key v))) :=
        mergeField_key hook hhooks
      rw [breaksOff_cons_of_ok hset]
      rw [ih (Entries.get?_put_self ..) hnodup.2]
      rw [keys_put_hooksField hhooks]
      have hpass : ∃ other : Hook, hook.key = other.key := ⟨hook, rfl⟩
      simp [key_ne_hooksField, hpass]
    . rw [breaksOff_cons_of_ok (mergeField_ordinary hordinary)]
      rw [ih ((hooks_put_ordinary hordinary).trans hhooks) hnodup.2]
      rw [keys_put_ordinary hordinary]
      simp [hordinary, hordinary.ne_hooksField]
    . simp [not_breaksOff_cons (mergeField_not_ordinary hfield hkey hnot), hnot, hfield,
        ne_key_of_ofKey?_eq_none hkey]

theorem breaksOff_of_hookless (hhooks : Entries.get? members hooksField = none)
    (hkeys : ∀ hook : Hook, hook.key ∉ Entries.keys members)
    : BreaksOff model members changes e
        ↔
      MergesHooks (Ordinary (Entries.keys members)) changes ∧ e = .noHooks := by
  unfold MergesHooks
  induction changes generalizing members with
  | nil => simp [not_breaksOff_nil, not_reaches_nil]
  | cons change rest ih =>
    obtain ⟨field, v⟩ := change
    rw [reaches_cons_iff]
    obtain rfl | ⟨hook, rfl⟩ | hordinary | ⟨hfield, hkey, hnot⟩ :=
      field_cases (Entries.keys members) field
    . have hpass : ¬ Ordinary (Entries.keys members) hooksField := fun h => h.ne_hooksField rfl
      simp only [hpass, false_and, or_false, true_and]
      cases hmembers : v.members? with
      | some more =>
        rw [breaksOff_cons_of_error (mergeField_hooks_of_hookless hhooks hmembers)]
        constructor
        . rintro ⟨rfl, -⟩
          exact ⟨⟨more, rfl⟩, rfl⟩
        . rintro ⟨-, rfl⟩
          exact ⟨rfl, rfl⟩
      | none =>
        simp [not_breaksOff_cons ⟨_, mergeField_replacement_of_hookless hhooks hmembers, rfl⟩]
    . simp [not_breaksOff_cons ⟨_, mergeField_key_of_hookless hook hhooks (hkeys hook), rfl⟩,
        key_ne_hooksField, not_ordinary_key]
    . rw [breaksOff_cons_of_ok (mergeField_ordinary hordinary)]
      rw [ih]
      . rw [keys_put_ordinary hordinary]
        simp [hordinary, hordinary.ne_hooksField]
      . exact (hooks_put_ordinary hordinary).trans hhooks
      . rw [keys_put_ordinary hordinary]
        exact hkeys
    . simp [not_breaksOff_cons (mergeField_not_ordinary hfield hkey hnot), hnot, hfield]

theorem patch_breaksOff_iff {α : Type} {read : Value → Checked α}
    : (patch model read members changes = .error e ∧ e.isRefusal = false)
        ↔
      BreaksOff model members changes e := by
  unfold BreaksOff patch
  cases merge model members changes with
  | error cause => simp
  | ok merged =>
    dsimp only
    cases read (.object merged) with
    | ok a => simp
    | faulty faults =>
      constructor
      . rintro ⟨heq, hrefusal⟩
        cases heq
        cases hrefusal
      . rintro ⟨heq, -⟩
        cases heq

end Run

end Commit

open Commit

namespace Peer

theorem ordinary_iff {p : Peer} {field : String}
    : Ordinary (Entries.keys p.members) field ↔ field ∈ ownFields := by
  have hall : ∀ field ∈ Entries.keys p.members,
      field ∈ immutableFields ∨ field = hooksField ∨ field ∈ ownFields := by
    change ∀ field ∈ ["id", "name", "address", "mobility", "endpoint", "private_key", "public_key",
      "dns", "mtu", "persistent_keepalive", "scripts"], _
    decide
  have hown : ∀ field ∈ ownFields, field ∈ Entries.keys p.members ∧ field ∉ immutableFields
      ∧ field ≠ hooksField ∧ Hook.ofKey? field = none := by
    change ∀ field ∈ ownFields, field ∈ ["id", "name", "address", "mobility", "endpoint",
      "private_key", "public_key", "dns", "mtu", "persistent_keepalive", "scripts"] ∧ _
    decide
  constructor
  . intro h
    obtain himmutable | hfield | hmem := hall field h.mem
    . exact (h.notMem_immutableFields himmutable).elim
    . exact (h.ne_hooksField hfield).elim
    . exact hmem
  . intro h
    obtain ⟨hmem, himmutable, hfield, hkey⟩ := hown field h
    exact ⟨hmem, himmutable, hfield, hkey⟩

theorem patch_breaksOff_iff {p : Peer} {changes : List (String × Value)} {e : CommitError}
    (hnodup : (Entries.keys changes).Nodup)
    : (p.patch changes = .error e ∧ e.isRefusal = false)
        ↔
      ∃ hook, ReplacesHooks (· ∈ ownFields) hook changes ∧ e = .hooksReplaced hook.key := by
  have hown : Ordinary (Entries.keys p.members) = (· ∈ ownFields) :=
    funext fun field => propext ordinary_iff
  unfold patch
  rw [Commit.patch_breaksOff_iff]
  rw [breaksOff_of_intact rfl hnodup]
  rw [hown]

end Peer

namespace Connection

theorem ordinary_iff {c : Connection} {field : String}
    : Ordinary (Entries.keys c.members) field ↔ field ∈ ownFields := by
  have hown : ∀ field ∈ ownFields, field ∉ immutableFields ∧ field ≠ hooksField
      ∧ Hook.ofKey? field = none := by
    decide
  constructor
  . intro h
    exact h.mem
  . intro h
    obtain ⟨himmutable, hfield, hkey⟩ := hown field h
    exact ⟨h, himmutable, hfield, hkey⟩

theorem key_notMem_keys_members (c : Connection) (hook : Hook)
    : hook.key ∉ Entries.keys c.members := by
  change hook.key ∉ ownFields
  cases hook <;> decide

theorem patch_breaksOff_iff {c : Connection} {changes : List (String × Value)} {e : CommitError}
    : (c.patch changes = .error e ∧ e.isRefusal = false)
        ↔
      MergesHooks (· ∈ ownFields) changes ∧ e = .noHooks := by
  have hown : Ordinary (Entries.keys c.members) = (· ∈ ownFields) :=
    funext fun field => propext ordinary_iff
  unfold patch
  rw [Commit.patch_breaksOff_iff]
  rw [breaksOff_of_hookless rfl c.key_notMem_keys_members]
  rw [hown]

end Connection

theorem Hook.key_injective {hook other : Hook} (h : hook.key = other.key) : hook = other := by
  apply Option.some.inj
  rw [← hook.ofKey?_key]
  rw [h]
  exact other.ofKey?_key

theorem ConnectionId.exists_ofValue_text_iff {wire : String}
    : (∃ id, ofValue (.text wire) = .ok id) ↔ wire.toList.count '*' = 1 := by
  have hread : ∀ id, ofValue (.text wire) = .ok id
      ↔ ∃ a b, wire = join a b ∧ ofPeers a b = .ok id := by
    intro id
    rw [← ofWire_eq_ok_iff]
    exact checked_eq_ok_iff
  simp only [hread]
  rw [← exists_join_iff]
  constructor
  . rintro ⟨id, a, b, hwire, hid⟩
    obtain ⟨ha, hb, -⟩ := ofPeers_eq_ok_iff.1 hid
    exact ⟨a, b, hwire, ha, hb⟩
  . rintro ⟨a, b, hwire, ha, hb⟩
    obtain ⟨id, hid⟩ := exists_ofPeers ha hb
    exact ⟨id, a, b, hwire, hid⟩

def Commit.commitTo {α : Type} (n : Network) (cs : ChangeSet) (target : Target) (found : Option α)
    (patch : α → List (String × Value) → Except CommitError α) (store : α → Network)
    : Except CommitError Network :=
  match found with
  | none => .error (.unknownTarget target)
  | some a =>
    if cs.hasErrors then
      .error (.outstanding target cs.failing)
    else if cs.pending.isEmpty then
      .ok n
    else
      match patch a cs.pending.entries with
      | .error e => .error e
      | .ok patched => .ok (store patched)

theorem Commit.commitTo_breaksOff_iff {α : Type} {n : Network} {cs : ChangeSet} {target : Target}
    {found : Option α} {patch : α → List (String × Value) → Except CommitError α}
    {store : α → Network} {e : CommitError} (hnil : ∀ a, patch a [] = .ok a)
    : (commitTo n cs target found patch store = .error e ∧ e.isRefusal = false)
        ↔
      ∃ a, found = some a ∧ cs.hasErrors = false ∧ patch a cs.pending.entries = .error e
        ∧ e.isRefusal = false := by
  unfold commitTo
  cases found with
  | none =>
    simp only [reduceCtorEq, false_and, exists_false, iff_false]
    rintro ⟨heq, hrefusal⟩
    cases heq
    cases hrefusal
  | some a =>
    simp only [Option.some.injEq, exists_eq_left']
    cases cs.hasErrors with
    | true =>
      simp only [if_true, Bool.true_eq_false, false_and, iff_false]
      rintro ⟨heq, hrefusal⟩
      cases heq
      cases hrefusal
    | false =>
      simp only [Bool.false_eq_true, if_false, true_and]
      split
      . next hempty =>
        have hentries : cs.pending.entries = [] := List.isEmpty_iff.1 hempty
        rw [hentries]
        rw [hnil]
        simp
      . cases patch a cs.pending.entries with
        | error cause => simp
        | ok patched => simp

namespace Network

def BreaksAtHook (n : Network) (peerId : String) (cs : ChangeSet) (hook : Hook) : Prop :=
  (∃ p, n.peers.get? peerId = some p) ∧ cs.hasErrors = false
    ∧ ReplacesHooks (· ∈ Peer.ownFields) hook cs.pending.entries

def BreaksAtHooks (n : Network) (id : ConnectionId) (cs : ChangeSet) : Prop :=
  (∃ c, n.connections.get? id = some c) ∧ cs.hasErrors = false
    ∧ MergesHooks (· ∈ Connection.ownFields) cs.pending.entries

variable {n : Network} {cs : ChangeSet} {e : CommitError}

theorem commitPeer_eq_commitTo (n : Network) (peerId : String) (cs : ChangeSet)
    : n.commitPeer peerId cs
        =
      commitTo n cs (.peer peerId) (n.peers.get? peerId) Peer.patch
        fun p => { n with peers := n.peers.insert peerId p } := by
  unfold commitPeer commitTo
  cases n.peers.get? peerId with
  | none => rfl
  | some p =>
    dsimp only
    cases p.patch cs.pending.entries with
    | error _ => rfl
    | ok _ => rfl

theorem commitConnection_eq_commitTo (n : Network) (id : ConnectionId) (cs : ChangeSet)
    : n.commitConnection id cs
        =
      commitTo n cs (.connection id) (n.connections.get? id) Connection.patch
        fun c => { n with connections := n.connections.insert id c } := by
  unfold commitConnection commitTo
  cases n.connections.get? id with
  | none => rfl
  | some c =>
    dsimp only
    cases c.patch cs.pending.entries with
    | error _ => rfl
    | ok _ => rfl

theorem commitPeer_breaksOff_iff {peerId : String}
    : (n.commitPeer peerId cs = .error e ∧ e.isRefusal = false)
        ↔
      ∃ hook, n.BreaksAtHook peerId cs hook ∧ e = .hooksReplaced hook.key := by
  unfold BreaksAtHook
  rw [commitPeer_eq_commitTo]
  rw [commitTo_breaksOff_iff Peer.patch_nil]
  simp only [Peer.patch_breaksOff_iff (OrderedMap.nodup _)]
  constructor
  . rintro ⟨p, hp, herrors, hook, hreplaces, rfl⟩
    exact ⟨hook, ⟨⟨p, hp⟩, herrors, hreplaces⟩, rfl⟩
  . rintro ⟨hook, ⟨⟨p, hp⟩, herrors, hreplaces⟩, rfl⟩
    exact ⟨p, hp, herrors, hook, hreplaces, rfl⟩

theorem commitConnection_breaksOff_iff {id : ConnectionId}
    : (n.commitConnection id cs = .error e ∧ e.isRefusal = false)
        ↔
      n.BreaksAtHooks id cs ∧ e = .noHooks := by
  unfold BreaksAtHooks
  rw [commitConnection_eq_commitTo]
  rw [commitTo_breaksOff_iff Connection.patch_nil]
  simp only [Connection.patch_breaksOff_iff]
  constructor
  . rintro ⟨c, hc, herrors, hmerges, rfl⟩
    exact ⟨⟨⟨c, hc⟩, herrors, hmerges⟩, rfl⟩
  . rintro ⟨⟨⟨c, hc⟩, herrors, hmerges⟩, rfl⟩
    exact ⟨c, hc, herrors, hmerges, rfl⟩

theorem commit_settles_iff (n : Network) (cs : ChangeSet)
    : (∀ peerId, Settles (n.commitPeer peerId cs) ↔ ¬ ∃ hook, n.BreaksAtHook peerId cs hook)
      ∧ (∀ peerId hook, n.commitPeer peerId cs = .error (.hooksReplaced hook.key)
          ↔ n.BreaksAtHook peerId cs hook)
      ∧ (∀ id, Settles (n.commitConnection id cs) ↔ ¬ n.BreaksAtHooks id cs)
      ∧ (∀ id, n.commitConnection id cs = .error .noHooks ↔ n.BreaksAtHooks id cs)
      ∧ ∀ wire : String,
          (∃ id, ConnectionId.ofValue (.text wire) = .ok id) ↔ wire.toList.count '*' = 1 := by
  refine ⟨?_, ?_, ?_, ?_, fun _ => ConnectionId.exists_ofValue_text_iff⟩
  . intro peerId
    rw [settles_iff]
    simp only [commitPeer_breaksOff_iff]
    apply not_congr
    constructor
    . rintro ⟨_, hook, hbreaks, -⟩
      exact ⟨hook, hbreaks⟩
    . rintro ⟨hook, hbreaks⟩
      exact ⟨_, hook, hbreaks, rfl⟩
  . intro peerId hook
    constructor
    . intro herror
      obtain ⟨hook', hbreaks, heq⟩ := commitPeer_breaksOff_iff.1 ⟨herror, rfl⟩
      rw [CommitError.hooksReplaced.injEq] at heq
      rw [Hook.key_injective heq]
      exact hbreaks
    . intro hbreaks
      exact (commitPeer_breaksOff_iff.2 ⟨hook, hbreaks, rfl⟩).1
  . intro id
    rw [settles_iff]
    simp only [commitConnection_breaksOff_iff]
    simp
  . intro id
    constructor
    . intro herror
      exact (commitConnection_breaksOff_iff.1 ⟨herror, rfl⟩).1
    . intro hbreaks
      exact (commitConnection_breaksOff_iff.2 ⟨hbreaks, rfl⟩).1

def gateway : Peer where
  id := "d0000000-0000-4000-8000-000000000000"
  name := "gateway"
  address := "10.0.0.1"
  mobility := .roaming
  endpoint := ""
  privateKey := "private"
  publicKey := "public"
  dns := .off
  mtu := .off
  persistentKeepalive := .off
  hooks := .none
  id_ne_empty := by decide

def gatewayLink : ConnectionId :=
  ⟨gateway.id, "a0000000-0000-4000-8000-000000000000", by decide, by decide, by decide⟩

def gatewayNetwork : Network where
  identifier := "office"
  subnet := "10.0.0.0/24"
  peers := ⟨[(gateway.id, gateway)], by decide⟩
  connections :=
    ⟨[(gatewayLink, ⟨true, "shared", "10.0.0.2/32", "10.0.0.1/32", .off⟩)], by decide⟩

def scriptChanges : ChangeSet where
  errors := ∅
  changed := ⟨[("scripts", .text "echo"), ("pre_up", .pair (.bool true) (.text "x;"))], by decide⟩

def linkScriptChanges : ChangeSet where
  errors := ∅
  changed := ⟨[("scripts", .object [])], by decide⟩

theorem not_settles_gatewayNetwork
    : (∀ cs ∈ [scriptChanges, linkScriptChanges], ∀ v ∈ cs.changed.values, v.isPlain = true)
        ∧ gatewayNetwork.commitPeer gateway.id scriptChanges = .error (.hooksReplaced "pre_up")
        ∧ ¬ Settles (gatewayNetwork.commitPeer gateway.id scriptChanges)
        ∧ gatewayNetwork.commitConnection gatewayLink linkScriptChanges = .error .noHooks
        ∧ ¬ Settles (gatewayNetwork.commitConnection gatewayLink linkScriptChanges) := by
  have hpeer : gatewayNetwork.commitPeer gateway.id scriptChanges
      = .error (.hooksReplaced "pre_up") := by
    rfl
  have hconnection : gatewayNetwork.commitConnection gatewayLink linkScriptChanges
      = .error .noHooks := by
    rfl
  refine ⟨by decide, hpeer, ?_, hconnection, ?_⟩
  . intro hsettles
    exact settles_iff.1 hsettles ⟨_, hpeer, rfl⟩
  . intro hsettles
    exact settles_iff.1 hsettles ⟨_, hconnection, rfl⟩

end Network

end WireMesh
