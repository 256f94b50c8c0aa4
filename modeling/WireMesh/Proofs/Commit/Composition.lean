import WireMesh.Proofs.Commit.FieldByField
import WireMesh.Proofs.Commit.Outstanding

/-!
This module contains the proof that commits compose: two of them, one after the other, come to the
same as one of all their changes. In one commit the later changes are merged into members that have
not been read yet, in two into those of what was read and written again. That makes no difference,
since a field has at most one change among the two, and a field that is not changed is read back as
it was written.
-/

namespace WireMesh

open Commit

namespace Commit

variable {model : Model} {members merged : List (String × Value)}
  {changes first second : List (String × Value)} {v : Value}

theorem get?_hooksField_of_replaced (hmerge : merge model members changes = .ok merged)
    (hhooks : Entries.get? members hooksField = some v) (hv : v.members? = none)
    (honce : hooksField ∉ Entries.keys changes) : Entries.get? merged hooksField = some v := by
  induction changes generalizing members with
  | nil =>
    cases hmerge
    exact hhooks
  | cons change rest ih =>
    obtain ⟨field, w⟩ := change
    rw [Entries.keys_cons, List.mem_cons, not_or] at honce
    obtain ⟨between, hfield, hrest⟩ := merge_cons_eq_ok_iff.1 hmerge
    refine ih hrest ?_ honce.2
    -- To set a hook or to merge hooks takes an object, which is no longer there.
    obtain ⟨-, ⟨_, _, -, hget, -⟩ | ⟨_, _, -, hget, -, -⟩ | ⟨-, rfl, -⟩⟩ := mergeField_eq_ok hfield
    . rw [hhooks] at hget
      cases hget
      cases hv
    . rw [hhooks] at hget
      cases hget
      cases hv
    . rw [Entries.get?_put]
      rw [if_neg (Ne.symm honce.1)]
      exact hhooks

theorem get?_hooksField_of_mem (hmerge : merge model members changes = .ok merged)
    (hnodup : (Entries.keys changes).Nodup) (hmem : (hooksField, v) ∈ changes)
    (hv : v.members? = none) : Entries.get? merged hooksField = some v := by
  induction changes generalizing members with
  | nil => cases hmem
  | cons change rest ih =>
    obtain ⟨field, w⟩ := change
    rw [Entries.keys_cons, List.nodup_cons] at hnodup
    obtain ⟨between, hfield, hrest⟩ := merge_cons_eq_ok_iff.1 hmerge
    cases hmem with
    | tail _ hmem => exact ih hrest hnodup.2 hmem
    | head =>
      refine get?_hooksField_of_replaced hrest ?_ hv hnodup.1
      obtain ⟨-, ⟨hook, _, hkey, -⟩ | ⟨_, more, -, -, hmore, -⟩ | ⟨-, rfl, -⟩⟩ :=
        mergeField_eq_ok hfield
      . exact (key_ne_hooksField hook hkey.symm).elim
      . rw [hv] at hmore
        cases hmore
      . exact Entries.get?_put_self ..

theorem read_or {α : Type} {read : Value → Checked α} {between new : α}
    {earlier later : Option Value} {written rewritten : Value}
    (hread : read rewritten = .ok between) (hearlier : read (earlier.getD written) = .ok between)
    (hlater : read (later.getD rewritten) = .ok new)
    : read ((later.or earlier).getD written) = .ok new := by
  cases later with
  | some v => exact hlater
  | none =>
    rw [Option.getD_none, hread] at hlater
    cases hlater
    exact hearlier

theorem get?_append_of_disjoint (h : (Entries.keys first).Disjoint (Entries.keys second))
    (field : String)
    : Entries.get? (first ++ second) field
        =
      (Entries.get? second field).or (Entries.get? first field) := by
  rw [Entries.get?_append]
  by_cases hmem : field ∈ Entries.keys first
  . rw [Entries.get?_eq_none_iff.2 (h hmem)]
    exact Option.or_none
  . rw [Entries.get?_eq_none_iff.2 hmem]
    exact Option.or_none.symm

end Commit

theorem Value.eq_object_of_members? {v : Value} {members : List (String × Value)}
    (hplain : v.isPlain = true) (h : v.members? = some members) : v = .object members := by
  cases v with
  | object more =>
    cases h
    rfl
  | links more => cases hplain
  | _ => cases h

theorem Hooks.exists_object_of_ofValue {v : Value} {hooks : Hooks} (hplain : v.isPlain = true)
    (h : ofValue v = .ok hooks) : ∃ members, v = .object members := by
  cases v with
  | object members => exact ⟨members, rfl⟩
  | links members => cases hplain
  | hooks read => cases hplain
  | _ => cases h

namespace Peer

variable {changes first second : List (String × Value)} {p p₁ p₂ : Peer}

theorem setsHooks_of_patch (hpatch : p.patch changes = .ok p₁)
    (hplain : ∀ change ∈ changes, change.2.isPlain = true) (hnodup : (Entries.keys changes).Nodup)
    : ∀ change ∈ changes, SetsHooks change := by
  rintro ⟨field, v⟩ hmem
  have hv : v.isPlain = true := hplain _ hmem
  apply setsHooks_of_isPlain hv
  rintro rfl
  cases hmembers : v.members? with
  | some more => exact ⟨more, Value.eq_object_of_members? hv hmembers⟩
  | none =>
    obtain ⟨merged, hmerge, hread⟩ := patch_eq_ok_iff.1 hpatch
    have hget := get?_hooksField_of_mem hmerge hnodup hmem hmembers
    have hhooks : Members.optional merged hooksField Hooks.ofValue .none = .ok p₁.hooks := by
      obtain ⟨-, -, -, -, -, -, -, -, -, -, hhooks⟩ := ofMembers_eq_ok_iff.1 hread
      exact hhooks
    rw [Members.optional_of_get?_eq_some hget, Checked.under_eq_ok_iff] at hhooks
    exact Hooks.exists_object_of_ofValue hv hhooks

theorem PatchedBy.trans (hfirst : PatchedBy first p p₁) (hsecond : PatchedBy second p₁ p₂)
    (hdisjoint : (Entries.keys first).Disjoint (Entries.keys second))
    : PatchedBy (first ++ second) p p₂ := by
  have hget := get?_append_of_disjoint hdisjoint
  constructor
  case id => exact hsecond.id.trans hfirst.id
  case hook =>
    intro hook
    rw [List.reverse_append, List.findSome?_append]
    exact read_or (Override.ofValue_toValue _) (hfirst.hook hook) (hsecond.hook hook)
  all_goals rw [hget]
  case name => exact read_or rfl hfirst.name hsecond.name
  case address => exact read_or rfl hfirst.address hsecond.address
  case mobility => exact read_or (Value.readMobility_name _) hfirst.mobility hsecond.mobility
  case endpoint => exact read_or rfl hfirst.endpoint hsecond.endpoint
  case privateKey => exact read_or rfl hfirst.privateKey hsecond.privateKey
  case publicKey => exact read_or rfl hfirst.publicKey hsecond.publicKey
  case dns => exact read_or (Override.ofValue_toValue _) hfirst.dns hsecond.dns
  case mtu => exact read_or (Override.ofValue_toValue _) hfirst.mtu hsecond.mtu
  case persistentKeepalive =>
    exact read_or (Override.ofValue_toValue _) hfirst.persistentKeepalive
      hsecond.persistentKeepalive

end Peer

namespace Connection

variable {first second : List (String × Value)} {c c₁ c₂ : Connection}

theorem PatchedBy.trans (hfirst : PatchedBy first c c₁) (hsecond : PatchedBy second c₁ c₂)
    (hdisjoint : (Entries.keys first).Disjoint (Entries.keys second))
    : PatchedBy (first ++ second) c c₂ := by
  have hget := get?_append_of_disjoint hdisjoint
  constructor
  all_goals rw [hget]
  case enabled => exact read_or rfl hfirst.enabled hsecond.enabled
  case preSharedKey => exact read_or rfl hfirst.preSharedKey hsecond.preSharedKey
  case allowedGreaterToLesser =>
    exact read_or rfl hfirst.allowedGreaterToLesser hsecond.allowedGreaterToLesser
  case allowedLesserToGreater =>
    exact read_or rfl hfirst.allowedLesserToGreater hsecond.allowedLesserToGreater
  case persistentKeepalive =>
    exact read_or (Override.ofValue_toValue _) hfirst.persistentKeepalive
      hsecond.persistentKeepalive

end Connection

structure ChangeSet.Joins (first second both : ChangeSet) : Prop where
  hasErrors : both.hasErrors = false
  pending : both.pending.entries = first.pending.entries ++ second.pending.entries

theorem ChangeSet.exists_joins {first second : ChangeSet}
    (hdisjoint : first.pending.keys.Disjoint second.pending.keys)
    : ∃ both : ChangeSet, Joins first second both := by
  have hnodup : (Entries.keys (first.pending.entries ++ second.pending.entries)).Nodup := by
    rw [Entries.keys_append, List.nodup_append']
    exact ⟨first.pending.nodup, second.pending.nodup, hdisjoint⟩
  refine ⟨⟨∅, ⟨_, hnodup⟩⟩, rfl, ?_⟩
  change List.filter _ (_ ++ _) = _
  rw [List.filter_append]
  unfold pending OrderedMap.filter
  simp only [List.filter_filter, Bool.and_self]

namespace Network

variable {n n₁ n₂ : Network} {first second both : ChangeSet}

theorem commitPeer_joins {peerId : String}
    (hplain₁ : ∀ change ∈ first.pending.entries, change.2.isPlain = true)
    (hplain₂ : ∀ change ∈ second.pending.entries, change.2.isPlain = true)
    (hdisjoint : first.pending.keys.Disjoint second.pending.keys)
    (hfirst : n.commitPeer peerId first = .ok n₁) (hsecond : n₁.commitPeer peerId second = .ok n₂)
    (hboth : first.Joins second both) : n.commitPeer peerId both = .ok n₂ := by
  rw [commitPeer_eq_ok_iff] at hfirst hsecond ⊢
  obtain ⟨-, p, p₁, hp, hpatch₁, rfl⟩ := hfirst
  -- The second commit patches the peer that the first one stored.
  obtain ⟨-, _, p₂, hp₁, hpatch₂, rfl⟩ := hsecond
  rw [OrderedMap.get?_insert_self] at hp₁
  cases hp₁
  refine ⟨hboth.hasErrors, p, p₂, hp, ?_, ?_⟩
  . have hsets₁ := Peer.setsHooks_of_patch hpatch₁ hplain₁ first.pending.nodup
    have hsets₂ := Peer.setsHooks_of_patch hpatch₂ hplain₂ second.pending.nodup
    rw [Peer.patch_eq_ok_iff_patchedBy first.pending.nodup hsets₁] at hpatch₁
    rw [Peer.patch_eq_ok_iff_patchedBy second.pending.nodup hsets₂] at hpatch₂
    rw [Peer.patch_eq_ok_iff_patchedBy both.pending.nodup]
    . rw [hboth.pending, Entries.keys_append]
      exact ⟨List.forall_mem_append.2 ⟨hpatch₁.1, hpatch₂.1⟩, hpatch₁.2.trans hpatch₂.2 hdisjoint⟩
    . rw [hboth.pending]
      exact List.forall_mem_append.2 ⟨hsets₁, hsets₂⟩
  . dsimp only
    rw [OrderedMap.insert_insert]

theorem commitConnection_joins {id : ConnectionId}
    (hdisjoint : first.pending.keys.Disjoint second.pending.keys)
    (hfirst : n.commitConnection id first = .ok n₁)
    (hsecond : n₁.commitConnection id second = .ok n₂) (hboth : first.Joins second both)
    : n.commitConnection id both = .ok n₂ := by
  rw [commitConnection_eq_ok_iff] at hfirst hsecond ⊢
  obtain ⟨-, c, c₁, hc, hpatch₁, rfl⟩ := hfirst
  obtain ⟨-, _, c₂, hc₁, hpatch₂, rfl⟩ := hsecond
  rw [OrderedMap.get?_insert_self] at hc₁
  cases hc₁
  refine ⟨hboth.hasErrors, c, c₂, hc, ?_, ?_⟩
  . rw [Connection.patch_eq_ok_iff_patchedBy first.pending.nodup] at hpatch₁
    rw [Connection.patch_eq_ok_iff_patchedBy second.pending.nodup] at hpatch₂
    rw [Connection.patch_eq_ok_iff_patchedBy both.pending.nodup]
    rw [hboth.pending, Entries.keys_append]
    exact ⟨List.forall_mem_append.2 ⟨hpatch₁.1, hpatch₂.1⟩, hpatch₁.2.trans hpatch₂.2 hdisjoint⟩
  . dsimp only
    rw [OrderedMap.insert_insert]

theorem commit_joins (n n₁ n₂ : Network) (target : Target) (first second : ChangeSet)
    (hplain₁ : ∀ change ∈ first.pending.entries, change.2.isPlain = true)
    (hplain₂ : ∀ change ∈ second.pending.entries, change.2.isPlain = true)
    (hdisjoint : first.pending.keys.Disjoint second.pending.keys)
    (hfirst : n.commit target first = .ok n₁) (hsecond : n₁.commit target second = .ok n₂)
    : (∃ both : ChangeSet, first.Joins second both)
        ∧ ∀ both : ChangeSet, first.Joins second both → n.commit target both = .ok n₂ := by
  refine ⟨ChangeSet.exists_joins hdisjoint, ?_⟩
  intro both hboth
  cases target with
  | peer peerId => exact commitPeer_joins hplain₁ hplain₂ hdisjoint hfirst hsecond hboth
  | connection id => exact commitConnection_joins hdisjoint hfirst hsecond hboth

def laterChanges : ChangeSet where
  errors := ∅
  changed := ⟨[("post_up", .pair (.int 1) (.text "last;")), ("mtu", .pair (.int 1) (.int 1400))],
    by decide⟩

theorem commit_joins_gateway
    : ∃ n₁ n₂ both, gatewayNetwork.commit (.peer gateway.id) relayChanges = .ok n₁
        ∧ n₁.commit (.peer gateway.id) laterChanges = .ok n₂
        ∧ relayChanges.Joins laterChanges both
        ∧ gatewayNetwork.commit (.peer gateway.id) both = .ok n₂ := by
  obtain ⟨n₁, n₂, hfirst, hsecond⟩ : ∃ n₁ n₂,
      gatewayNetwork.commit (.peer gateway.id) relayChanges = .ok n₁
        ∧ n₁.commit (.peer gateway.id) laterChanges = .ok n₂ :=
    ⟨_, _, rfl, rfl⟩
  have hdisjoint : relayChanges.pending.keys.Disjoint laterChanges.pending.keys := by
    change ∀ field ∈ ["pre_up", "name", "scripts"], field ∈ ["post_up", "mtu"] → False
    decide
  obtain ⟨⟨both, hboth⟩, hall⟩ :=
    commit_joins _ _ _ _ _ _ (by decide) (by decide) hdisjoint hfirst hsecond
  exact ⟨n₁, n₂, both, hfirst, hsecond, hboth, hall both hboth⟩

end Network

end WireMesh
