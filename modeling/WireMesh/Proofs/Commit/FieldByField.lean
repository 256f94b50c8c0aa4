import WireMesh.Proofs.Commit.Refusal
import WireMesh.Proofs.Network.RoundTrip
import WireMesh.Session

/-!
This module contains the proof that a commit goes field by field. Pending values can be merged as
long as every pending field is one of the target, and what they are merged to is accepted if and only
if each field is read from its own pending value. The fields that are not named, and everything else
in the network, stay as they were and where they were.
-/

namespace WireMesh

open Commit

namespace OrderedMap

variable {α β : Type} [DecidableEq α]

structure SameExcept (key : α) (m n : OrderedMap α β) : Prop where
  keys : n.keys = m.keys
  get? : ∀ other, other ≠ key → n.get? other = m.get? other

theorem sameExcept_insert {m : OrderedMap α β} {key : α} {old : β} (h : m.get? key = some old)
    (value : β) : SameExcept key m (m.insert key value) where
  keys := by
    rw [keys_insert]
    rw [if_pos (mem_keys_of_get?_eq_some h)]
  get? := by
    intro other hother
    exact get?_insert_of_ne m value hother.symm

end OrderedMap

namespace Commit

variable {model : Model} {members : List (String × Value)} {changes : List (String × Value)}
  {field : String} {v : Value}

/--
Whether a field can be changed where there are hooks: it is one of its own, or has to do with hooks.
-/
def Changeable (own : String → Prop) (field : String) : Prop :=
  own field ∨ field = hooksField ∨ ∃ hook : Hook, field = hook.key

theorem changeable_cases (names : List String) (field : String)
    : Changeable (Ordinary names) field
        ∨ (field ≠ hooksField ∧ Hook.ofKey? field = none
            ∧ ¬ Changeable (Ordinary names) field) := by
  unfold Changeable
  obtain hfield | hkey | hordinary | ⟨hfield, hkey, hnot⟩ := field_cases names field
  . exact .inl (.inr (.inl hfield))
  . exact .inl (.inr (.inr hkey))
  . exact .inl (.inl hordinary)
  . refine .inr ⟨hfield, hkey, ?_⟩
    rintro (hordinary | hhooks | ⟨hook, heq⟩)
    . exact hnot hordinary
    . exact hfield hhooks
    . exact ne_key_of_ofKey?_eq_none hkey hook heq

theorem mergeField_of_changeable (model : Model) {hooks : List (String × Value)}
    (hhooks : Entries.get? members hooksField = some (.object hooks))
    (hfield : Changeable (Ordinary (Entries.keys members)) field) (hsets : SetsHooks (field, v))
    : ∃ between hooks', mergeField model members field v = .ok between
        ∧ Entries.keys between = Entries.keys members
        ∧ Entries.get? between hooksField = some (.object hooks') := by
  obtain hordinary | rfl | ⟨hook, rfl⟩ := hfield
  . exact ⟨_, hooks, mergeField_ordinary hordinary, keys_put_ordinary hordinary,
      (hooks_put_ordinary hordinary).trans hhooks⟩
  . obtain ⟨more, hmore, -⟩ := hsets rfl
    exact ⟨_, _, mergeField_hooks hhooks hmore, keys_put_hooksField hhooks,
      Entries.get?_put_self ..⟩
  . exact ⟨_, _, mergeField_key hook hhooks, keys_put_hooksField hhooks, Entries.get?_put_self ..⟩

theorem exists_merge_iff_of_intact {hooks : List (String × Value)}
    (hhooks : Entries.get? members hooksField = some (.object hooks))
    (hsets : ∀ change ∈ changes, SetsHooks change)
    : (∃ merged, merge model members changes = .ok merged)
        ↔
      ∀ field ∈ Entries.keys changes, Changeable (Ordinary (Entries.keys members)) field := by
  induction changes generalizing members hooks with
  | nil => simp [merge]
  | cons change rest ih =>
    obtain ⟨field, v⟩ := change
    rw [List.forall_mem_cons] at hsets
    rw [Entries.keys_cons, List.forall_mem_cons]
    simp only [merge_cons_eq_ok_iff]
    -- The members keep their names and their hooks as long as merging has not stopped.
    obtain hfield | ⟨hne, hkey, hnot⟩ := changeable_cases (Entries.keys members) field
    . obtain ⟨between, hooks', hbetween, hkeys, hhooks'⟩ :=
        mergeField_of_changeable model hhooks hfield hsets.1
      rw [← hkeys] at hfield ⊢
      rw [← ih hhooks' hsets.2]
      simp [hbetween, hfield]
    . obtain ⟨e, he, -⟩ : ∃ e, mergeField model members field v = .error e ∧ e.isRefusal = true :=
        mergeField_not_ordinary hne hkey fun hordinary => hnot (.inl hordinary)
      simp [he, hnot]

theorem exists_merge_iff_of_hookless (hhooks : Entries.get? members hooksField = none)
    (hkeys : ∀ hook : Hook, hook.key ∉ Entries.keys members)
    : (∃ merged, merge model members changes = .ok merged)
        ↔
      ∀ field ∈ Entries.keys changes, Ordinary (Entries.keys members) field := by
  induction changes generalizing members with
  | nil => simp [merge]
  | cons change rest ih =>
    obtain ⟨field, v⟩ := change
    rw [Entries.keys_cons, List.forall_mem_cons]
    simp only [merge_cons_eq_ok_iff]
    obtain rfl | ⟨hook, rfl⟩ | hordinary | ⟨hfield, hkey, hnot⟩ :=
      field_cases (Entries.keys members) field
    . have hnot : ¬ Ordinary (Entries.keys members) hooksField := fun h => h.ne_hooksField rfl
      cases hmembers : v.members? with
      | some more => simp [mergeField_hooks_of_hookless hhooks hmembers, hnot]
      | none => simp [mergeField_replacement_of_hookless hhooks hmembers, hnot]
    . simp [mergeField_key_of_hookless hook hhooks (hkeys hook), not_ordinary_key]
    . have hput := keys_put_ordinary (v := v) hordinary
      have hrest := ih ((hooks_put_ordinary (v := v) hordinary).trans hhooks) (hput ▸ hkeys)
      rw [hput] at hrest
      rw [← hrest]
      simp [mergeField_ordinary hordinary, hordinary]
    . obtain ⟨e, he, -⟩ : ∃ e, mergeField model members field v = .error e ∧ e.isRefusal = true :=
        mergeField_not_ordinary hfield hkey hnot
      simp [he, hnot]

theorem setsHooks_of_isPlain (hplain : v.isPlain = true)
    (hobject : field = hooksField → ∃ more, v = .object more) : SetsHooks (field, v) := by
  intro hfield
  obtain ⟨more, rfl⟩ := hobject hfield
  exact ⟨more, rfl, (Value.isPlain_object_iff.1 hplain).1⟩

theorem eq_of_notMem {α : Type} {read : Value → Checked α} {written : Value} {old new : α}
    (hread : read ((Entries.get? changes field).getD written) = .ok new)
    (hwritten : read written = .ok old) (hfield : field ∉ Entries.keys changes) : new = old := by
  rw [Entries.get?_eq_none_iff.2 hfield, Option.getD_none, hwritten] at hread
  cases hread
  rfl

end Commit

namespace Peer

variable {changes : List (String × Value)} {p p' : Peer}

structure KeepsUnnamed (changes : List (String × Value)) (p p' : Peer) : Prop where
  id : p'.id = p.id
  field? : ∀ field ∈ ownFields, field ∉ Entries.keys changes → p'.field? field = p.field? field
  hook : ∀ hook : Hook, changes.reverse.findSome? (hookValue? hook) = none
    → p'.hooks.get hook = p.hooks.get hook

theorem PatchedBy.keepsUnnamed (h : PatchedBy changes p p') : KeepsUnnamed changes p p' where
  id := h.id
  field? := by
    intro field hfield hunnamed
    simp only [ownFields, List.mem_cons, List.not_mem_nil, or_false] at hfield
    obtain rfl | rfl | rfl | rfl | rfl | rfl | rfl | rfl | rfl := hfield
    . exact congrArg (some ∘ Value.text) (eq_of_notMem h.name rfl hunnamed)
    . exact congrArg (some ∘ Value.text) (eq_of_notMem h.address rfl hunnamed)
    . exact congrArg (some ∘ Value.mobility)
        (eq_of_notMem h.mobility (Value.readMobility_name _) hunnamed)
    . exact congrArg (some ∘ Value.text) (eq_of_notMem h.endpoint rfl hunnamed)
    . exact congrArg (some ∘ Value.text) (eq_of_notMem h.privateKey rfl hunnamed)
    . exact congrArg (some ∘ Value.text) (eq_of_notMem h.publicKey rfl hunnamed)
    . exact congrArg (some ∘ Value.override)
        (eq_of_notMem h.dns (Override.ofValue_toValue _) hunnamed)
    . exact congrArg (some ∘ Value.override)
        (eq_of_notMem h.mtu (Override.ofValue_toValue _) hunnamed)
    . exact congrArg (some ∘ Value.override)
        (eq_of_notMem h.persistentKeepalive (Override.ofValue_toValue _) hunnamed)
  hook := by
    intro hook hnone
    have hread := h.hook hook
    rw [hnone] at hread
    exact (Override.ofValue_toValue_eq_ok_iff.1 hread).symm

theorem exists_merge_iff (hsets : ∀ change ∈ changes, SetsHooks change)
    : (∃ merged, merge .peer p.members changes = .ok merged)
        ↔
      ∀ field ∈ Entries.keys changes, Changeable (· ∈ ownFields) field := by
  have hown : Ordinary (Entries.keys p.members) = (· ∈ ownFields) :=
    funext fun field => propext ordinary_iff
  rw [exists_merge_iff_of_intact rfl hsets]
  rw [hown]

theorem patch_eq_ok_iff_patchedBy (hnodup : (Entries.keys changes).Nodup)
    (hsets : ∀ change ∈ changes, SetsHooks change)
    : p.patch changes = .ok p'
        ↔
      (∀ field ∈ Entries.keys changes, Changeable (· ∈ ownFields) field)
        ∧ PatchedBy changes p p' := by
  rw [← exists_merge_iff (p := p) hsets]
  constructor
  . intro hpatch
    obtain ⟨merged, hmerge, -⟩ := patch_eq_ok_iff.1 hpatch
    exact ⟨⟨merged, hmerge⟩, patchedBy_of_patch hpatch hnodup hsets⟩
  . rintro ⟨⟨merged, hmerge⟩, hpatched⟩
    refine patch_eq_ok_iff.2 ⟨merged, hmerge, ?_⟩
    exact (ofMembers_merged_eq_ok_iff hmerge hnodup hsets).2 hpatched

end Peer

namespace Connection

variable {changes : List (String × Value)} {c c' : Connection}

structure KeepsUnnamed (changes : List (String × Value)) (c c' : Connection) : Prop where
  field? : ∀ field ∈ ownFields, field ∉ Entries.keys changes → c'.field? field = c.field? field

theorem PatchedBy.keepsUnnamed (h : PatchedBy changes c c') : KeepsUnnamed changes c c' where
  field? := by
    intro field hfield hunnamed
    simp only [ownFields, List.mem_cons, List.not_mem_nil, or_false] at hfield
    obtain rfl | rfl | rfl | rfl | rfl := hfield
    . exact congrArg (some ∘ Value.bool) (eq_of_notMem h.enabled rfl hunnamed)
    . exact congrArg (some ∘ Value.text) (eq_of_notMem h.preSharedKey rfl hunnamed)
    . exact congrArg (some ∘ Value.text) (eq_of_notMem h.allowedGreaterToLesser rfl hunnamed)
    . exact congrArg (some ∘ Value.text) (eq_of_notMem h.allowedLesserToGreater rfl hunnamed)
    . exact congrArg (some ∘ Value.override)
        (eq_of_notMem h.persistentKeepalive (Override.ofValue_toValue _) hunnamed)

theorem exists_merge_iff
    : (∃ merged, merge .connection c.members changes = .ok merged)
        ↔
      ∀ field ∈ Entries.keys changes, field ∈ ownFields := by
  rw [exists_merge_iff_of_hookless rfl c.key_notMem_keys_members]
  simp only [ordinary_iff]

theorem patch_eq_ok_iff_patchedBy (hnodup : (Entries.keys changes).Nodup)
    : c.patch changes = .ok c'
        ↔
      (∀ field ∈ Entries.keys changes, field ∈ ownFields) ∧ PatchedBy changes c c' := by
  rw [← exists_merge_iff (c := c)]
  constructor
  . intro hpatch
    obtain ⟨merged, hmerge, -⟩ := patch_eq_ok_iff.1 hpatch
    exact ⟨⟨merged, hmerge⟩, patchedBy_of_patch hpatch hnodup⟩
  . rintro ⟨⟨merged, hmerge⟩, hpatched⟩
    refine patch_eq_ok_iff.2 ⟨merged, hmerge, ?_⟩
    exact (ofMembers_merged_eq_ok_iff hmerge hnodup).2 hpatched

end Connection

namespace Network

structure PeerReplaced (n n' : Network) (peerId : String) (p' : Peer) : Prop where
  identifier : n'.identifier = n.identifier
  subnet : n'.subnet = n.subnet
  connections : n'.connections = n.connections
  peers : OrderedMap.SameExcept peerId n.peers n'.peers
  get? : n'.peers.get? peerId = some p'

structure ConnectionReplaced (n n' : Network) (id : ConnectionId) (c' : Connection) : Prop where
  identifier : n'.identifier = n.identifier
  subnet : n'.subnet = n.subnet
  peers : n'.peers = n.peers
  connections : OrderedMap.SameExcept id n.connections n'.connections
  get? : n'.connections.get? id = some c'

variable {n : Network} {cs : ChangeSet}

theorem commitPeer_of_patch {peerId : String} {p p' : Peer} (hp : n.peers.get? peerId = some p)
    (herrors : cs.hasErrors = false) (hpatch : p.patch cs.pending.entries = .ok p')
    : ∃ n', n.commitPeer peerId cs = .ok n' ∧ n.PeerReplaced n' peerId p' := by
  refine ⟨_, commitPeer_eq_ok_iff.2 ⟨herrors, p, p', hp, hpatch, rfl⟩, ?_⟩
  exact ⟨rfl, rfl, rfl, OrderedMap.sameExcept_insert hp p', OrderedMap.get?_insert_self ..⟩

theorem commitConnection_of_patch {id : ConnectionId} {c c' : Connection}
    (hc : n.connections.get? id = some c) (herrors : cs.hasErrors = false)
    (hpatch : c.patch cs.pending.entries = .ok c')
    : ∃ n', n.commitConnection id cs = .ok n' ∧ n.ConnectionReplaced n' id c' := by
  refine ⟨_, commitConnection_eq_ok_iff.2 ⟨herrors, c, c', hc, hpatch, rfl⟩, ?_⟩
  exact ⟨rfl, rfl, rfl, OrderedMap.sameExcept_insert hc c', OrderedMap.get?_insert_self ..⟩

theorem commit_fieldByField (n : Network) (cs : ChangeSet) (herrors : cs.hasErrors = false)
    (hplain : ∀ change ∈ cs.pending.entries, change.2.isPlain = true)
    : (∀ peerId p, n.peers.get? peerId = some p
        → (∀ field ∈ cs.pending.keys, Changeable (· ∈ Peer.ownFields) field)
        → (∀ v, cs.pending.get? hooksField = some v → ∃ more, v = .object more)
        → ∃ merged, merge .peer p.members cs.pending.entries = .ok merged
          ∧ ∀ p', Peer.ofValue (.object merged) = .ok p'
            → (∃ n', n.commitPeer peerId cs = .ok n' ∧ n.PeerReplaced n' peerId p')
              ∧ Peer.PatchedBy cs.pending.entries p p'
              ∧ Peer.KeepsUnnamed cs.pending.entries p p')
      ∧ ∀ id c, n.connections.get? id = some c
        → (∀ field ∈ cs.pending.keys, field ∈ Connection.ownFields)
        → ∃ merged, merge .connection c.members cs.pending.entries = .ok merged
          ∧ ∀ c', Connection.ofValue (.object merged) = .ok c'
            → (∃ n', n.commitConnection id cs = .ok n' ∧ n.ConnectionReplaced n' id c')
              ∧ Connection.PatchedBy cs.pending.entries c c'
              ∧ Connection.KeepsUnnamed cs.pending.entries c c' := by
  have hnodup := cs.pending.nodup
  constructor
  . intro peerId p hp hfields hobject
    have hsets : ∀ change ∈ cs.pending.entries, SetsHooks change := by
      rintro ⟨field, v⟩ hmem
      refine setsHooks_of_isPlain (hplain _ hmem) ?_
      rintro rfl
      exact hobject v (OrderedMap.get?_eq_some_iff.2 hmem)
    obtain ⟨merged, hmerge⟩ := (Peer.exists_merge_iff (p := p) hsets).2 hfields
    refine ⟨merged, hmerge, ?_⟩
    intro p' hread
    have hpatched := (Peer.ofMembers_merged_eq_ok_iff hmerge hnodup hsets).1 hread
    exact ⟨commitPeer_of_patch hp herrors (patch_eq_ok_iff.2 ⟨merged, hmerge, hread⟩), hpatched,
      hpatched.keepsUnnamed⟩
  . intro id c hc hfields
    obtain ⟨merged, hmerge⟩ := (Connection.exists_merge_iff (c := c)).2 hfields
    refine ⟨merged, hmerge, ?_⟩
    intro c' hread
    have hpatched := (Connection.ofMembers_merged_eq_ok_iff hmerge hnodup).1 hread
    exact ⟨commitConnection_of_patch hc herrors (patch_eq_ok_iff.2 ⟨merged, hmerge, hread⟩),
      hpatched, hpatched.keepsUnnamed⟩

def relayChanges : ChangeSet where
  errors := ∅
  changed := ⟨[("pre_up", .pair (.bool true) (.text "early;")), ("name", .text "relay"),
    ("scripts", .object [("pre_up", .pair (.int 1) (.text "late;")), ("pre_down", .null)]),
    ("dns", .null)], by decide⟩

def relay : Peer :=
  { gateway with name := "relay", hooks := { Hooks.none with preUp := ⟨true, .text "late;"⟩ } }

def linkOffChanges : ChangeSet where
  errors := ∅
  changed := ⟨[("enabled", .int 0)], by decide⟩

theorem commit_fieldByField_gateway
    : (∃ n', gatewayNetwork.commitPeer gateway.id relayChanges = .ok n'
          ∧ gatewayNetwork.PeerReplaced n' gateway.id relay)
        ∧ Peer.KeepsUnnamed relayChanges.pending.entries gateway relay
        ∧ ∃ n', gatewayNetwork.commitConnection gatewayLink linkOffChanges = .ok n'
          ∧ gatewayNetwork.ConnectionReplaced n' gatewayLink
              ⟨false, "shared", "10.0.0.2/32", "10.0.0.1/32", .off⟩ := by
  have hplain : ∀ change ∈ relayChanges.pending.entries, change.2.isPlain = true := by decide
  have hfields : ∀ field ∈ relayChanges.pending.keys, Changeable (· ∈ Peer.ownFields) field := by
    change ∀ field ∈ ["pre_up", "name", "scripts"], _
    simp only [List.forall_mem_cons]
    exact ⟨.inr (.inr ⟨.preUp, rfl⟩), .inl (by decide), .inr (.inl rfl), List.forall_mem_nil _⟩
  have hobject : ∀ v, relayChanges.pending.get? hooksField = some v → ∃ more, v = .object more := by
    rintro _ ⟨⟩
    exact ⟨_, rfl⟩
  obtain ⟨_, hmerge, hpeer⟩ :=
    (commit_fieldByField gatewayNetwork relayChanges rfl hplain).1 gateway.id gateway rfl hfields
      hobject
  obtain ⟨_, hmerge', hconnection⟩ :=
    (commit_fieldByField gatewayNetwork linkOffChanges rfl (by decide)).2 gatewayLink _ rfl
      (by decide)
  cases hmerge
  cases hmerge'
  obtain ⟨hcommit, -, hkeeps⟩ := hpeer relay rfl
  exact ⟨hcommit, hkeeps, (hconnection _ rfl).1⟩

end Network

end WireMesh
