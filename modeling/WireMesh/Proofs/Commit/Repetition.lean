import WireMesh.Proofs.ChangeSet.Resubmission
import WireMesh.Proofs.Commit.Outstanding

/-!
This module contains what becomes of an edit that is made once more after it has been committed.
What the commit leaves in the field equals what was recorded, although it has been merged with other
members and read anew, and the edit is still accepted, although the network that it is checked in is
another one now. It is therefore no change any more.
-/

namespace WireMesh

open Commit

theorem reported_untagged {field : String} {v reported : Value} {context : Option Context}
    (h : validate field v context = .ok (.accepted reported))
    : reported.isNull = false ∧ reported.untagged = reported := by
  -- A reported value is a text or an object, so it is no clearing mark and is compared as it is.
  obtain ⟨rule, f, -, -, -, happly⟩ := validate_eq_accepted_iff.1 h
  cases f with
  | text s =>
    cases Rule.eq_toPlain_of_apply happly nofun
    exact ⟨rfl, rfl⟩
  | group members =>
    cases Rule.eq_toPlain_of_apply happly nofun
    exact ⟨rfl, rfl⟩
  | toggle flag value =>
    obtain rfl | ⟨rule, rfl⟩ := Rule.exists_toggle_of_apply happly
    . rw [Rule.apply_endpoint] at happly
      obtain ⟨_, _, -, -, -, rfl⟩ | ⟨_, _, -, -, rfl⟩ := applyEndpoint_eq_accepted happly
      . exact ⟨rfl, rfl⟩
      . exact ⟨rfl, rfl⟩
    . rw [Rule.apply_toggle] at happly
      obtain ⟨_, _, _, -, rfl⟩ := ToggleRule.exists_pair_of_apply happly
      exact ⟨rfl, rfl⟩

inductive Value.ReadInto (field : String) (v : Value) : Value → Prop where
  | text {s : String} (h : v.readText = .ok s) : ReadInto field v (.text s)
  | mobility {m : Mobility} (h : v.readMobility = .ok m) : ReadInto field v (.mobility m)
  | override {rule : ToggleRule} {o : Override} (hrule : Rule.ofField? field = some (.toggle rule))
      (h : Override.ofValue v = .ok o) : ReadInto field v (.override o)
  | hooks {hooks : Hooks} (hfield : field = hooksField)
      (h : ∀ hook w, hookValue? hook (hooksField, v) = some w
        → Override.ofValue w = .ok (hooks.get hook)) : ReadInto field v (.hooks hooks)

theorem length_of_hookKeys {members : List (String × Value)}
    (hnodup : (Entries.keys members).Nodup)
    (hall : ∀ hook : Hook, hook.key ∈ Entries.keys members)
    (honly : ∀ key ∈ Entries.keys members, ∃ hook : Hook, hook.key = key)
    : members.length = Hook.all.length := by
  have hkeys : (Hook.all.map Hook.key).Nodup := by decide
  have hperm : (Entries.keys members).Perm (Hook.all.map Hook.key) := by
    rw [List.perm_ext_iff_of_nodup hnodup hkeys]
    intro key
    constructor
    . intro hmem
      obtain ⟨hook, rfl⟩ := honly key hmem
      exact List.mem_map_of_mem hook.mem_all
    . intro hmem
      obtain ⟨hook, -, rfl⟩ := List.mem_map.1 hmem
      exact hall hook
  have hlength := hperm.length_eq
  unfold Entries.keys at hlength
  rw [List.length_map, List.length_map] at hlength
  exact hlength

section Same

variable {field : String} {v reported committed : Value} {context : Option Context}

theorem same_hooks {hooks : Hooks} (hplain : v.isPlain = true)
    (hkeys : ∀ members, v = .object members → ∀ key ∈ Entries.keys members,
      ∃ hook : Hook, hook.key = key)
    (hreported : validate hooksField v context = .ok (.accepted reported))
    (h : ∀ hook w, hookValue? hook (hooksField, reported) = some w
      → Override.ofValue w = .ok (hooks.get hook))
    : reported.same hooks.toValue = true := by
  obtain ⟨members, hgroup, rfl, hall⟩ := reported_group hreported
  obtain ⟨hnodup, hplains⟩ := Field.isPlain_group hplain hgroup
  have honly := hkeys members (Field.eq_object_of_isPlain hplain hgroup)
  have hmem : ∀ hook : Hook, hook.key ∈ Entries.keys members := by
    intro hook
    obtain ⟨w, hw, -⟩ := hall hook
    exact Entries.mem_keys_of_get?_eq_some hw
  rw [← Value.keys_plainMembers] at hnodup
  simp only [← Value.keys_plainMembers members] at honly hmem
  unfold Hooks.toValue
  rw [Value.same_object_iff]
  refine ⟨length_of_hookKeys hnodup hmem honly, ?_⟩
  rintro ⟨key, plain⟩ hentry
  obtain ⟨hook, rfl⟩ := honly key (List.mem_map_of_mem hentry)
  obtain ⟨w, hw, haccepted⟩ := hall hook
  obtain ⟨b, value, hpair⟩ :=
    exists_pair_of_reported (Rule.ofField?_key hook) (Value.isPlain_of_get? hplains hw) haccepted
  have hget := (Entries.get?_eq_some_iff hnodup).2 hentry
  have hvalue : plain = .pair (.bool b) value := by
    rw [Value.get?_plainMembers, hw, Option.map_some, hpair] at hget
    exact (Option.some.inj hget).symm
  subst hvalue
  refine ⟨_, hooks.get?_members hook, Override.same_of_ofValue (h hook _ ?_)⟩
  rw [hookValue?_hooksField]
  change (Entries.get? (Value.plainMembers members) hook.key).filter _ = _
  rw [hget]
  rfl

theorem same_of_readInto (hplain : v.isPlain = true)
    (hkeys : field = hooksField → ∀ members, v = .object members → ∀ key ∈ Entries.keys members,
      ∃ hook : Hook, hook.key = key)
    (hreported : validate field v context = .ok (.accepted reported))
    (h : reported.ReadInto field committed)
    : reported.same committed.untagged = true := by
  cases h with
  | text hread => exact Value.same_text_of_text? (Value.readText_eq_ok_iff.1 hread)
  | mobility hread => exact Value.same_text_of_text? (Value.text?_of_readMobility hread)
  | override hrule hread =>
    obtain ⟨b, value, rfl⟩ := exists_pair_of_reported hrule hplain hreported
    exact Override.same_of_ofValue hread
  | hooks hfield hread =>
    subst hfield
    exact same_hooks hplain (hkeys rfl) hreported hread

end Same

theorem Peer.PatchedBy.readInto {field : String} {v committed : Value} {p p' : Peer}
    (hpatched : PatchedBy [(field, v)] p p') (hfield : field ∉ immutableFields)
    (hcommitted : p.field? field = some committed)
    : ∃ committed', p'.field? field = some committed' ∧ v.ReadInto field committed' := by
  unfold field? at hcommitted
  split at hcommitted
  . next hook hkey =>
    cases ofKey?_eq_some hkey
    have hread := hpatched.hook hook
    refine ⟨.override (p'.hooks.get hook), ?_, .override (Rule.ofField?_key hook) ?_⟩
    . unfold field?
      rw [hkey]
    . rw [List.reverse_singleton, List.findSome?_singleton] at hread
      rw [hookValue?_key] at hread
      exact hread
  . next hkey =>
    have hmem := Entries.mem_of_get?_eq_some hcommitted
    simp only [List.mem_cons, Prod.mk.injEq, List.not_mem_nil, or_false] at hmem
    obtain ⟨rfl, -⟩ | ⟨rfl, -⟩ | ⟨rfl, -⟩ | ⟨rfl, -⟩ | ⟨rfl, -⟩ | ⟨rfl, -⟩ | ⟨rfl, -⟩ | ⟨rfl, -⟩
      | ⟨rfl, -⟩ | ⟨rfl, -⟩ | ⟨rfl, -⟩ | ⟨rfl, -⟩ | ⟨rfl, -⟩ := hmem
    . exact (hfield (by decide)).elim
    . exact (hfield (by decide)).elim
    . exact (hfield (by decide)).elim
    . exact ⟨_, rfl, .text hpatched.name⟩
    . exact ⟨_, rfl, .text hpatched.address⟩
    . exact ⟨_, rfl, .mobility hpatched.mobility⟩
    . exact ⟨_, rfl, .text hpatched.endpoint⟩
    . exact ⟨_, rfl, .text hpatched.privateKey⟩
    . exact ⟨_, rfl, .text hpatched.publicKey⟩
    . exact ⟨_, rfl, @Value.ReadInto.override _ _ .dns _ rfl hpatched.dns⟩
    . exact ⟨_, rfl, @Value.ReadInto.override _ _ .mtu _ rfl hpatched.mtu⟩
    . exact ⟨_, rfl, @Value.ReadInto.override _ _ .keepalive _ rfl hpatched.persistentKeepalive⟩
    . refine ⟨_, rfl, .hooks rfl ?_⟩
      intro hook w hw
      have hread := hpatched.hook hook
      rw [List.reverse_singleton, List.findSome?_singleton] at hread
      rw [hw] at hread
      exact hread

theorem Connection.PatchedBy.readInto {field : String} {v committed : Value} {c c' : Connection}
    (hpatched : PatchedBy [(field, v)] c c') (hfield : field ≠ "enabled")
    (hcommitted : c.field? field = some committed)
    : ∃ committed', c'.field? field = some committed' ∧ v.ReadInto field committed' := by
  unfold field? at hcommitted
  have hmem := Entries.mem_of_get?_eq_some hcommitted
  simp only [List.mem_cons, Prod.mk.injEq, List.not_mem_nil, or_false] at hmem
  obtain ⟨rfl, -⟩ | ⟨rfl, -⟩ | ⟨rfl, -⟩ | ⟨rfl, -⟩ | ⟨rfl, -⟩ := hmem
  . exact (hfield rfl).elim
  . exact ⟨_, rfl, .text hpatched.preSharedKey⟩
  . exact ⟨_, rfl, .text hpatched.allowedGreaterToLesser⟩
  . exact ⟨_, rfl, .text hpatched.allowedLesserToGreater⟩
  . exact ⟨_, rfl, @Value.ReadInto.override _ _ .keepalive _ rfl hpatched.persistentKeepalive⟩

namespace ChangeSet

variable {cs cs' : ChangeSet} {field : String} {v committed reported : Value}
  {context : Option Context}

theorem track_eq_changed
    (h : cs.track field field v committed context = .ok (.changed, cs'))
    : ∃ reported, validate field v context = .ok (.accepted reported)
        ∧ cs' = ⟨cs.errors.insert field none, cs.changed.insert field reported⟩ := by
  cases hv : validate field v context with
  | error e =>
    unfold track at h
    rw [hv] at h
    cases h
  | ok ruling =>
    cases ruling with
    | accepted reported =>
      cases hsame : reported.untagged.same committed.untagged with
      | true =>
        rw [track_of_same cs hv hsame] at h
        cases h
      | false =>
        rw [track_of_not_same cs hv hsame] at h
        cases h
        exact ⟨reported, rfl, rfl⟩
    | rejected complaint reported =>
      unfold track at h
      rw [hv] at h
      cases h

theorem entries_pending_insert (h : reported.isNull = false) (field : String)
    (errors : OrderedMap String (Option String))
    : (ChangeSet.mk errors ((∅ : OrderedMap String Value).insert field reported)).pending.entries
        =
      [(field, reported)] := by
  change [(field, reported)].filter (fun entry => !entry.2.isNull) = _
  simp [h]

end ChangeSet

namespace Network

variable {n n' : Network} {target : Target} {field : String} {v committed reported : Value}
  {cs : ChangeSet} {context : Option Context}

/--
Whether a context is one in which the fields of a target are checked: that of the network and the
key for a peer, and any for a connection.
-/
def ChecksIn (n : Network) (target : Target) (context : Option Context) : Prop :=
  match target with
  | .peer _ => context = some (n.contextOf target)
  | .connection _ => True

theorem accepts_insert {key : String} (h : Accepts field v (some ⟨n, some key⟩)) (p : Peer)
    : Accepts field v (some ⟨{ n with peers := n.peers.insert key p }, some key⟩) := by
  by_cases hfield : field = "address"
  . subst hfield
    obtain ⟨reported, hreported⟩ := h
    obtain ⟨_, f, ⟨⟩, hf, -, happly⟩ := validate_eq_accepted_iff.1 hreported
    obtain ⟨s, rfl, -⟩ := TextRule.apply_eq_accepted_iff.1 (Except.ok.inj happly)
    have hshape : Field.ofValue? v = Field.ofValue? (.text s) := hf
    have hs : Accepts "address" (.text s) (some ⟨n, some key⟩) :=
      Accepts.of_ofValue?_eq ⟨reported, hreported⟩ hshape.symm
    have hinserted : Accepts "address" (.text s)
        (some ⟨{ n with peers := n.peers.insert key p }, some key⟩) :=
      hs.address_congr rfl (TextRule.holder?_insert hs.holder?_eq_none p)
    exact hinserted.of_ofValue?_eq hshape
  . exact (accepts_congr hfield _ _).1 h

theorem readInto_of_commitPeer {key : String} (hplain : v.isPlain = true)
    (hcommitted : n.field? (.peer key) field = some committed)
    (hreported : validate field v (some ⟨n, some key⟩) = .ok (.accepted reported))
    (hpending : cs.pending.entries = [(field, reported)])
    (hcommit : n.commitPeer key cs = .ok n')
    : (∃ committed', n'.field? (.peer key) field = some committed'
          ∧ reported.ReadInto field committed')
        ∧ Accepts field v (some ⟨n', some key⟩) := by
  rw [commitPeer_eq_ok_iff] at hcommit
  obtain ⟨-, p, p', hp, hpatch, rfl⟩ := hcommit
  rw [field?_peer hp] at hcommitted
  rw [field?_peer (OrderedMap.get?_insert_self ..)]
  rw [hpending] at hpatch
  refine ⟨?_, accepts_insert ⟨reported, hreported⟩ p'⟩
  have hfield : field ∉ immutableFields := by
    obtain ⟨merged, hmerge, -⟩ := patch_eq_ok_iff.1 hpatch
    exact notMem_immutableFields_of_merge hmerge field List.mem_cons_self
  have hsets : SetsHooks (field, reported) :=
    setsHooks_of_reported hreported fun _ hgroup => (Field.isPlain_group hplain hgroup).1
  have hpatched := Peer.patchedBy_of_patch hpatch (by simp) (by simpa using hsets)
  exact hpatched.readInto hfield hcommitted

theorem readInto_of_commitConnection {id : ConnectionId}
    (hcommitted : n.field? (.connection id) field = some committed)
    (hreported : validate field v context = .ok (.accepted reported))
    (hpending : cs.pending.entries = [(field, reported)])
    (hcommit : n.commitConnection id cs = .ok n')
    : (∃ committed', n'.field? (.connection id) field = some committed'
          ∧ reported.ReadInto field committed')
        ∧ ∀ context', Accepts field v context' := by
  rw [commitConnection_eq_ok_iff] at hcommit
  obtain ⟨-, c, c', hc, hpatch, rfl⟩ := hcommit
  rw [field?_connection hc] at hcommitted
  rw [field?_connection (OrderedMap.get?_insert_self ..)]
  rw [hpending] at hpatch
  have hpatched := Connection.patchedBy_of_patch hpatch (by simp)
  constructor
  . apply hpatched.readInto _ hcommitted
    rintro rfl
    obtain ⟨_, _, ⟨⟩, -⟩ := validate_eq_accepted_iff.1 hreported
  . intro context'
    apply (accepts_congr _ context context').1 ⟨reported, hreported⟩
    rintro rfl
    cases hcommitted

theorem commit_repeated (n n' : Network) (target : Target) (field : String) (v committed : Value)
    (cs : ChangeSet) (context context' : Option Context) (hcontext : n.ChecksIn target context)
    (hcontext' : n'.ChecksIn target context')
    (hcommitted : n.field? target field = some committed) (hplain : v.isPlain = true)
    (hkeys : field = hooksField → ∀ members, v = .object members → ∀ key ∈ Entries.keys members,
      ∃ hook : Hook, hook.key = key)
    (hchanged : (∅ : ChangeSet).track field field v committed context = .ok (.changed, cs))
    (hcommit : n.commit target cs = .ok n')
    : ∃ recorded committed', cs.changed.get? field = some recorded
        ∧ n'.field? target field = some committed'
        ∧ recorded.untagged.same committed'.untagged = true
        ∧ (∀ cs' : ChangeSet, cs'.track field field v committed' context'
            = .ok (.unchanged, cs'.cleared field))
        ∧ ((∅ : ChangeSet).cleared field).pending.isEmpty = true := by
  obtain ⟨reported, hreported, rfl⟩ := ChangeSet.track_eq_changed hchanged
  obtain ⟨hnull, huntagged⟩ := reported_untagged hreported
  have hpending := ChangeSet.entries_pending_insert hnull field
  have hread : (∃ committed', n'.field? target field = some committed'
      ∧ reported.ReadInto field committed') ∧ Accepts field v context' := by
    cases target with
    | peer key =>
      cases hcontext
      cases hcontext'
      exact readInto_of_commitPeer hplain hcommitted hreported (hpending _) hcommit
    | connection id =>
      have hconnection := readInto_of_commitConnection hcommitted hreported (hpending _) hcommit
      exact ⟨hconnection.1, hconnection.2 context'⟩
  obtain ⟨⟨committed', hcommitted', hinto⟩, haccepts⟩ := hread
  have hsame : reported.untagged.same committed'.untagged = true := by
    rw [huntagged]
    exact same_of_readInto hplain hkeys hreported hinto
  have hagain := validate_of_accepts hreported haccepts
  exact ⟨reported, committed', OrderedMap.get?_insert_self .., hcommitted', hsame,
    fun cs' => cs'.track_of_same hagain hsame, rfl⟩

def rotatedScripts : Value :=
  .object [("post_down", .pair (.bool true) (.text "ip rule;")),
    ("pre_up", .object [("value", .int 1), ("enabled", .bool false)]),
    ("post_up", .pair (.bool false) (.text "")), ("pre_down", .pair (.bool false) (.bool true))]

def rotatedChanges : ChangeSet where
  errors := ⟨[("scripts", none)], by decide⟩
  changed :=
    ⟨[("scripts", .object [("post_down", .pair (.bool true) (.text "ip rule;")),
      ("pre_up", .pair (.bool false) (.int 1)), ("post_up", .pair (.bool false) (.text "")),
      ("pre_down", .pair (.bool false) (.bool true))])], by decide⟩

def rotatedGateway : Peer :=
  { gateway with
    hooks := ⟨⟨false, .number 1⟩, .off, ⟨false, .number 1⟩, ⟨true, .text "ip rule;"⟩⟩ }

def rotatedNetwork : Network :=
  { gatewayNetwork with peers := gatewayNetwork.peers.insert gateway.id rotatedGateway }

theorem commit_repeated_rotated
    : gatewayNetwork.field? (.peer gateway.id) hooksField = some (.hooks .none)
        ∧ (∅ : ChangeSet).track hooksField hooksField rotatedScripts (.hooks .none)
            (some (gatewayNetwork.contextOf (.peer gateway.id))) = .ok (.changed, rotatedChanges)
        ∧ gatewayNetwork.commit (.peer gateway.id) rotatedChanges = .ok rotatedNetwork
        ∧ ∃ recorded committed', rotatedChanges.changed.get? hooksField = some recorded
            ∧ rotatedNetwork.field? (.peer gateway.id) hooksField = some committed'
            ∧ recorded.untagged.same committed'.untagged = true
            ∧ (∀ cs' : ChangeSet, cs'.track hooksField hooksField rotatedScripts committed'
                (some (rotatedNetwork.contextOf (.peer gateway.id)))
                = .ok (.unchanged, cs'.cleared hooksField))
            ∧ ((∅ : ChangeSet).cleared hooksField).pending.isEmpty = true := by
  have hkeys : hooksField = hooksField → ∀ members, rotatedScripts = .object members
      → ∀ key ∈ Entries.keys members, ∃ hook : Hook, hook.key = key := by
    rintro - members ⟨⟩
    simp only [Entries.keys_cons, Entries.keys_nil, List.forall_mem_cons]
    exact ⟨⟨.postDown, rfl⟩, ⟨.preUp, rfl⟩, ⟨.postUp, rfl⟩, ⟨.preDown, rfl⟩, List.forall_mem_nil _⟩
  exact ⟨rfl, rfl, rfl, commit_repeated gatewayNetwork rotatedNetwork (.peer gateway.id) hooksField
    rotatedScripts (.hooks .none) rotatedChanges _ _ rfl rfl rfl (by decide) hkeys rfl rfl⟩

end Network

end WireMesh
