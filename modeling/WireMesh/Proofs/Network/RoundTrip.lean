import WireMesh.Proofs.Network.LinkKeys
import WireMesh.Proofs.Reading

/-!
This module contains the way back from what a network is written as. The wire forms of its
connections are distinct, so no connection is lost, and reading the object gives the same network
with its peers and connections in the same order.
-/

namespace WireMesh

theorem Override.isPlain_toValue (o : Override) : o.toValue.isPlain = true := by
  obtain ⟨enabled, value⟩ := o
  cases value with
  | number n => rfl
  | text s => rfl

theorem Hooks.isPlain_toValue (h : Hooks) : h.toValue.isPlain = true := by
  unfold toValue
  rw [Value.isPlain_object_iff]
  unfold members
  refine ⟨by simp [Hook.all, Hook.key], ?_⟩
  rw [List.forall_mem_map]
  intro hook _
  exact Override.isPlain_toValue _

namespace ConnectionId

theorem wire_injective : Function.Injective wire := by
  intro id other h
  have hpeers := splitWire?_wire id
  rw [h, splitWire?_wire] at hpeers
  cases id
  cases other
  cases hpeers
  rfl

theorem make_wire (id : ConnectionId) : (LinkKey.wire id.wire).make = .ok id := by
  rw [LinkKey.make_eq_ok_iff]
  exact .wire rfl id.greater_free id.lesser_free

theorem ofValue_toValue (id : ConnectionId) : ofValue id.toValue = .ok id := by
  rw [ofValue_eq_ok_iff]
  exact ⟨_, _, .members rfl rfl rfl rfl rfl, ofPeers_greater_lesser id⟩

end ConnectionId

theorem Peer.ofValue_toValue (p : Peer) : ofValue p.toValue = .ok p :=
  p.ofMembers_members

theorem Peer.ofValue_dump (p : Peer) : ofValue p.dump = .ok p := by
  rw [← p.ofValue_toValue]
  change ofMembers (Entries.put p.members "mobility" (.mobility p.mobility)) = ofMembers p.members
  rfl

theorem Peer.isPlain_toValue (p : Peer) : p.toValue.isPlain = true := by
  unfold toValue
  rw [Value.isPlain_object_iff]
  unfold members
  refine ⟨by simp, ?_⟩
  simp only [List.forall_mem_cons, Override.isPlain_toValue, Hooks.isPlain_toValue]
  simp [Value.isPlain]

theorem Connection.ofValue_toValue (c : Connection) : ofValue c.toValue = .ok c :=
  c.ofMembers_members

theorem Connection.isPlain_toValue (c : Connection) : c.toValue.isPlain = true := by
  unfold toValue
  rw [Value.isPlain_object_iff]
  unfold members
  refine ⟨by simp, ?_⟩
  simp only [List.forall_mem_cons, Override.isPlain_toValue]
  simp [Value.isPlain]

namespace Network

variable {write : Peer → Value}

theorem readTable_peers (n : Network) (hwrite : ∀ p, Peer.ofValue (write p) = .ok p)
    : Members.readTable Peer.ofValue
        (.object (n.peers.entries.map fun entry => (entry.1, write entry.2)))
        =
      .ok n.peers := by
  unfold Members.readTable
  dsimp only
  rw [Checked.map_eq_ok_iff]
  refine ⟨n.peers.entries, ?_, n.peers.ofList_entries⟩
  rw [Members.readEach_eq_ok_iff]
  rw [List.forall₂_map_left_iff]
  rw [List.forall₂_same]
  intro entry _
  exact ⟨rfl, hwrite entry.2⟩

theorem makeLinks_wire (n : Network)
    : makeLinks [] (n.connections.entries.map fun entry => (.wire entry.1.wire, entry.2.toValue))
        =
      .ok (n.connections.entries.map fun entry => (entry.1, entry.2.toValue)) := by
  rw [makeLinks_nil_eq_ok_iff]
  constructor
  . rw [List.forall₂_map_left_iff, List.forall₂_map_right_iff]
    rw [List.forall₂_same]
    intro entry _
    exact ⟨entry.1.make_wire, rfl⟩
  . unfold Entries.keys
    rw [List.map_map]
    exact n.connections.nodup

theorem connectionsOf_toValue (n : Network)
    : connectionsOf (n.connections.entries.map fun entry => (entry.1, entry.2.toValue))
        =
      .ok n.connections := by
  rw [connectionsOf_eq_ok_iff]
  . rw [List.forall₂_map_left_iff]
    rw [List.forall₂_same]
    intro entry _
    exact ⟨rfl, entry.2.ofValue_toValue⟩
  . unfold Entries.keys
    rw [List.map_map]
    exact n.connections.nodup

theorem ofMembers_membersWith (n : Network) (hwrite : ∀ p, Peer.ofValue (write p) = .ok p)
    : ofMembers (n.membersWith write) = .ok n := by
  have hlinks : ofMembers (n.membersWith write) = ofEntries (n.membersWith write)
      (n.connections.entries.map fun entry => (.wire entry.1.wire, entry.2.toValue)) := by
    change ofEntries _ (List.map _ (List.map _ _)) = _
    rw [List.map_map]
    rfl
  rw [hlinks]
  unfold ofEntries
  rw [makeLinks_wire]
  dsimp only
  rw [ofFields_eq_ok_iff]
  refine ⟨rfl, rfl, ?_, ?_⟩
  . rw [Members.optional_of_get?_eq_some rfl]
    rw [Checked.under_eq_ok_iff]
    exact n.readTable_peers hwrite
  . rw [Checked.under_eq_ok_iff]
    exact n.connectionsOf_toValue

theorem isPlain_toValue (n : Network) : n.toValue.isPlain = true := by
  have hpeers : (Value.object (n.peers.entries.map fun entry =>
      (entry.1, entry.2.toValue))).isPlain = true := by
    rw [Value.isPlain_object_iff]
    unfold Entries.keys
    rw [List.map_map, List.forall_mem_map]
    exact ⟨n.peers.nodup, fun entry _ => entry.2.isPlain_toValue⟩
  have hconnections : (Value.object (n.connections.entries.map fun entry =>
      (entry.1.wire, entry.2.toValue))).isPlain = true := by
    rw [Value.isPlain_object_iff]
    unfold Entries.keys
    rw [List.map_map, List.forall_mem_map]
    refine ⟨?_, fun entry _ => entry.2.isPlain_toValue⟩
    have hkeys := n.connections.nodup.map ConnectionId.wire_injective
    unfold Entries.keys at hkeys
    rw [List.map_map] at hkeys
    exact hkeys
  unfold toValue
  rw [Value.isPlain_object_iff]
  unfold members membersWith
  refine ⟨by simp, ?_⟩
  simp only [List.forall_mem_cons, hpeers, hconnections]
  simp [Value.isPlain]

theorem ofValue_writes_back
    : (∀ n : Network, ofValue n.dump = .ok n ∧ ofValue n.toValue = .ok n
          ∧ n.toValue.isPlain = true)
      ∧ (∀ p : Peer, Peer.ofValue p.dump = .ok p ∧ Peer.ofValue p.toValue = .ok p
          ∧ p.toValue.isPlain = true)
      ∧ (∀ c : Connection, Connection.ofValue c.toValue = .ok c ∧ c.toValue.isPlain = true)
      ∧ (∀ h : Hooks, Hooks.ofValue h.toValue = .ok h ∧ h.toValue.isPlain = true)
      ∧ (∀ o : Override, Override.ofValue o.toValue = .ok o ∧ o.toValue.isPlain = true)
      ∧ ∀ id : ConnectionId, ConnectionId.ofValue id.toValue = .ok id
          ∧ id.toValue.isPlain = true := by
  refine ⟨?_, ?_, ?_, ?_, ?_, ?_⟩
  . intro n
    exact ⟨n.ofMembers_membersWith Peer.ofValue_dump,
      n.ofMembers_membersWith Peer.ofValue_toValue, n.isPlain_toValue⟩
  . intro p
    exact ⟨p.ofValue_dump, p.ofValue_toValue, p.isPlain_toValue⟩
  . intro c
    exact ⟨c.ofValue_toValue, c.isPlain_toValue⟩
  . intro h
    exact ⟨h.ofValue_toValue, h.isPlain_toValue⟩
  . intro o
    exact ⟨o.ofValue_toValue, o.isPlain_toValue⟩
  . intro id
    exact ⟨id.ofValue_toValue, rfl⟩

end Network

end WireMesh
