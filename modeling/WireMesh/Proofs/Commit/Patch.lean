import WireMesh.Proofs.Commit.Merge
import WireMesh.Proofs.Field.HookGroup

/-!
This module contains what a commit makes of a peer or a connection. Every field is read from its
pending value, or stays as it was if none is pending, and nothing else in the network changes.
-/

namespace WireMesh

open Commit

structure Peer.PatchedBy (changes : List (String × Value)) (p p' : Peer) : Prop where
  id : p'.id = p.id
  name : ((Entries.get? changes "name").getD (.text p.name)).readText = .ok p'.name
  address : ((Entries.get? changes "address").getD (.text p.address)).readText = .ok p'.address
  mobility : ((Entries.get? changes "mobility").getD (.text p.mobility.name)).readMobility
    = .ok p'.mobility
  endpoint : ((Entries.get? changes "endpoint").getD (.text p.endpoint)).readText = .ok p'.endpoint
  privateKey : ((Entries.get? changes "private_key").getD (.text p.privateKey)).readText
    = .ok p'.privateKey
  publicKey : ((Entries.get? changes "public_key").getD (.text p.publicKey)).readText
    = .ok p'.publicKey
  dns : Override.ofValue ((Entries.get? changes "dns").getD p.dns.toValue) = .ok p'.dns
  mtu : Override.ofValue ((Entries.get? changes "mtu").getD p.mtu.toValue) = .ok p'.mtu
  persistentKeepalive : Override.ofValue
    ((Entries.get? changes "persistent_keepalive").getD p.persistentKeepalive.toValue)
    = .ok p'.persistentKeepalive
  hook : ∀ hook : Hook, Override.ofValue
    ((changes.reverse.findSome? (hookValue? hook)).getD (p.hooks.get hook).toValue)
    = .ok (p'.hooks.get hook)

structure Connection.PatchedBy (changes : List (String × Value)) (c c' : Connection) : Prop where
  enabled : ((Entries.get? changes "enabled").getD (.bool c.enabled)).readBool = .ok c'.enabled
  preSharedKey : ((Entries.get? changes "pre_shared_key").getD (.text c.preSharedKey)).readText
    = .ok c'.preSharedKey
  allowedGreaterToLesser :
    ((Entries.get? changes "allowed_ips_a_to_b").getD (.text c.allowedGreaterToLesser)).readText
    = .ok c'.allowedGreaterToLesser
  allowedLesserToGreater :
    ((Entries.get? changes "allowed_ips_b_to_a").getD (.text c.allowedLesserToGreater)).readText
    = .ok c'.allowedLesserToGreater
  persistentKeepalive : Override.ofValue
    ((Entries.get? changes "persistent_keepalive").getD c.persistentKeepalive.toValue)
    = .ok c'.persistentKeepalive

theorem Commit.setsHooks_of_reported {field : String} {v reported : Value}
    {context : Option Context} (h : validate field v context = .ok (.accepted reported))
    (hnodup : ∀ members, Field.ofValue? v = some (.group members)
      → (Entries.keys members).Nodup)
    : SetsHooks (field, reported) := by
  rintro rfl
  obtain ⟨members, hgroup, rfl, -⟩ := reported_group h
  refine ⟨_, rfl, ?_⟩
  rw [Value.keys_plainMembers]
  exact hnodup members hgroup

namespace Peer

variable {changes : List (String × Value)} {p p' : Peer}

theorem optional_hooks_eq_ok_iff {merged : List (String × Value)} {hooks : Hooks}
    (hmerge : merge .peer p.members changes = .ok merged)
    (hsets : ∀ change ∈ changes, SetsHooks change)
    : Members.optional merged hooksField Hooks.ofValue .none = .ok hooks
        ↔
      ∀ hook : Hook, Override.ofValue
          ((changes.reverse.findSome? (hookValue? hook)).getD (p.hooks.get hook).toValue)
        = .ok (hooks.get hook) := by
  obtain ⟨members, hget, hvalue⟩ := hooks_merge hmerge rfl hsets
  rw [Members.optional_of_get?_eq_some hget]
  rw [Checked.under_eq_ok_iff]
  change Hooks.ofMembers members = .ok hooks ↔ _
  rw [Hooks.ofMembers_eq_ok_iff]
  apply forall_congr'
  intro hook
  have hold := hvalue hook
  rw [p.hooks.get?_members hook] at hold
  rw [Option.or_some] at hold
  rw [Members.optional_of_get?_eq_some hold]
  exact Checked.under_eq_ok_iff

theorem patch_nil (p : Peer) : p.patch [] = .ok p :=
  patch_eq_ok_iff.2 ⟨p.members, rfl, p.ofMembers_members⟩

theorem ofMembers_merged_eq_ok_iff {merged : List (String × Value)}
    (hmerge : merge .peer p.members changes = .ok merged) (hnodup : (Entries.keys changes).Nodup)
    (hsets : ∀ change ∈ changes, SetsHooks change)
    : ofMembers merged = .ok p' ↔ PatchedBy changes p p' := by
  have hget : ∀ key, key ≠ hooksField → Hook.ofKey? key = none → Entries.get? merged key
      = (Entries.get? changes key).or (Entries.get? p.members key) :=
    fun key hkey hhook => get?_merge hmerge hnodup hkey hhook
  have hkept : Entries.get? changes "id" = none := by
    rw [Entries.get?_eq_none_iff]
    intro hmem
    apply notMem_immutableFields_of_merge hmerge "id" hmem
    decide
  have hid : Members.required merged "id" Value.readNonemptyText = .ok ⟨p'.id, p'.id_ne_empty⟩
      ↔ p'.id = p.id := by
    rw [required_eq_ok_iff_of_get? (hget "id" (by decide) rfl)]
    rw [hkept]
    rw [Value.readNonemptyText_eq_ok_iff]
    change some p.id = some p'.id ↔ _
    rw [Option.some.injEq]
    exact eq_comm
  have hhooks : Members.optional merged "scripts" Hooks.ofValue .none = .ok p'.hooks ↔ _ :=
    optional_hooks_eq_ok_iff hmerge hsets
  rw [ofMembers_eq_ok_iff]
  rw [hid]
  rw [required_eq_ok_iff_of_get? (hget "name" (by decide) rfl)]
  rw [required_eq_ok_iff_of_get? (hget "address" (by decide) rfl)]
  rw [optional_eq_ok_iff_of_get? (hget "mobility" (by decide) rfl)]
  rw [optional_eq_ok_iff_of_get? (hget "endpoint" (by decide) rfl)]
  rw [optional_eq_ok_iff_of_get? (hget "private_key" (by decide) rfl)]
  rw [optional_eq_ok_iff_of_get? (hget "public_key" (by decide) rfl)]
  rw [optional_eq_ok_iff_of_get? (hget "dns" (by decide) rfl)]
  rw [optional_eq_ok_iff_of_get? (hget "mtu" (by decide) rfl)]
  rw [optional_eq_ok_iff_of_get? (hget "persistent_keepalive" (by decide) rfl)]
  rw [hhooks]
  constructor
  . rintro ⟨hid, hname, haddress, hmobility, hendpoint, hprivate, hpublic, hdns, hmtu, hkeepalive,
      hhooks⟩
    exact ⟨hid, hname, haddress, hmobility, hendpoint, hprivate, hpublic, hdns, hmtu, hkeepalive,
      hhooks⟩
  . rintro ⟨hid, hname, haddress, hmobility, hendpoint, hprivate, hpublic, hdns, hmtu, hkeepalive,
      hhooks⟩
    exact ⟨hid, hname, haddress, hmobility, hendpoint, hprivate, hpublic, hdns, hmtu, hkeepalive,
      hhooks⟩

theorem patchedBy_of_patch (hpatch : p.patch changes = .ok p')
    (hnodup : (Entries.keys changes).Nodup) (hsets : ∀ change ∈ changes, SetsHooks change)
    : PatchedBy changes p p' := by
  obtain ⟨merged, hmerge, hread⟩ := patch_eq_ok_iff.1 hpatch
  exact (ofMembers_merged_eq_ok_iff hmerge hnodup hsets).1 hread

end Peer

namespace Connection

variable {changes : List (String × Value)} {c c' : Connection}

theorem patch_nil (c : Connection) : c.patch [] = .ok c :=
  patch_eq_ok_iff.2 ⟨c.members, rfl, c.ofMembers_members⟩

theorem ofMembers_merged_eq_ok_iff {merged : List (String × Value)}
    (hmerge : merge .connection c.members changes = .ok merged)
    (hnodup : (Entries.keys changes).Nodup)
    : ofMembers merged = .ok c' ↔ PatchedBy changes c c' := by
  have hget : ∀ key, key ≠ hooksField → Hook.ofKey? key = none → Entries.get? merged key
      = (Entries.get? changes key).or (Entries.get? c.members key) :=
    fun key hkey hhook => get?_merge hmerge hnodup hkey hhook
  rw [ofMembers_eq_ok_iff]
  rw [optional_eq_ok_iff_of_get? (hget "enabled" (by decide) rfl)]
  rw [optional_eq_ok_iff_of_get? (hget "pre_shared_key" (by decide) rfl)]
  rw [optional_eq_ok_iff_of_get? (hget "allowed_ips_a_to_b" (by decide) rfl)]
  rw [optional_eq_ok_iff_of_get? (hget "allowed_ips_b_to_a" (by decide) rfl)]
  rw [optional_eq_ok_iff_of_get? (hget "persistent_keepalive" (by decide) rfl)]
  constructor
  . rintro ⟨henabled, hkey, hgreater, hlesser, hkeepalive⟩
    exact ⟨henabled, hkey, hgreater, hlesser, hkeepalive⟩
  . rintro ⟨henabled, hkey, hgreater, hlesser, hkeepalive⟩
    exact ⟨henabled, hkey, hgreater, hlesser, hkeepalive⟩

theorem patchedBy_of_patch (hpatch : c.patch changes = .ok c')
    (hnodup : (Entries.keys changes).Nodup) : PatchedBy changes c c' := by
  obtain ⟨merged, hmerge, hread⟩ := patch_eq_ok_iff.1 hpatch
  exact (ofMembers_merged_eq_ok_iff hmerge hnodup).1 hread

end Connection

namespace Network

theorem commitPeer_eq_ok_iff {n n' : Network} {peerId : String} {cs : ChangeSet}
    : n.commitPeer peerId cs = .ok n'
        ↔
      cs.hasErrors = false ∧ ∃ p p', n.peers.get? peerId = some p
        ∧ p.patch cs.pending.entries = .ok p'
        ∧ n' = { n with peers := n.peers.insert peerId p' } := by
  unfold commitPeer
  cases hp : n.peers.get? peerId with
  | none => simp
  | some p =>
    cases cs.hasErrors with
    | true => simp
    | false =>
      simp only [Bool.false_eq_true, if_false, true_and, Option.some.injEq, exists_and_left,
        exists_eq_left']
      -- With nothing pending the peer is patched with what it is already.
      rw [ite_eq_right_iff.2]
      . cases p.patch cs.pending.entries with
        | error e => simp
        | ok p' => simp [eq_comm]
      . intro hempty
        have hentries : cs.pending.entries = [] := List.isEmpty_iff.1 hempty
        rw [hentries]
        rw [p.patch_nil]
        dsimp only
        rw [OrderedMap.insert_of_get?_eq_some hp]

theorem commitConnection_eq_ok_iff {n n' : Network} {id : ConnectionId} {cs : ChangeSet}
    : n.commitConnection id cs = .ok n'
        ↔
      cs.hasErrors = false ∧ ∃ c c', n.connections.get? id = some c
        ∧ c.patch cs.pending.entries = .ok c'
        ∧ n' = { n with connections := n.connections.insert id c' } := by
  unfold commitConnection
  cases hc : n.connections.get? id with
  | none => simp
  | some c =>
    cases cs.hasErrors with
    | true => simp
    | false =>
      simp only [Bool.false_eq_true, if_false, true_and, Option.some.injEq, exists_and_left,
        exists_eq_left']
      rw [ite_eq_right_iff.2]
      . cases c.patch cs.pending.entries with
        | error e => simp
        | ok c' => simp [eq_comm]
      . intro hempty
        have hentries : cs.pending.entries = [] := List.isEmpty_iff.1 hempty
        rw [hentries]
        rw [c.patch_nil]
        dsimp only
        rw [OrderedMap.insert_of_get?_eq_some hc]

end Network

end WireMesh
