import WireMesh.Proofs.ChangeSet.Run
import WireMesh.Proofs.Commit.Patch
import WireMesh.Proofs.Field.AddressUse
import WireMesh.Proofs.Network.Allocation

/-!
This module contains the invariant of a network: its subnet can be read, all its peers have
addresses in it, and no two of them the same one. Addresses come from two sources that read the
subnet in different ways, the allocation for new peers and the check of edits. Both keep the
invariant, and so does every run of additions, commits and removals.
-/

namespace WireMesh

namespace Subnet

theorem readLength?_of_isNumeral {cs : List Char} (hnumeral : Decimal.isNumeral cs = true)
    (hlimit : cs.length ≤ Decimal.digitLimit) (hle : Decimal.value cs ≤ 32)
    : readLength? cs = some (Decimal.value cs) := by
  unfold readLength?
  rw [if_pos]
  simp [hnumeral, hlimit, hle]

theorem ofAnyForm?_of_parse? {s : String} {range : Subnet} (h : parse? s = .ok (some range))
    : ofAnyForm? s = some range := by
  obtain ⟨base, length, hsplit, haddress, hnumeral, hlimit, hvalue⟩ := parse?_eq_some_iff.1 h
  have hle : Decimal.value length ≤ 32 := by
    rw [hvalue]
    exact range.length_le
  unfold ofAnyForm?
  rw [hsplit]
  dsimp only
  rw [haddress]
  rw [readLength?_of_isNumeral hnumeral hlimit hle]
  rw [hvalue]
  exact dif_pos range.length_le

theorem contains_iff {s : Subnet} {a : Address}
    : s.contains a = true ↔ s.first ≤ a.value ∧ a.value < s.first + s.size := by
  have hpos := s.size_pos
  unfold contains first
  rw [beq_iff_eq]
  rw [Nat.div_eq_iff hpos]
  omega

end Subnet

theorem Peer.address_of_patch {changes : List (String × Value)} {p p' : Peer}
    (hpatch : p.patch changes = .ok p') (hnodup : (Entries.keys changes).Nodup)
    : ((Entries.get? changes "address").getD (.text p.address)).readText = .ok p'.address := by
  obtain ⟨merged, hmerge, hread⟩ := Commit.patch_eq_ok_iff.1 hpatch
  obtain ⟨-, -, haddress, -⟩ := ofMembers_eq_ok_iff.1 hread
  exact (Commit.required_eq_ok_iff_of_get?
    (Commit.get?_merge hmerge hnodup (by decide) rfl)).1 haddress

namespace Network

structure SoundIn (n : Network) (range : Subnet) : Prop where
  readable : Subnet.parse? n.subnet = .ok (some range)
  inside : ∀ key p, n.peers.get? key = some p
    → ∃ a, Address.parse? p.address = some a ∧ range.contains a = true
  distinct : ∀ key other p q, n.peers.get? key = some p → n.peers.get? other = some q
    → p.address = q.address → key = other

def Sound (n : Network) : Prop :=
  ∃ range, n.SoundIn range

inductive Step where
  | addPeer (key : String) (p : Peer) (reserved : List String)
  | commitPeer (peerId : String) (edits : List Edit)
  | commitConnection (id : ConnectionId) (cs : ChangeSet)
  | removePeer (key : String)

def perform? (n : Network) (step : Step) : Option Network :=
  match step with
  | .addPeer key p reserved =>
    match n.peers.get? key, n.nextAddress reserved with
    | none, .ok (some a) =>
      some { n with peers := n.peers.insert key { p with address := a.text } }
    | _, _ => none
  | .commitPeer peerId edits =>
    (n.commitPeer peerId (ChangeSet.run (some ⟨n, some peerId⟩) edits)).toOption
  | .commitConnection id cs => (n.commitConnection id cs).toOption
  | .removePeer key => some { n with peers := n.peers.erase key }

def after (n : Network) (step : Step) : Network :=
  (n.perform? step).getD n

def run (n : Network) (steps : List Step) : Network :=
  steps.foldl after n

variable {n n' : Network} {range : Subnet} {key : String}

theorem SoundIn.insert (h : n.SoundIn range) {p : Peer} {a : Address}
    (hparse : Address.parse? p.address = some a) (hcontains : range.contains a = true)
    (hdistinct : ∀ other q, other ≠ key → n.peers.get? other = some q → q.address ≠ p.address)
    : { n with peers := n.peers.insert key p }.SoundIn range where
  readable := h.readable
  inside := by
    intro other q hq
    rw [OrderedMap.get?_insert] at hq
    split at hq
    . cases hq
      exact ⟨a, hparse, hcontains⟩
    . exact h.inside other q hq
  distinct := by
    intro k other q r hq hr heq
    rw [OrderedMap.get?_insert] at hq hr
    split at hq
    . next hk =>
      cases hq
      split at hr
      . next hother => exact hk.symm.trans hother
      . next hother => exact (hdistinct other r (Ne.symm hother) hr heq.symm).elim
    . next hk =>
      split at hr
      . cases hr
        exact (hdistinct k q (Ne.symm hk) hq heq).elim
      . exact h.distinct k other q r hq hr heq

theorem SoundIn.erase (h : n.SoundIn range) (key : String)
    : { n with peers := n.peers.erase key }.SoundIn range := by
  have hkept : ∀ other q, (n.peers.erase key).get? other = some q
      → n.peers.get? other = some q := by
    intro other q hq
    unfold OrderedMap.erase at hq
    rw [OrderedMap.get?_filter] at hq
    exact (Option.filter_eq_some_iff.1 hq).1
  constructor
  . exact h.readable
  . intro other q hq
    exact h.inside other q (hkept other q hq)
  . intro k other q r hq hr heq
    exact h.distinct k other q r (hkept k q hq) (hkept other r hr) heq

theorem address_mem_addresses {p : Peer} (h : n.peers.get? key = some p)
    : p.address ∈ n.addresses := by
  unfold addresses OrderedMap.values
  apply List.mem_map_of_mem
  exact List.mem_map_of_mem (OrderedMap.get?_eq_some_iff.1 h)

theorem nextAddress_eq_some_isFree {a : Address} {reserved : List String}
    (hrange : Subnet.parse? n.subnet = .ok (some range))
    (h : n.nextAddress reserved = .ok (some a))
    : range.contains a = true ∧ Subnet.isFree (n.addresses ++ reserved) a = true := by
  rw [nextAddress_of_readable hrange] at h
  have hmem := List.mem_of_head? (Except.ok.inj h)
  unfold Subnet.freeAddresses at hmem
  rw [List.mem_filter] at hmem
  obtain ⟨hinside, hfree⟩ := hmem
  exact ⟨Subnet.contains_iff.2 (Subnet.mem_addresses.1 hinside), hfree⟩

theorem nextAddress_eq_some {a : Address} {reserved : List String}
    (hrange : Subnet.parse? n.subnet = .ok (some range))
    (h : n.nextAddress reserved = .ok (some a))
    : range.contains a = true ∧ a.text ∉ n.addresses := by
  obtain ⟨hcontains, hfree⟩ := nextAddress_eq_some_isFree hrange h
  obtain ⟨-, -, htaken⟩ := Subnet.isFree_iff.1 hfree
  rw [List.mem_append, not_or] at htaken
  exact ⟨hcontains, htaken.1⟩

theorem SoundIn.addPeer (h : n.SoundIn range) {a : Address} {reserved : List String}
    (hnext : n.nextAddress reserved = .ok (some a)) (key : String) (p : Peer)
    : { n with peers := n.peers.insert key { p with address := a.text } }.SoundIn range := by
  obtain ⟨hcontains, hfree⟩ := nextAddress_eq_some h.readable hnext
  apply h.insert (Address.parse?_eq_some_iff.2 rfl) hcontains
  intro other q _ hq heq
  have haddress : q.address = a.text := heq
  apply hfree
  rw [← haddress]
  exact address_mem_addresses hq

theorem SoundIn.commitPeer (h : n.SoundIn range) {edits : List Edit}
    (hcommit : n.commitPeer key (ChangeSet.run (some ⟨n, some key⟩) edits) = .ok n')
    : n'.SoundIn range := by
  rw [commitPeer_eq_ok_iff] at hcommit
  obtain ⟨-, p, p', hp, hpatch, rfl⟩ := hcommit
  have hread := Peer.address_of_patch hpatch (OrderedMap.nodup _)
  cases hget :
      Entries.get? (ChangeSet.run (some ⟨n, some key⟩) edits).pending.entries "address" with
  | none =>
    rw [hget] at hread
    have hkept : p.address = p'.address := Option.some.inj (Value.readText_eq_ok_iff.1 hread)
    obtain ⟨a, hparse, hcontains⟩ := h.inside key p hp
    rw [hkept] at hparse
    apply h.insert hparse hcontains
    intro other q hne hq heq
    exact hne (h.distinct other key q p hq hp (heq.trans hkept.symm))
  | some v =>
    obtain ⟨e, -, -, haccepted⟩ := ChangeSet.reported_of_get?_pending_run hget
    obtain ⟨s, rfl, hs⟩ := reported_text rfl haccepted
    rw [hget] at hread
    have hnew : s = p'.address := Option.some.inj (Value.readText_eq_ok_iff.1 hread)
    subst hnew
    obtain ⟨-, a, hparse, huse⟩ := accepts_address_iff.1 hs
    have hcontains : range.contains a = true :=
      TextRule.contains_of_checkUse (Subnet.ofAnyForm?_of_parse? h.readable) huse
    apply h.insert hparse hcontains
    intro other q hne hq
    obtain hother | haddress := TextRule.holder?_eq_none_iff.1 hs.holder?_eq_none other q hq
    . exact (hne (Option.some.inj hother)).elim
    . exact haddress

theorem SoundIn.commitConnection (h : n.SoundIn range) {id : ConnectionId} {cs : ChangeSet}
    (hcommit : n.commitConnection id cs = .ok n') : n'.SoundIn range := by
  rw [commitConnection_eq_ok_iff] at hcommit
  obtain ⟨-, _, _, -, -, rfl⟩ := hcommit
  exact ⟨h.readable, h.inside, h.distinct⟩

theorem toOption_eq_some_iff {outcome : Except CommitError Network}
    : outcome.toOption = some n' ↔ outcome = .ok n' := by
  cases outcome with
  | error e => simp [Except.toOption]
  | ok n => simp [Except.toOption]

theorem SoundIn.perform (h : n.SoundIn range) {step : Step} (hstep : n.perform? step = some n')
    : n'.SoundIn range := by
  unfold perform? at hstep
  cases step with
  | addPeer key p reserved =>
    dsimp only at hstep
    split at hstep
    . next hnext =>
      cases hstep
      exact h.addPeer hnext key p
    . cases hstep
  | commitPeer peerId edits =>
    exact h.commitPeer (toOption_eq_some_iff.1 hstep)
  | commitConnection id cs =>
    exact h.commitConnection (toOption_eq_some_iff.1 hstep)
  | removePeer key =>
    cases hstep
    exact h.erase key

theorem SoundIn.after (h : n.SoundIn range) (step : Step) : (n.after step).SoundIn range := by
  unfold Network.after
  cases hstep : n.perform? step with
  | none => exact h
  | some n' => exact h.perform hstep

theorem sound_run {n : Network} (h : n.Sound) (steps : List Step) : (n.run steps).Sound := by
  obtain ⟨range, h⟩ := h
  refine ⟨range, ?_⟩
  unfold run
  induction steps generalizing n with
  | nil => exact h
  | cons step rest ih => exact ih (h.after step)

def visitorId : String := "e0000000-0000-4000-8000-000000000000"

def routerId : String := "f0000000-0000-4000-8000-000000000000"

def router : Peer where
  id := routerId
  name := "router"
  address := "10.0.0.1"
  mobility := .roaming
  endpoint := ""
  privateKey := "private"
  publicKey := "public"
  dns := .off
  mtu := .off
  persistentKeepalive := .off
  hooks := .none
  id_ne_empty := by decide

def visitor : Peer :=
  { router with id := visitorId, name := "visitor", address := "", id_ne_empty := by decide }

def routerLink : ConnectionId :=
  ⟨routerId, visitorId, by decide, by decide, by decide⟩

def routerOnly : Network where
  identifier := "office"
  subnet := "10.0.0.9/24"
  peers := ⟨[(routerId, router)], by simp [Entries.keys]⟩
  connections :=
    ⟨[(routerLink, ⟨true, "shared", "10.0.0.2/32", "10.0.0.1/32", .off⟩)], by simp [Entries.keys]⟩

def visit : List Step :=
  [.addPeer visitorId visitor ["10.0.0.2"],
   .addPeer routerId visitor [],
   .commitPeer visitorId [⟨"address", .text "10.0.0.1", .text "10.0.0.3"⟩],
   .commitPeer visitorId [⟨"address", .text "10.0.0.77", .text "10.0.0.3"⟩],
   .commitConnection routerLink ⟨∅, ⟨[("enabled", .bool false)], by simp [Entries.keys]⟩⟩,
   .removePeer routerId]

theorem soundIn_routerOnly : routerOnly.SoundIn ⟨⟨167772169, by decide⟩, 24, by decide⟩ := by
  have hrouter : ∀ key p, routerOnly.peers.get? key = some p → key = routerId ∧ p = router := by
    intro key p hp
    rw [OrderedMap.get?_eq_some_iff] at hp
    exact Prod.mk.inj (List.mem_singleton.1 hp)
  refine ⟨rfl, ?_, ?_⟩
  . intro key p hp
    obtain ⟨-, rfl⟩ := hrouter key p hp
    exact ⟨⟨167772161, by decide⟩, rfl, by decide⟩
  . intro key other p q hp hq _
    rw [(hrouter key p hp).1]
    rw [(hrouter other q hq).1]

theorem sound_run_visit
    : routerOnly.Sound ∧ (routerOnly.run visit).addresses = ["10.0.0.77"]
        ∧ (routerOnly.run visit).Sound :=
  ⟨⟨_, soundIn_routerOnly⟩, rfl, sound_run ⟨_, soundIn_routerOnly⟩ visit⟩

end Network

end WireMesh
