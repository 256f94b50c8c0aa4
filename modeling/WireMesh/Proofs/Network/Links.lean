import WireMesh.Network.Link

/-!
This module contains what the links of a peer are: its enabled connections, each once, with the peer
that the network has under the key of the other end. Sorting the links only permutes them.
-/

namespace WireMesh.Network

def enabledOf (n : Network) (peerId : String) : List (ConnectionId × Connection) :=
  (n.connectionsOfPeer peerId).filter fun entry => entry.2.enabled

theorem mem_enabledOf_iff {n : Network} {peerId : String} {entry : ConnectionId × Connection}
    : entry ∈ n.enabledOf peerId
        ↔
      n.connections.get? entry.1 = some entry.2 ∧ entry.1.contains peerId = true
        ∧ entry.2.enabled = true := by
  unfold enabledOf connectionsOfPeer
  rw [List.mem_filter, List.mem_filter]
  rw [OrderedMap.get?_eq_some_iff]
  rw [and_assoc]

theorem nodup_keys_enabledOf (n : Network) (peerId : String)
    : (Entries.keys (n.enabledOf peerId)).Nodup :=
  Entries.nodup_keys_filter (Entries.nodup_keys_filter n.connections.nodup _) _

theorem map_linkTargets (n : Network) (peerId : String)
    : (n.linkTargets peerId).map (fun target => (target.1, target.2.1)) = n.enabledOf peerId := by
  unfold linkTargets enabledOf connectionsOfPeer
  rw [List.map_filterMap]
  rw [List.filter_filter]
  rw [← List.filterMap_eq_filter]
  congr 1
  funext entry
  have hother := @ConnectionId.isSome_other?_iff entry.1 peerId
  cases ho : entry.1.other? peerId <;> cases he : entry.2.enabled <;>
    simp_all [Option.guard]

theorem other?_of_mem_linkTargets {n : Network} {peerId : String}
    {target : ConnectionId × Connection × String} (h : target ∈ n.linkTargets peerId)
    : target.1.other? peerId = some target.2.2 := by
  unfold linkTargets at h
  rw [List.mem_filterMap] at h
  obtain ⟨entry, -, hentry⟩ := h
  split at hentry
  . rw [Option.map_eq_some_iff] at hentry
    obtain ⟨other, ho, rfl⟩ := hentry
    exact ho
  . cases hentry

theorem resolveLinks_eq_ok_iff {n : Network} {targets : List (ConnectionId × Connection × String)}
    {links : List Link}
    : n.resolveLinks targets = .ok links
        ↔
      targets.map (fun target => (target.1, target.2.1, n.peers.get? target.2.2))
        = links.map fun link => (link.id, link.connection, some link.other) := by
  induction targets generalizing links with
  | nil => cases links <;> simp [resolveLinks]
  | cons target rest ih =>
    obtain ⟨id, c, other⟩ := target
    unfold resolveLinks
    unfold peer
    -- A missing peer is none on the left, and no link has none on the right.
    cases hp : n.peers.get? other with
    | none => cases links <;> simp [hp]
    | some p =>
      cases links with
      | nil => cases hr : n.resolveLinks rest <;> simp
      | cons link links =>
        obtain ⟨id', c', other'⟩ := link
        specialize @ih links
        cases hr : n.resolveLinks rest with
        | error e =>
          rw [hr] at ih
          simp only [reduceCtorEq, false_iff] at ih
          simp [ih]
        | ok more =>
          rw [hr] at ih
          simp only [Except.ok.injEq] at ih
          simp [hp, ← ih, and_assoc]

theorem links_false (n : Network) (peerId : String)
    : n.links peerId false = n.resolveLinks (n.linkTargets peerId) := by
  unfold Network.links
  cases n.resolveLinks (n.linkTargets peerId) with
  | error e => rfl
  | ok links => rfl

theorem links_true_eq_ok_iff {n : Network} {peerId : String} {links : List Link}
    : n.links peerId true = .ok links
        ↔
      ∃ unsorted, n.links peerId false = .ok unsorted ∧ sortLinks unsorted = links := by
  unfold Network.links
  cases n.resolveLinks (n.linkTargets peerId) with
  | error e => simp
  | ok unsorted => simp

theorem links_eq_ok {n : Network} {peerId : String} {sorted : Bool} {links : List Link}
    (h : n.links peerId sorted = .ok links)
    : ∃ resolved, n.resolveLinks (n.linkTargets peerId) = .ok resolved ∧ links.Perm resolved := by
  unfold Network.links at h
  split at h
  . cases h
  . next resolved hr =>
    cases h
    refine ⟨resolved, hr, ?_⟩
    split
    . exact List.mergeSort_perm _ _
    . exact List.Perm.refl _

theorem perm_enabledOf {n : Network} {peerId : String} {sorted : Bool} {links : List Link}
    (h : n.links peerId sorted = .ok links)
    : (links.map fun link => (link.id, link.connection)).Perm (n.enabledOf peerId) := by
  obtain ⟨resolved, hr, hperm⟩ := links_eq_ok h
  rw [resolveLinks_eq_ok_iff] at hr
  have hmap := congrArg (List.map fun t => (t.1, t.2.1)) hr
  simp only [List.map_map, Function.comp_def] at hmap
  rw [← map_linkTargets, hmap]
  exact hperm.map _

theorem other_of_mem_links {n : Network} {peerId : String} {sorted : Bool} {links : List Link}
    (h : n.links peerId sorted = .ok links) {link : Link} (hlink : link ∈ links)
    : ∃ key, link.id.other? peerId = some key ∧ n.peers.get? key = some link.other := by
  obtain ⟨resolved, hr, hperm⟩ := links_eq_ok h
  rw [resolveLinks_eq_ok_iff] at hr
  have hmem : (link.id, link.connection, some link.other)
      ∈ (n.linkTargets peerId).map fun t => (t.1, t.2.1, n.peers.get? t.2.2) := by
    rw [hr]
    exact List.mem_map.2 ⟨link, hperm.mem_iff.1 hlink, rfl⟩
  rw [List.mem_map] at hmem
  obtain ⟨target, htarget, heq⟩ := hmem
  simp only [Prod.mk.injEq] at heq
  refine ⟨target.2.2, ?_, heq.2.2⟩
  rw [← heq.1]
  exact other?_of_mem_linkTargets htarget

end WireMesh.Network
