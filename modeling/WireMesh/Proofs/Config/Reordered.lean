import Mathlib.Data.List.Perm.Basic
import WireMesh.Proofs.Ascending
import WireMesh.Proofs.Config.LinkEnds

/-!
This module contains the proof that a sorted configuration does not depend on the order in which a
network holds its peers and connections. Two links of a peer never lead to the same peer, so if every
peer stands under its own id, sorting the links by the ids of the other peers leaves nothing open.
One that fails in one order fails in every order, though another missing peer may be named.
-/

namespace WireMesh

theorem OrderedMap.get?_of_perm {α β : Type} [DecidableEq α] {m n : OrderedMap α β}
    (h : m.entries.Perm n.entries) (key : α) : m.get? key = n.get? key := by
  apply Option.ext
  intro value
  rw [get?_eq_some_iff, get?_eq_some_iff]
  exact h.mem_iff

namespace Network

structure Reorders (n m : Network) : Prop where
  identifier : n.identifier = m.identifier
  peers : n.peers.entries.Perm m.peers.entries
  connections : n.connections.entries.Perm m.connections.entries

def KeyedById (n : Network) : Prop :=
  ∀ entry ∈ n.peers.entries, entry.2.id = entry.1

namespace Reorders

variable {n m : Network}

theorem symm (h : n.Reorders m) : m.Reorders n :=
  ⟨h.identifier.symm, h.peers.symm, h.connections.symm⟩

theorem keyedById (h : n.Reorders m) (hn : n.KeyedById) : m.KeyedById := by
  intro entry hentry
  exact hn entry (h.peers.mem_iff.2 hentry)

end Reorders

variable {n m : Network} {peerId : String} {links unsorted : List Link} {link other : Link}

def ResolvesTo (n : Network) (target : ConnectionId × Connection × String) (link : Link) : Prop :=
  (target.1, target.2.1, n.peers.get? target.2.2) = (link.id, link.connection, some link.other)

theorem resolveLinks_eq_ok_iff_forall₂ {targets : List (ConnectionId × Connection × String)}
    : n.resolveLinks targets = .ok links ↔ List.Forall₂ n.ResolvesTo targets links := by
  rw [resolveLinks_eq_ok_iff]
  rw [← List.forall₂_eq_eq_eq]
  rw [List.forall₂_map_left_iff, List.forall₂_map_right_iff]
  rfl

theorem Reorders.exists_links (h : n.Reorders m) (hlinks : n.links peerId false = .ok links)
    : ∃ links', m.links peerId false = .ok links' ∧ links'.Perm links := by
  have htargets : (m.linkTargets peerId).Perm (n.linkTargets peerId) :=
    h.connections.symm.filterMap _
  have hresolve : n.ResolvesTo = m.ResolvesTo := by
    funext target link
    unfold ResolvesTo
    rw [OrderedMap.get?_of_perm h.peers]
  rw [links_false] at hlinks ⊢
  rw [resolveLinks_eq_ok_iff_forall₂, hresolve] at hlinks
  obtain ⟨links', hlinks', hperm⟩ := List.perm_comp_forall₂ htargets hlinks
  exact ⟨links', resolveLinks_eq_ok_iff_forall₂.2 hlinks', hperm⟩

theorem id_eq_of_other_id_eq (hkeys : n.KeyedById) (hlinks : n.links peerId false = .ok links)
    (hlink : link ∈ links) (hother : other ∈ links) (h : link.other.id = other.other.id)
    : link.id = other.id := by
  obtain ⟨key, hkey, hpeer⟩ := other_of_mem_links hlinks hlink
  obtain ⟨key', hkey', hpeer'⟩ := other_of_mem_links hlinks hother
  have hid := hkeys _ (OrderedMap.get?_eq_some_iff.1 hpeer)
  have hid' := hkeys _ (OrderedMap.get?_eq_some_iff.1 hpeer')
  dsimp only at hid hid'
  rw [← hid, h, hid'] at hkey
  exact ConnectionId.eq_of_other?_eq hkey hkey'

theorem pairwise_id_ne {sorted : Bool} (hlinks : n.links peerId sorted = .ok links)
    : links.Pairwise fun link other => link.id ≠ other.id := by
  have hnodup := nodup_keys_enabledOf n peerId
  unfold Entries.keys at hnodup
  rw [← ((perm_enabledOf hlinks).map Prod.fst).nodup_iff] at hnodup
  rw [List.map_map] at hnodup
  exact List.pairwise_map.1 hnodup

theorem pairwise_lt_sortLinks (hkeys : n.KeyedById) (hlinks : n.links peerId false = .ok links)
    : (sortLinks links).Pairwise fun link other => link.other.id < other.other.id := by
  -- No two links lead to the same peer, so sorting meets no ties.
  apply Text.pairwise_lt_mergeSort fun link : Link => link.other.id
  apply List.pairwise_map.2
  apply List.Pairwise.imp_of_mem _ (pairwise_id_ne hlinks)
  intro link other hlink hother hne hid
  exact hne (id_eq_of_other_id_eq hkeys hlinks hlink hother hid)

theorem Reorders.links_true (h : n.Reorders m) (hkeys : n.KeyedById)
    (hlinks : n.links peerId true = .ok links) : m.links peerId true = .ok links := by
  obtain ⟨unsorted, hunsorted, rfl⟩ := links_true_eq_ok_iff.1 hlinks
  obtain ⟨unsorted', hunsorted', hperm⟩ := h.exists_links hunsorted
  refine links_true_eq_ok_iff.2 ⟨unsorted', hunsorted', ?_⟩
  have hsorted : (sortLinks unsorted').Perm (sortLinks unsorted) :=
    ((List.mergeSort_perm _ _).trans hperm).trans (List.mergeSort_perm _ _).symm
  -- Both are strictly ascending, and there is only one such order of the same links.
  refine List.Perm.eq_of_pairwise ?_ (pairwise_lt_sortLinks (h.keyedById hkeys) hunsorted')
    (pairwise_lt_sortLinks hkeys hunsorted) hsorted
  intro link other _ _ hlt hgt
  exact absurd hgt (String.lt_asymm hlt)

theorem Reorders.config_true (h : n.Reorders m) (hkeys : n.KeyedById) (settings : Settings)
    (peerId : String) (stripped : Bool)
    : m.config settings peerId true stripped = n.config settings peerId true stripped
        ∨ ∃ e e', n.config settings peerId true stripped = .error (.peerNotFound e)
          ∧ m.config settings peerId true stripped = .error (.peerNotFound e') := by
  have hpeer : m.peer peerId = n.peer peerId := by
    unfold peer
    rw [OrderedMap.get?_of_perm h.peers, h.identifier]
  have hheader : Config.header settings m = Config.header settings n := by
    unfold Config.header
    rw [h.identifier]
  unfold config
  rw [hpeer, hheader]
  cases n.peer peerId with
  | error e => exact .inl rfl
  | ok p =>
    dsimp only
    cases Config.interfaceSection settings p stripped with
    | error e => exact .inl rfl
    | ok own =>
      cases hlinks : n.links peerId true with
      | ok links =>
        rw [h.links_true hkeys hlinks]
        exact .inl rfl
      | error e =>
        cases hlinks' : m.links peerId true with
        | error e' => exact .inr ⟨e, e', rfl, rfl⟩
        | ok links =>
          rw [h.symm.links_true (h.keyedById hkeys) hlinks'] at hlinks
          cases hlinks

theorem config_reordered (h : n.Reorders m) (hkeys : n.KeyedById)
    : (∀ settings peerId stripped config, n.config settings peerId true stripped = .ok config
          ↔
        m.config settings peerId true stripped = .ok config)
      ∧ (∀ settings peerId stripped,
          m.config settings peerId true stripped = n.config settings peerId true stripped
            ∨ ∃ e e', n.config settings peerId true stripped = .error (.peerNotFound e)
              ∧ m.config settings peerId true stripped = .error (.peerNotFound e'))
      ∧ ∀ peerId links, n.links peerId true = .ok links
          → m.links peerId true = .ok links
            ∧ (∃ unsorted, n.links peerId false = .ok unsorted ∧ links.Perm unsorted)
            ∧ links.Pairwise fun link other => link.other.id < other.other.id := by
  refine ⟨?_, h.config_true hkeys, ?_⟩
  . intro settings peerId stripped config
    obtain hsame | ⟨e, e', he, he'⟩ := h.config_true hkeys settings peerId stripped
    . rw [hsame]
    . simp [he, he']
  . intro peerId links hlinks
    refine ⟨h.links_true hkeys hlinks, ?_⟩
    obtain ⟨unsorted, hunsorted, rfl⟩ := links_true_eq_ok_iff.1 hlinks
    exact ⟨⟨unsorted, hunsorted, List.mergeSort_perm _ _⟩, pairwise_lt_sortLinks hkeys hunsorted⟩

def hubPeer : Peer where
  id := "hub"
  name := "hub"
  address := "10.0.0.1"
  mobility := .static
  endpoint := "hub.example.com:51820"
  privateKey := ""
  publicKey := ""
  dns := .off
  mtu := .off
  persistentKeepalive := .off
  hooks := .none
  id_ne_empty := by decide

def cabinPeer : Peer :=
  { hubPeer with id := "cabin", mobility := .roaming, id_ne_empty := by decide }

def loopedHub : Network where
  identifier := "mesh"
  subnet := "10.0.0.0/24"
  peers := ⟨[("hub", hubPeer), ("cabin", cabinPeer)], by decide⟩
  connections :=
    ⟨[(⟨"hub", "hub", by decide, by decide, by decide⟩, ⟨true, "", "", "", .off⟩),
      (⟨"hub", "cabin", by decide, by decide, by decide⟩, ⟨true, "", "", "", .off⟩)], by decide⟩

def loopedHubReversed : Network where
  identifier := "mesh"
  subnet := "10.0.1.0/24"
  peers := ⟨loopedHub.peers.entries.reverse, by decide⟩
  connections := ⟨loopedHub.connections.entries.reverse, by decide⟩

theorem config_reordered_loopedHub
    : loopedHub.Reorders loopedHubReversed ∧ loopedHub.KeyedById
      ∧ (∃ config, loopedHub.config .default "hub" true false = .ok config
        ∧ loopedHubReversed.config .default "hub" true false = .ok config)
      ∧ ∃ links, loopedHub.links "hub" true = .ok links
        ∧ loopedHubReversed.links "hub" true = .ok links
        ∧ links.Pairwise fun link other => link.other.id < other.other.id := by
  have h : loopedHub.Reorders loopedHubReversed :=
    ⟨rfl, (List.reverse_perm _).symm, (List.reverse_perm _).symm⟩
  have hkeys : loopedHub.KeyedById := by
    change ∀ entry ∈ [_, _], _
    rw [List.forall_mem_cons, List.forall_mem_singleton]
    exact ⟨rfl, rfl⟩
  obtain ⟨config, hconfig⟩ :
      ∃ config, loopedHub.config .default "hub" true false = .ok config := exists_config_true rfl
  obtain ⟨links, hlinks⟩ : ∃ links, loopedHub.links "hub" true = .ok links := ⟨_, rfl⟩
  obtain ⟨hsame, -, hsorted⟩ := config_reordered h hkeys
  obtain ⟨hback, -, hascending⟩ := hsorted _ _ hlinks
  exact ⟨h, hkeys, ⟨config, hconfig, (hsame _ _ _ _).1 hconfig⟩, links, hlinks, hback, hascending⟩

end Network

end WireMesh
