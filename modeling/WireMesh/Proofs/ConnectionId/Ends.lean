import Mathlib.Data.Sym.Sym2
import WireMesh.Proofs.ConnectionId.Canonical

/-!
This module contains connection ids as unordered pairs. An id is determined by the pair of its two
ends, and the end across from a peer is the one that makes up the pair together with that peer.
-/

namespace WireMesh.ConnectionId

def ends (id : ConnectionId) : Sym2 String :=
  s(id.greater, id.lesser)

variable {id other : ConnectionId} {a b p q r : String}

theorem peers_eq_sorted_iff : id.peers = sorted a b ↔ id.ends = s(a, b) := by
  have hpeers : id.peers = sorted id.greater id.lesser := (sorted_of_le id.lesser_le).symm
  unfold ends
  rw [hpeers]
  rw [sorted_eq_iff]
  rw [Sym2.eq_iff]

theorem ends_injective : Function.Injective ends := by
  intro id other h
  have hpeers := peers_eq_sorted_iff.2 h
  rw [sorted_of_le other.lesser_le] at hpeers
  cases id
  cases other
  cases hpeers
  rfl

theorem ofPeers_eq_ok_iff_ends
    : ofPeers a b = .ok id ↔ '*' ∉ a.toList ∧ '*' ∉ b.toList ∧ id.ends = s(a, b) := by
  rw [ofPeers_eq_ok_iff]
  rw [peers_eq_sorted_iff]

theorem ofPeers_of_ends (h : id.ends = s(a, b)) : ofPeers a b = .ok id := by
  have hpeers := peers_eq_sorted_iff.2 h
  have hself := ofPeers_greater_lesser id
  unfold peers sorted at hpeers
  split at hpeers
  . cases hpeers
    exact hself
  . cases hpeers
    rw [ofPeers_comm_eq_ok_iff]
    exact hself

theorem mem_ends_iff : p ∈ id.ends ↔ id.contains p = true := by
  unfold ends contains
  simp [Sym2.mem_iff]

theorem contains_of_ends (h : id.ends = s(p, q)) : id.contains p = true := by
  rw [← mem_ends_iff]
  rw [h]
  exact Sym2.mem_mk_left p q

theorem other?_eq_some_iff : id.other? p = some q ↔ id.ends = s(p, q) := by
  unfold other? ends
  split
  . next hgreater =>
    subst hgreater
    rw [Option.some.injEq]
    rw [Sym2.congr_right]
  . next hgreater =>
    split
    . next hlesser =>
      subst hlesser
      rw [Option.some.injEq]
      rw [Sym2.eq_swap]
      rw [Sym2.congr_right]
    . next hlesser =>
      rw [Sym2.eq_iff]
      grind

theorem other?_comm : id.other? p = some q ↔ id.other? q = some p := by
  rw [other?_eq_some_iff, other?_eq_some_iff]
  rw [Sym2.eq_swap]

theorem eq_of_other?_eq (h : id.other? p = some q) (hother : other.other? p = some q)
    : id = other := by
  rw [other?_eq_some_iff] at h hother
  exact ends_injective (h.trans hother.symm)

theorem greater_eq_iff (hne : p ≠ q) (hends : id.ends = s(p, q)) : id.greater = p ↔ q < p := by
  unfold ends at hends
  rw [Sym2.eq_iff] at hends
  have hle := id.lesser_le
  obtain ⟨hgreater, hlesser⟩ | ⟨hgreater, hlesser⟩ := hends
  . rw [hgreater, hlesser] at hle
    simp only [hgreater, true_iff]
    rw [← String.not_le]
    intro hge
    exact hne (String.le_antisymm hge hle)
  . rw [hgreater, hlesser] at hle
    simp only [hgreater, Ne.symm hne, false_iff]
    rw [String.not_lt]
    exact hle

theorem ofWire_join_comm (a b : String) : ofWire (join a b) = ofWire (join b a) := by
  by_cases h : '*' ∈ a.toList ∨ '*' ∈ b.toList
  . unfold ofWire
    rw [splitWire?_join_eq_none_iff.2 h]
    rw [splitWire?_join_eq_none_iff.2 h.symm]
  . rw [not_or] at h
    obtain ⟨id, hid⟩ := exists_ofPeers h.1 h.2
    rw [ofWire_eq_ok_iff.2 ⟨a, b, rfl, hid⟩]
    rw [ofWire_eq_ok_iff.2 ⟨b, a, rfl, ofPeers_comm_eq_ok_iff.1 hid⟩]

end WireMesh.ConnectionId
