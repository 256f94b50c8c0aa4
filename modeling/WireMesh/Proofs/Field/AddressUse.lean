import WireMesh.Proofs.Field.Reported

/-!
This module contains what the check of an address says about the peers of a network. An accepted
address belongs to no peer but the one whose key is the edited one, and the check only depends on
the subnet and on that.
-/

namespace WireMesh

open Text

namespace TextRule

variable {context context' : Context} {s : String}

theorem holder?_eq_none_iff
    : holder? context s = none
        ↔
      ∀ key p, context.network.peers.get? key = some p
        → some key = context.peerId ∨ p.address ≠ s := by
  unfold holder?
  rw [Option.map_eq_none_iff]
  rw [List.find?_eq_none]
  constructor
  . intro h key p hp
    have := h (key, p) (OrderedMap.get?_eq_some_iff.1 hp)
    simp only [bne, Bool.and_eq_true, Bool.not_eq_true', beq_eq_false_iff_ne, beq_iff_eq] at this
    grind
  . rintro h ⟨key, p⟩ hmem
    have := h key p (OrderedMap.get?_eq_some_iff.2 hmem)
    simp only [bne, Bool.and_eq_true, Bool.not_eq_true', beq_eq_false_iff_ne, beq_iff_eq]
    grind

theorem holder?_insert {n : Network} {key : String} (h : holder? ⟨n, some key⟩ s = none) (p : Peer)
    : holder? ⟨{ n with peers := n.peers.insert key p }, some key⟩ s = none := by
  rw [holder?_eq_none_iff] at h ⊢
  intro other q hq
  rw [OrderedMap.get?_insert] at hq
  split at hq
  . next hkey =>
    left
    rw [hkey]
  . exact h other q hq

theorem holder?_of_checkUse {a : Address} (h : checkUse context s a = none)
    : holder? context s = none := by
  unfold checkUse at h
  dsimp only at h
  split at h
  . cases h
  . split at h
    . cases h
    . split at h
      . cases h
      . split at h
        . cases h
        . exact Option.map_eq_none_iff.1 h

theorem contains_of_checkUse {a : Address} {range : Subnet}
    (hrange : Subnet.ofAnyForm? context.network.subnet = some range)
    (h : checkUse context s a = none) : range.contains a = true := by
  unfold checkUse at h
  dsimp only at h
  rw [hrange] at h
  dsimp only at h
  split at h
  . cases h
  . next hcontains => simpa using hcontains

theorem checkUse_congr {a : Address} (hsubnet : context'.network.subnet = context.network.subnet)
    (hholder : holder? context' s = none) (h : checkUse context s a = none)
    : checkUse context' s a = none := by
  rw [← h]
  unfold checkUse
  rw [hsubnet]
  rw [hholder]
  rw [holder?_of_checkUse h]

end TextRule

theorem accepts_address_iff {context : Context} {s : String}
    : Accepts "address" (.text s) (some context)
        ↔
      OneLine s ∧ ∃ a, Address.parse? s = some a ∧ TextRule.checkUse context s a = none := by
  rw [@accepts_text_iff _ _ .address _ rfl]
  apply and_congr_right
  intro _
  unfold TextRule.check
  cases Address.parse? s with
  | none => simp
  | some a => simp

namespace Accepts

variable {context context' : Context} {s : String}

theorem holder?_eq_none (h : Accepts "address" (.text s) (some context))
    : TextRule.holder? context s = none := by
  obtain ⟨-, a, -, huse⟩ := accepts_address_iff.1 h
  exact TextRule.holder?_of_checkUse huse

theorem address_congr (h : Accepts "address" (.text s) (some context))
    (hsubnet : context'.network.subnet = context.network.subnet)
    (hholder : TextRule.holder? context' s = none)
    : Accepts "address" (.text s) (some context') := by
  obtain ⟨hone, a, hparse, huse⟩ := accepts_address_iff.1 h
  rw [accepts_address_iff]
  exact ⟨hone, a, hparse, TextRule.checkUse_congr hsubnet hholder huse⟩

end Accepts

end WireMesh
