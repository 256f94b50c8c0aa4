import WireMesh.Proofs.Network.Soundness

/-!
This module contains what the check of addresses says about those that are handed out to new peers.
Allocation goes by the last octet, the check by the bounds of the subnet. The two differ for subnets
that lie within one last octet and have a lowest and a highest address of their own: there these two
are handed out and then rejected.
-/

namespace WireMesh

open Text

namespace Address

theorem text_eq (a : Address)
    : a.text
        =
      Decimal.ofNat (a.octet 24) ++ "." ++ Decimal.ofNat (a.octet 16) ++ "."
        ++ Decimal.ofNat (a.octet 8) ++ "." ++ Decimal.ofNat (a.octet 0) := by
  rw [String.ext_iff]
  unfold text chars octets Decimal.ofNat
  simp [List.intercalate, List.intersperse]

theorem oneLine_text (a : Address) : OneLine a.text := by
  have hdot : OneLine "." := by decide
  rw [text_eq]
  simp only [oneLine_append_iff, oneLine_ofNat, hdot, and_self]

theorem exists_text_eq (a : Address)
    : ∃ rest, a.text = rest ++ ("." ++ Decimal.ofNat (a.octet 0)) := by
  rw [text_eq]
  exact ⟨_, String.append_assoc ..⟩

end Address

namespace Subnet

variable {s : Subnet} {a : Address}

theorem first_ne_last (h : s.length < 31) : s.first ≠ s.last := by
  have hsize : 2 ^ 1 < s.size := by
    rw [size_eq]
    exact Nat.pow_lt_pow_right (by decide) (by omega)
  unfold last
  omega

theorem dvd_size (h : s.length ≤ 24) : 256 ∣ s.size := by
  rw [size_eq]
  exact Nat.pow_dvd_pow 2 (show 8 ≤ 32 - s.length by omega)

theorem dvd_first (h : s.length ≤ 24) : 256 ∣ s.first := by
  unfold first
  exact Nat.dvd_mul_left_of_dvd (dvd_size h) _

theorem lt_length_of_isFree {taken : List String} (hfree : isFree taken a = true)
    (hbound : a.value = s.first ∨ a.value = s.last) : 24 < s.length := by
  obtain ⟨hzero, hlast, -⟩ := isFree_iff.1 hfree
  apply Nat.lt_of_not_le
  intro hlength
  have hfirst := dvd_first hlength
  have hsize := dvd_size hlength
  have hpos := s.size_pos
  unfold last at hbound
  omega

end Subnet

namespace TextRule

variable {context : Context} {s : String} {a : Address} {range : Subnet}

theorem checkUse_of_contains (hrange : Subnet.ofAnyForm? context.network.subnet = some range)
    (hcontains : range.contains a = true)
    : checkUse context s a
        =
      if range.length < 31 ∧ a.value = range.first then
        some (.networkAddress context.network.subnet)
      else if range.length < 31 ∧ a.value = range.last then
        some (.broadcastAddress context.network.subnet)
      else
        (holder? context s).map .taken := by
  unfold checkUse
  dsimp only
  rw [hrange]
  dsimp only
  rw [hcontains]
  rfl

end TextRule

theorem validate_address_text (context : Context) (a : Address)
    : validate "address" (.text a.text) (some context)
        =
      match TextRule.checkUse context a.text a with
      | none => .ok (.accepted (.text a.text))
      | some complaint => .ok (.rejected complaint (.text a.text)) := by
  have hrule : Rule.ofField? "address" = some (.text .address) := rfl
  have hbreak : (Field.text a.text).hasLineBreak = false :=
    Value.hasLineBreak_text.2 a.oneLine_text
  unfold validate
  rw [hrule]
  dsimp only [Field.ofValue?]
  rw [hbreak]
  unfold Rule.apply TextRule.apply TextRule.check
  dsimp only [Field.toPlain]
  rw [Address.parse?_eq_some_iff.2 rfl]
  dsimp only
  cases TextRule.checkUse context a.text a with
  | none => rfl
  | some complaint => rfl

namespace Network

variable {n : Network} {range : Subnet} {reserved : List String} {a : Address}

theorem not_isFree_of_nextAddress_eq_none (hrange : Subnet.parse? n.subnet = .ok (some range))
    (h : n.nextAddress reserved = .ok none) (hcontains : range.contains a = true)
    : ¬ Subnet.isFree (n.addresses ++ reserved) a = true := by
  rw [nextAddress_of_readable hrange] at h
  have hnone := List.head?_eq_none_iff.1 (Except.ok.inj h)
  unfold Subnet.freeAddresses at hnone
  rw [List.filter_eq_nil_iff] at hnone
  exact hnone a (Subnet.mem_addresses.2 (Subnet.contains_iff.1 hcontains))

theorem holder?_eq_none_of_notMem {s : String} (h : s ∉ n.addresses) (peerId : Option String)
    : TextRule.holder? ⟨n, peerId⟩ s = none := by
  rw [TextRule.holder?_eq_none_iff]
  intro key p hp
  right
  rintro rfl
  exact h (address_mem_addresses hp)

theorem notMem_addresses_of_holder? {s : String} (h : TextRule.holder? ⟨n, none⟩ s = none)
    : s ∉ n.addresses := by
  rw [TextRule.holder?_eq_none_iff] at h
  unfold addresses OrderedMap.values
  rw [List.map_map]
  intro hmem
  obtain ⟨⟨key, p⟩, hentry, haddress⟩ := List.mem_map.1 hmem
  obtain hedited | hother := h key p (OrderedMap.get?_eq_some_iff.2 hentry)
  . cases hedited
  . exact hother haddress

theorem validate_address_of_nextAddress (hrange : Subnet.parse? n.subnet = .ok (some range))
    (hnext : n.nextAddress reserved = .ok (some a))
    : validate "address" (.text a.text) (some ⟨n, none⟩)
        =
      if range.length < 31 ∧ a.value = range.first then
        .ok (.rejected (.networkAddress n.subnet) (.text a.text))
      else if range.length < 31 ∧ a.value = range.last then
        .ok (.rejected (.broadcastAddress n.subnet) (.text a.text))
      else
        .ok (.accepted (.text a.text)) := by
  obtain ⟨hcontains, hfree⟩ := nextAddress_eq_some_isFree hrange hnext
  obtain ⟨-, -, htaken⟩ := Subnet.isFree_iff.1 hfree
  rw [List.mem_append, not_or] at htaken
  have huse := @TextRule.checkUse_of_contains ⟨n, none⟩ a.text a range
    (Subnet.ofAnyForm?_of_parse? hrange) hcontains
  rw [holder?_eq_none_of_notMem htaken.1] at huse
  rw [validate_address_text]
  rw [huse]
  by_cases hfirst : range.length < 31 ∧ a.value = range.first
  . rw [if_pos hfirst, if_pos hfirst]
  . rw [if_neg hfirst, if_neg hfirst]
    by_cases hlast : range.length < 31 ∧ a.value = range.last
    . rw [if_pos hlast, if_pos hlast]
    . rw [if_neg hlast, if_neg hlast]
      rfl

theorem ends_or_reserved_of_accepts {s : String}
    (hrange : Subnet.parse? n.subnet = .ok (some range)) (hnext : n.nextAddress reserved = .ok none)
    (hs : Accepts "address" (.text s) (some ⟨n, none⟩))
    : (∃ rest, s = rest ++ ".0") ∨ (∃ rest, s = rest ++ ".255") ∨ s ∈ reserved := by
  obtain ⟨-, a, hparse, huse⟩ := accepts_address_iff.1 hs
  obtain rfl := Address.parse?_eq_some_iff.1 hparse
  have hcontains := TextRule.contains_of_checkUse (Subnet.ofAnyForm?_of_parse? hrange) huse
  have hholder := notMem_addresses_of_holder? hs.holder?_eq_none
  have hnot := not_isFree_of_nextAddress_eq_none hrange hnext hcontains
  obtain ⟨rest, htext⟩ := a.exists_text_eq
  by_cases hreserved : a.text ∈ reserved
  . exact .inr (.inr hreserved)
  . rw [Subnet.isFree_iff, List.mem_append] at hnot
    have hoctet : a.octet 0 = 0 ∨ a.octet 0 = 255 := by
      unfold Address.octet
      grind
    obtain hzero | hlast := hoctet
    . rw [hzero] at htext
      exact .inl ⟨rest, htext⟩
    . rw [hlast] at htext
      exact .inr (.inl ⟨rest, htext⟩)

theorem nextAddress_accepted_iff (n : Network) (range : Subnet)
    (hrange : Subnet.parse? n.subnet = .ok (some range)) (reserved : List String)
    : (∀ a, n.nextAddress reserved = .ok (some a)
        → (validate "address" (.text a.text) (some ⟨n, none⟩) = .ok (.accepted (.text a.text))
              ↔
            ¬ (25 ≤ range.length ∧ range.length ≤ 30
              ∧ (a.value = range.first ∨ a.value = range.last)))
          ∧ (25 ≤ range.length → range.length ≤ 30 → a.value = range.first
            → validate "address" (.text a.text) (some ⟨n, none⟩)
              = .ok (.rejected (.networkAddress n.subnet) (.text a.text)))
          ∧ (25 ≤ range.length → range.length ≤ 30 → a.value = range.last
            → validate "address" (.text a.text) (some ⟨n, none⟩)
              = .ok (.rejected (.broadcastAddress n.subnet) (.text a.text))))
      ∧ (n.nextAddress reserved = .ok none
        → ∀ v reported, validate "address" v (some ⟨n, none⟩) = .ok (.accepted reported)
          → ∃ s, reported = .text s
            ∧ ((∃ rest, s = rest ++ ".0") ∨ (∃ rest, s = rest ++ ".255") ∨ s ∈ reserved)) := by
  constructor
  . intro a hnext
    -- A bound of a subnet of whole last octets is never handed out, so only the length decides.
    have hlength : a.value = range.first ∨ a.value = range.last → 24 < range.length :=
      Subnet.lt_length_of_isFree (nextAddress_eq_some_isFree hrange hnext).2
    rw [validate_address_of_nextAddress hrange hnext]
    refine ⟨?_, ?_, ?_⟩
    . split
      . next hfirst =>
        have hlong := hlength (.inl hfirst.2)
        constructor
        . nofun
        . intro hinner
          exact (hinner ⟨hlong, by omega, .inl hfirst.2⟩).elim
      . next hfirst =>
        split
        . next hlast =>
          have hlong := hlength (.inr hlast.2)
          constructor
          . nofun
          . intro hinner
            exact (hinner ⟨hlong, by omega, .inr hlast.2⟩).elim
        . next hlast =>
          simp only [true_iff]
          rintro ⟨-, hshort, hbound | hbound⟩
          . exact hfirst ⟨by omega, hbound⟩
          . exact hlast ⟨by omega, hbound⟩
    . intro _ hshort hfirst
      rw [if_pos ⟨by omega, hfirst⟩]
    . intro _ hshort hlast
      have hne := Subnet.first_ne_last (show range.length < 31 by omega)
      rw [if_neg (fun h => hne (h.2.symm.trans hlast))]
      rw [if_pos ⟨by omega, hlast⟩]
  . intro hnext v reported haccepted
    obtain ⟨s, rfl, hs⟩ := @reported_text "address" _ .address _ _ rfl haccepted
    exact ⟨s, rfl, ends_or_reserved_of_accepts hrange hnext hs⟩

def quarter : Network :=
  { routerOnly with subnet := "10.0.0.64/26" }

def couple : Network :=
  { routerOnly with subnet := "10.0.0.0/31" }

theorem nextAddress_accepted_iff_quarter
    : ∃ lowest next : Address,
        quarter.nextAddress [] = .ok (some lowest) ∧ lowest.text = "10.0.0.64"
          ∧ validate "address" (.text lowest.text) (some ⟨quarter, none⟩)
              = .ok (.rejected (.networkAddress "10.0.0.64/26") (.text lowest.text))
          ∧ quarter.nextAddress ["10.0.0.64"] = .ok (some next) ∧ next.text = "10.0.0.65"
          ∧ validate "address" (.text next.text) (some ⟨quarter, none⟩)
              = .ok (.accepted (.text next.text))
          ∧ couple.nextAddress [] = .ok none
          ∧ validate "address" (.text "10.0.0.0") (some ⟨couple, none⟩)
              = .ok (.accepted (.text "10.0.0.0"))
          ∧ ∃ s, Value.text "10.0.0.0" = .text s
              ∧ ((∃ rest, s = rest ++ ".0") ∨ (∃ rest, s = rest ++ ".255") ∨ s ∈ []) := by
  obtain ⟨hquarter, -⟩ := nextAddress_accepted_iff quarter
    ⟨⟨167772224, by decide⟩, 26, by decide⟩ rfl []
  obtain ⟨hreserved, -⟩ := nextAddress_accepted_iff quarter
    ⟨⟨167772224, by decide⟩, 26, by decide⟩ rfl ["10.0.0.64"]
  obtain ⟨-, hcouple⟩ := nextAddress_accepted_iff couple
    ⟨⟨167772160, by decide⟩, 31, by decide⟩ rfl []
  refine ⟨⟨167772224, by decide⟩, ⟨167772225, by decide⟩, rfl, rfl, ?_, rfl, rfl, ?_, rfl, rfl, ?_⟩
  . exact (hquarter _ rfl).2.1 (by decide) (by decide) (by decide)
  . exact (hreserved _ rfl).1.2 (by decide)
  . exact hcouple rfl (.text "10.0.0.0") _ rfl

end Network

end WireMesh
