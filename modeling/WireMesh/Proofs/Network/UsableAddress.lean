import WireMesh.Proofs.Address.DottedQuad
import WireMesh.Proofs.ChangeSet.Resubmission
import WireMesh.Proofs.Commit.Validity
import WireMesh.Proofs.Config.Reordered
import WireMesh.Proofs.Network.SubnetReaders

/-!
This module contains which addresses are accepted in a network whose subnet can be read: those that
are written as four octets, share the leading bits of the subnet, are neither its lowest nor its
highest address, and belong to no other peer. Checking every peer of a network says something
against an address if and only if one is not usable in this sense or two are the same, as long as
none of the checks fails on a numeral that is too long to be read.
-/

namespace WireMesh

open Text

namespace Subnet

/--
Whether a text is an address that a peer of the subnet may have: it agrees with the base in the
leading bits and, unless there is at most one other bit, the others are neither all zero nor all
one.
-/
def Usable (range : Subnet) (s : String) : Prop :=
  ∃ v, Address.DottedQuad s.toList v
    ∧ (∀ i < 32, 32 - range.length ≤ i → v.testBit i = range.base.value.testBit i)
    ∧ (range.length < 31
      → (∃ i < 32 - range.length, v.testBit i = true)
        ∧ ∃ i < 32 - range.length, v.testBit i = false)

variable {range : Subnet} {a : Address}

theorem mod_two_pow_eq_iff {v w k : Nat} (hw : w < 2 ^ k)
    : v % 2 ^ k = w ↔ ∀ i < k, v.testBit i = w.testBit i := by
  constructor
  . rintro rfl i hi
    rw [Nat.testBit_mod_two_pow]
    simp [hi]
  . intro h
    apply Nat.eq_of_testBit_eq
    intro i
    rw [Nat.testBit_mod_two_pow]
    by_cases hi : i < k
    . simp [hi, h i hi]
    . have hpow : 2 ^ k ≤ 2 ^ i := Nat.pow_le_pow_right (by decide) (Nat.le_of_not_lt hi)
      rw [Nat.testBit_lt_two_pow (Nat.lt_of_lt_of_le hw hpow)]
      simp [hi]

theorem value_eq_iff_mod_size (h : a ∈ range.inside) {rest : Nat} (hrest : rest < range.size)
    : a.value = range.first + rest
        ↔
      ∀ i < 32 - range.length, a.value.testBit i = rest.testBit i := by
  rw [mem_inside_iff, contains, beq_iff_eq] at h
  rw [← mod_two_pow_eq_iff (range.size_eq ▸ hrest), ← size_eq]
  have hdiv := Nat.div_add_mod' a.value range.size
  unfold first
  rw [← h]
  omega

theorem keepsLowest_iff (h : a ∈ range.inside)
    : range.KeepsLowest a
        ↔
      range.length < 31 ∧ ∀ i < 32 - range.length, a.value.testBit i = false := by
  unfold KeepsLowest
  rw [isLeast_iff]
  rw [← Nat.add_zero range.first, value_eq_iff_mod_size h range.size_pos]
  simp only [Nat.zero_testBit]

theorem keepsHighest_iff (h : a ∈ range.inside)
    : range.KeepsHighest a
        ↔
      range.length < 31 ∧ ∀ i < 32 - range.length, a.value.testBit i = true := by
  have hrest : range.size - 1 < range.size := Nat.sub_lt range.size_pos (by decide)
  unfold KeepsHighest
  rw [isGreatest_iff]
  unfold last
  rw [value_eq_iff_mod_size h hrest]
  apply and_congr_right
  intro _
  apply forall₂_congr
  intro i hi
  rw [size_eq, Nat.testBit_two_pow_sub_one]
  simp [hi]

theorem usable_iff {s : String}
    : range.Usable s
        ↔
      ∃ a, Address.parse? s = some a ∧ a ∈ range.inside ∧ ¬ range.KeepsLowest a
        ∧ ¬ range.KeepsHighest a := by
  have hbounds : ∀ a ∈ range.inside, (¬ range.KeepsLowest a ∧ ¬ range.KeepsHighest a)
      ↔ (range.length < 31
        → (∃ i < 32 - range.length, a.value.testBit i = true)
          ∧ ∃ i < 32 - range.length, a.value.testBit i = false) := by
    intro a ha
    rw [keepsLowest_iff ha, keepsHighest_iff ha]
    simp only [not_and, not_forall, Bool.not_eq_false, Bool.not_eq_true, exists_prop]
    exact forall_and.symm
  constructor
  . rintro ⟨v, hquad, hinside, hrest⟩
    obtain ⟨a, rfl, -⟩ := hquad.exists_eq_chars
    obtain ⟨hlow, hhigh⟩ := (hbounds a hinside).2 hrest
    exact ⟨a, Address.ofChars?_eq_some_iff_dottedQuad.2 hquad, hinside, hlow, hhigh⟩
  . rintro ⟨a, hparse, hinside, hlow, hhigh⟩
    exact ⟨a.value, Address.ofChars?_eq_some_iff_dottedQuad.1 hparse, hinside,
      (hbounds a hinside).1 ⟨hlow, hhigh⟩⟩

end Subnet

theorem TextRule.checkUse_eq_none_iff {context : Context} {s : String} {a : Address}
    {range : Subnet} (hrange : Subnet.ofAnyForm? context.network.subnet = some range)
    : checkUse context s a = none
        ↔
      a ∈ range.inside ∧ ¬ range.KeepsLowest a ∧ ¬ range.KeepsHighest a
        ∧ holder? context s = none := by
  obtain ⟨hinside, hlow, hhigh, huse⟩ | ⟨hinside, hlow, hhigh, huse⟩
    | ⟨hinside, hlow, hhigh, huse⟩ | ⟨hinside, hlow, hhigh, huse⟩ :=
    @checkUse_cases context s a range hrange
  . simp [huse, hinside]
  . simp [huse, hlow]
  . simp [huse, hhigh]
  . simp [huse, hinside, hlow, hhigh]

theorem accepts_address_iff_usable {context : Context} {range : Subnet} {s : String}
    (hrange : Subnet.ofAnyForm? context.network.subnet = some range)
    : Accepts "address" (.text s) (some context)
        ↔
      range.Usable s ∧ TextRule.holder? context s = none := by
  rw [Subnet.usable_iff]
  constructor
  . intro h
    obtain ⟨-, a, hparse, huse⟩ := accepts_address_iff.1 h
    obtain ⟨hinside, hlow, hhigh, hholder⟩ := (TextRule.checkUse_eq_none_iff hrange).1 huse
    exact ⟨⟨a, hparse, hinside, hlow, hhigh⟩, hholder⟩
  . rintro ⟨⟨a, hparse, hinside, hlow, hhigh⟩, hholder⟩
    rw [accepts_address_iff_of_parse? hparse]
    exact (TextRule.checkUse_eq_none_iff hrange).2 ⟨hinside, hlow, hhigh, hholder⟩

namespace Value.Held

variable {v : Value}

theorem isPlain_toPlain (h : v.Held) : v.toPlain.isPlain = true := by
  cases h with
  | text s => rfl
  | mobility m => rfl
  | override o => exact o.isPlain_toValue
  | hooks hooks => exact hooks.isPlain_toValue

theorem ofValue?_toPlain (h : v.Held) : Field.ofValue? v.toPlain = Field.ofValue? v := by
  cases h with
  | text s => rfl
  | mobility m => rfl
  | override o => exact Field.ofValue?_toValue o
  | hooks hooks => rfl

theorem validate_eq_error_iff (h : v.Held) {field : String} {context : Option Context}
    {e : Decimal.TooManyDigits}
    : validate field v context = .error e ↔ Overlong field v.toPlain e.count := by
  rw [← validate_eq_error_iff_overlong h.isPlain_toPlain]
  unfold validate
  rw [h.ofValue?_toPlain]

end Value.Held

namespace Peer

variable {p : Peer} {n : Network}

theorem held_of_mem_checkedFields (p : Peer) : ∀ entry ∈ p.checkedFields, entry.2.Held := by
  unfold checkedFields
  simp only [List.forall_mem_append, List.forall_mem_cons]
  refine ⟨⟨.text _, .text _, .text _, .text _, .text _, .text _, .override _, .override _,
    .override _, .hooks _, List.forall_mem_nil _⟩, ?_⟩
  split
  . rw [List.forall_mem_singleton]
    exact .text _
  . exact List.forall_mem_nil _

theorem exists_complaints_eq_error_iff_overlong
    : (∃ e, p.complaints (some n) = .error e)
        ↔
      ∃ entry ∈ p.checkedFields, ∃ count, Overlong entry.1 entry.2.toPlain count := by
  unfold complaints
  rw [exists_complaints_eq_error_iff]
  apply exists_congr
  intro entry
  apply and_congr_right
  intro hentry
  have herror := @Value.Held.validate_eq_error_iff _ (p.held_of_mem_checkedFields entry hentry)
    entry.1 (some ⟨n, some p.id⟩)
  constructor
  . rintro ⟨e, he⟩
    exact ⟨e.count, herror.1 he⟩
  . rintro ⟨count, hlong⟩
    exact ⟨⟨count⟩, herror.2 hlong⟩

def ReportsAddress (p : Peer) (n : Network) : Prop :=
  ∃ found, p.complaints (some n) = .ok found ∧ "address" ∈ Entries.keys found

theorem mem_checkedFields_address_iff {v : Value}
    : ("address", v) ∈ p.checkedFields ↔ v = .text p.address := by
  unfold checkedFields
  split
  . simp
  . simp

theorem reportsAddress_iff
    : p.ReportsAddress n
        ↔
      (∃ found, p.complaints (some n) = .ok found)
        ∧ ¬ Accepts "address" (.text p.address) (some ⟨n, some p.id⟩) := by
  have hmem : ∀ found, p.complaints (some n) = .ok found → ("address" ∈ Entries.keys found
      ↔ ¬ Accepts "address" (.text p.address) (some ⟨n, some p.id⟩)) := by
    intro found hfound
    rw [mem_keys_complaints_iff hfound]
    simp only [mem_checkedFields_address_iff, exists_eq_left]
    rfl
  constructor
  . rintro ⟨found, hfound, haddress⟩
    exact ⟨⟨found, hfound⟩, (hmem found hfound).1 haddress⟩
  . rintro ⟨⟨found, hfound⟩, hrejected⟩
    exact ⟨found, hfound, (hmem found hfound).2 hrejected⟩

end Peer

namespace Network

variable {n : Network} {range : Subnet}

def HeldOnlyBy (n : Network) (s : String) (peerId : Option String) : Prop :=
  ∀ key p, n.peers.get? key = some p → some key ≠ peerId → p.address ≠ s

theorem heldOnlyBy_iff {s : String} {peerId : Option String}
    : n.HeldOnlyBy s peerId ↔ TextRule.holder? ⟨n, peerId⟩ s = none := by
  rw [TextRule.holder?_eq_none_iff]
  unfold HeldOnlyBy
  apply forall₃_congr
  intro key p _
  exact Decidable.or_iff_not_imp_left.symm

theorem accepts_address_iff_heldOnlyBy (hrange : Subnet.parse? n.subnet = .ok (some range))
    (peerId : Option String) (s : String)
    : Accepts "address" (.text s) (some ⟨n, peerId⟩)
        ↔
      range.Usable s ∧ n.HeldOnlyBy s peerId := by
  rw [heldOnlyBy_iff]
  exact accepts_address_iff_usable (Subnet.ofAnyForm?_of_parse? hrange)

theorem nodup_addresses_iff
    : n.addresses.Nodup
        ↔
      ∀ key p, n.peers.get? key = some p → n.HeldOnlyBy p.address (some key) := by
  have hnodup : n.peers.entries.Nodup := List.Nodup.of_map _ n.peers.nodup
  unfold addresses OrderedMap.values
  rw [List.map_map]
  rw [List.nodup_map_iff_inj_on hnodup]
  constructor
  . intro h key p hp other q hq hother heq
    have hentry := h _ (OrderedMap.get?_eq_some_iff.1 hq) _ (OrderedMap.get?_eq_some_iff.1 hp) heq
    cases hentry
    exact hother rfl
  . rintro h ⟨key, p⟩ hp ⟨other, q⟩ hq heq
    have hp := OrderedMap.get?_eq_some_iff.2 hp
    have hq := OrderedMap.get?_eq_some_iff.2 hq
    have hkey : other = key := by
      by_contra hne
      exact h key p hp other q hq (by simpa using hne) heq.symm
    subst hkey
    rw [hp] at hq
    cases hq
    rfl

theorem addresses_reported_iff (n : Network) (range : Subnet)
    (hrange : Subnet.parse? n.subnet = .ok (some range))
    : (∀ peerId s, Accepts "address" (.text s) (some ⟨n, peerId⟩)
          ↔ range.Usable s ∧ n.HeldOnlyBy s peerId)
      ∧ (n.KeyedById
        → (∀ key p, n.peers.get? key = some p
            → (p.ReportsAddress n
              ↔ (∃ found, p.complaints (some n) = .ok found)
                ∧ ¬ (range.Usable p.address ∧ n.HeldOnlyBy p.address (some key))))
          ∧ ((∀ key p, n.peers.get? key = some p → ∃ found, p.complaints (some n) = .ok found)
            → ((∀ key p, n.peers.get? key = some p → ¬ p.ReportsAddress n)
              ↔ (∀ key p, n.peers.get? key = some p → range.Usable p.address)
                ∧ n.addresses.Nodup)))
      ∧ ∀ p : Peer, (∃ e, p.complaints (some n) = .error e)
          ↔ ∃ entry ∈ p.checkedFields, ∃ count, Overlong entry.1 entry.2.toPlain count := by
  refine ⟨accepts_address_iff_heldOnlyBy hrange, ?_, fun p =>
    Peer.exists_complaints_eq_error_iff_overlong⟩
  intro hkeyed
  have hreports : ∀ key p, n.peers.get? key = some p
      → (p.ReportsAddress n
        ↔ (∃ found, p.complaints (some n) = .ok found)
          ∧ ¬ (range.Usable p.address ∧ n.HeldOnlyBy p.address (some key))) := by
    intro key p hp
    have hid : p.id = key := hkeyed _ (OrderedMap.get?_eq_some_iff.1 hp)
    rw [Peer.reportsAddress_iff]
    rw [accepts_address_iff_heldOnlyBy hrange]
    rw [hid]
  refine ⟨hreports, ?_⟩
  intro hreturn
  rw [nodup_addresses_iff]
  constructor
  . intro hsilent
    have haccepted : ∀ key p, n.peers.get? key = some p
        → range.Usable p.address ∧ n.HeldOnlyBy p.address (some key) := by
      intro key p hp
      by_contra hnot
      exact hsilent key p hp ((hreports key p hp).2 ⟨hreturn key p hp, hnot⟩)
    exact ⟨fun key p hp => (haccepted key p hp).1, fun key p hp => (haccepted key p hp).2⟩
  . rintro ⟨husable, hheld⟩ key p hp hreported
    exact ((hreports key p hp).1 hreported).2 ⟨husable key p hp, hheld key p hp⟩

def twins : Network :=
  { roaming "" with
    peers := ⟨[(roamerId, roamer ""), (routerId, { router with address := "10.0.0.2" })],
      by decide⟩ }

theorem addresses_reported_iff_twins
    : ∃ range, Subnet.parse? twins.subnet = .ok (some range)
        ∧ twins.KeyedById
        ∧ (∀ key p, twins.peers.get? key = some p → ∃ found, p.complaints (some twins) = .ok found)
        ∧ (∀ key p, twins.peers.get? key = some p → range.Usable p.address)
        ∧ ¬ twins.addresses.Nodup
        ∧ ∃ key p, twins.peers.get? key = some p ∧ p.ReportsAddress twins := by
  have hrange : Subnet.parse? twins.subnet
      = .ok (some ⟨⟨167772160, by decide⟩, 24, by decide⟩) := rfl
  obtain ⟨-, hnetwork, -⟩ := addresses_reported_iff twins _ hrange
  have hkeyed : twins.KeyedById := by
    unfold KeyedById
    decide
  have hpeers : ∀ key p, twins.peers.get? key = some p
      → p.address = "10.0.0.2" ∧ ∃ found, p.complaints (some twins) = .ok found := by
    intro key p hp
    rw [OrderedMap.get?_eq_some_iff] at hp
    obtain hp | hp := List.mem_cons.1 hp
    . cases hp
      exact ⟨rfl, _, rfl⟩
    . cases List.mem_singleton.1 hp
      exact ⟨rfl, _, rfl⟩
  have hshared : ¬ twins.addresses.Nodup := by decide
  have hreturn := fun key p hp => (hpeers key p hp).2
  refine ⟨_, hrange, hkeyed, hreturn, ?_, hshared, ?_⟩
  . intro key p hp
    rw [(hpeers key p hp).1]
    exact ((accepts_address_iff_heldOnlyBy (n := roaming "") rfl (some roamerId) _).1 ⟨_, rfl⟩).1
  . by_contra hsilent
    have hnodup := ((hnetwork hkeyed).2 hreturn).1 (by
      intro key p hp hreported
      exact hsilent ⟨key, p, hp, hreported⟩)
    exact hshared hnodup.2

def straying (address endpoint : String) : Network :=
  { roaming "" with
    peers := ⟨[(roamerId, { roamer endpoint with mobility := .static, address := address })],
      by simp [Entries.keys]⟩ }

section Straying

variable {address endpoint : String}

theorem get?_straying {key : String} {p : Peer}
    (h : (straying address endpoint).peers.get? key = some p)
    : key = roamerId ∧ p = { roamer endpoint with mobility := .static, address := address } := by
  rw [OrderedMap.get?_eq_some_iff] at h
  exact Prod.mk.inj (List.mem_singleton.1 h)

theorem keyedById_straying : (straying address endpoint).KeyedById := by
  intro entry hentry
  cases List.mem_singleton.1 hentry
  rfl

theorem not_complaints_straying {e : Decimal.TooManyDigits}
    (h : validate "endpoint" (.text endpoint) none = .error e) {key : String} {p : Peer}
    (hp : (straying address endpoint).peers.get? key = some p)
    : ¬ ∃ found, p.complaints (some (straying address endpoint)) = .ok found := by
  have hfails : ∃ e, p.complaints (some (straying address endpoint)) = .error e := by
    obtain ⟨-, rfl⟩ := get?_straying hp
    unfold Peer.complaints
    rw [exists_complaints_eq_error_iff]
    refine ⟨("endpoint", .text endpoint), List.mem_append_right _ List.mem_cons_self, e, ?_⟩
    dsimp only
    rw [validate_congr (by decide) _ _ none]
    exact h
  rintro ⟨found, hfound⟩
  obtain ⟨e, he⟩ := hfails
  rw [hfound] at he
  cases he

theorem parse?_straying
    : Subnet.parse? (straying address endpoint).subnet
        =
      .ok (some ⟨⟨167772160, by decide⟩, 24, by decide⟩) := by
  change Subnet.parse? "10.0.0.0/24" = _
  rfl

theorem usable_straying_iff
    : Subnet.Usable ⟨⟨167772160, by decide⟩, 24, by decide⟩ address
        ↔
      Accepts "address" (.text address) (some ⟨straying address endpoint, some roamerId⟩) := by
  rw [accepts_address_iff_heldOnlyBy parse?_straying]
  apply (and_iff_left _).symm
  intro key p hp hkey
  obtain ⟨rfl, -⟩ := get?_straying hp
  exact (hkey rfl).elim

end Straying

theorem not_reported_straying
    : (∃ range, Subnet.parse? (straying "10.0.1.5" unreadable).subnet = .ok (some range)
          ∧ (straying "10.0.1.5" unreadable).KeyedById
          ∧ (∀ key p, (straying "10.0.1.5" unreadable).peers.get? key = some p
              → ¬ p.ReportsAddress (straying "10.0.1.5" unreadable))
          ∧ ¬ ∀ key p, (straying "10.0.1.5" unreadable).peers.get? key = some p
              → range.Usable p.address)
        ∧ ∃ range, Subnet.parse? (straying "10.0.0.5" unreadable).subnet = .ok (some range)
          ∧ (straying "10.0.0.5" unreadable).KeyedById
          ∧ (∀ key p, (straying "10.0.0.5" unreadable).peers.get? key = some p
              → range.Usable p.address)
          ∧ (straying "10.0.0.5" unreadable).addresses.Nodup
          ∧ ¬ ∀ key p, (straying "10.0.0.5" unreadable).peers.get? key = some p
              → ∃ found, p.complaints (some (straying "10.0.0.5" unreadable)) = .ok found
                ∧ "address" ∉ Entries.keys found := by
  constructor
  . refine ⟨_, parse?_straying, keyedById_straying, ?_, ?_⟩
    . rintro key p hp ⟨found, hfound, -⟩
      exact not_complaints_straying validate_unreadable hp ⟨found, hfound⟩
    . intro hall
      have husable := hall roamerId _ (OrderedMap.get?_eq_some_iff.2 List.mem_cons_self)
      obtain ⟨reported, hreported⟩ := (@usable_straying_iff _ "").1 husable
      cases hreported
  . refine ⟨_, parse?_straying, keyedById_straying, ?_, List.nodup_singleton _, ?_⟩
    . intro key p hp
      obtain ⟨-, rfl⟩ := get?_straying hp
      exact (@usable_straying_iff _ "").2 ⟨_, rfl⟩
    . intro hall
      have hp : (straying "10.0.0.5" unreadable).peers.get? roamerId = some _ :=
        OrderedMap.get?_eq_some_iff.2 List.mem_cons_self
      obtain ⟨found, hfound, -⟩ := hall roamerId _ hp
      exact not_complaints_straying validate_unreadable hp ⟨found, hfound⟩

end Network

end WireMesh
