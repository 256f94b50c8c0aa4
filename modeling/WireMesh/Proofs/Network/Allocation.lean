import Mathlib.Algebra.Group.Nat.Defs
import WireMesh.Network

/-!
This module contains what asking for addresses again and again comes to. The free addresses of a
subnet are listed in ascending order; every request that can be met takes the first one of the list
away, so the answers are the list itself, and no request is met once it is used up.
-/

namespace WireMesh

namespace Subnet

theorem size_eq (s : Subnet) : s.size = 2 ^ (32 - s.length) := by
  unfold size
  exact Nat.one_shiftLeft _

theorem size_pos (s : Subnet) : 0 < s.size := by
  rw [size_eq]
  exact Nat.two_pow_pos _

theorem first_add_size_le (s : Subnet) : s.first + s.size ≤ 2 ^ 32 := by
  have hdvd : s.size * 2 ^ s.length = 2 ^ 32 := by
    rw [size_eq, ← Nat.pow_add]
    rw [Nat.sub_add_cancel s.length_le]
  have hlt : s.base.value / s.size < 2 ^ s.length := by
    rw [Nat.div_lt_iff_lt_mul s.size_pos]
    rw [Nat.mul_comm, hdvd]
    exact s.base.value_lt
  unfold first
  calc
    s.base.value / s.size * s.size + s.size = (s.base.value / s.size + 1) * s.size := by
      rw [Nat.add_mul, Nat.one_mul]
    _ ≤ 2 ^ s.length * s.size := Nat.mul_le_mul_right _ hlt
    _ = 2 ^ 32 := by rw [Nat.mul_comm, hdvd]

theorem value_ofInt {v : Nat} (h : v < 2 ^ 32) : (Address.ofInt (v : Int)).value = v := by
  have hvalue := Address.value_ofInt v
  omega

theorem mem_addresses {s : Subnet} {a : Address}
    : a ∈ s.addresses ↔ s.first ≤ a.value ∧ a.value < s.first + s.size := by
  have hle := s.first_add_size_le
  unfold addresses
  rw [List.mem_map]
  constructor
  . rintro ⟨i, hi, rfl⟩
    rw [List.mem_range] at hi
    rw [value_ofInt (by omega)]
    omega
  . intro h
    refine ⟨a.value - s.first, by rw [List.mem_range]; omega, ?_⟩
    apply Address.ext
    rw [value_ofInt (by omega)]
    omega

theorem pairwise_addresses (s : Subnet)
    : s.addresses.Pairwise fun a b => a.value < b.value := by
  have hle := s.first_add_size_le
  unfold addresses
  rw [List.pairwise_map]
  apply List.Pairwise.imp_of_mem _ List.pairwise_lt_range
  intro i j hi hj hij
  rw [List.mem_range] at hi hj
  rw [value_ofInt (by omega), value_ofInt (by omega)]
  omega

def freeAddresses (s : Subnet) (taken : List String) : List Address :=
  s.addresses.filter (isFree taken)

theorem nextFree_eq_head? (s : Subnet) (taken : List String)
    : s.nextFree taken = (s.freeAddresses taken).head? := by
  rw [nextFree_eq_find?]
  unfold freeAddresses
  rw [List.head?_filter]

theorem pairwise_freeAddresses (s : Subnet) (taken : List String)
    : (s.freeAddresses taken).Pairwise fun a b => a.value < b.value :=
  s.pairwise_addresses.filter _

theorem isFree_iff {taken : List String} {a : Address}
    : isFree taken a = true
        ↔
      a.value % 256 ≠ 0 ∧ a.value % 256 ≠ 255 ∧ a.text ∉ taken := by
  unfold isFree isAssignable Address.octet
  simp [and_assoc]

theorem isFree_append_singleton (taken : List String) (a : Address)
    : isFree (taken ++ [a.text]) = fun b => b != a && isFree taken b := by
  funext b
  rw [Bool.eq_iff_iff]
  rw [Bool.and_eq_true, bne_iff_ne]
  rw [isFree_iff, isFree_iff]
  rw [List.mem_append, List.mem_singleton]
  have htext : b.text = a.text ↔ b = a := ⟨Address.text_injective, congrArg _⟩
  rw [htext]
  grind

theorem freeAddresses_append_singleton {s : Subnet} {taken : List String} {a : Address}
    {rest : List Address} (h : s.freeAddresses taken = a :: rest)
    : s.freeAddresses (taken ++ [a.text]) = rest := by
  have hsorted := s.pairwise_freeAddresses taken
  rw [h, List.pairwise_cons] at hsorted
  unfold freeAddresses at h ⊢
  rw [isFree_append_singleton]
  rw [← List.filter_filter]
  rw [h]
  rw [List.filter_cons_of_neg (by simp)]
  rw [List.filter_eq_self]
  -- The others stay because the list is strictly ascending, so none of them is `a` again.
  intro b hb
  have hlt := hsorted.1 b hb
  rw [bne_iff_ne]
  rintro rfl
  omega

theorem parse?_eq_some_iff {s : String} {range : Subnet}
    : parse? s = .ok (some range)
        ↔
      ∃ base length, Text.splitFirst '/' s.toList = some (base, length)
        ∧ Address.ofChars? base = some range.base ∧ Decimal.isNumeral length = true
        ∧ length.length ≤ Decimal.digitLimit ∧ Decimal.value length = range.length := by
  unfold parse?
  constructor
  . intro h
    split at h
    . cases h
    . next base length hsplit =>
      split at h
      . cases h
      . next address haddress =>
        split at h
        . next hnumeral =>
          split at h
          . cases h
          . next n hread =>
            obtain ⟨hlimit, hvalue⟩ := Decimal.read_eq_ok_iff.1 hread
            split at h
            . cases h
              exact ⟨base, length, hsplit, haddress, hnumeral, hlimit, hvalue⟩
            . cases h
        . cases h
  . rintro ⟨base, length, hsplit, haddress, hnumeral, hlimit, hvalue⟩
    rw [hsplit]
    dsimp only
    rw [haddress]
    dsimp only
    rw [if_pos hnumeral]
    rw [Decimal.read_eq_ok_iff.2 ⟨hlimit, hvalue⟩]
    dsimp only
    rw [dif_pos range.length_le]

theorem parse?_eq_error_iff {s : String} {e : Decimal.TooManyDigits}
    : parse? s = .error e
        ↔
      ∃ base length, Text.splitFirst '/' s.toList = some (base, length)
        ∧ (Address.ofChars? base).isSome = true ∧ Decimal.isNumeral length = true
        ∧ Decimal.digitLimit < length.length ∧ e = ⟨length.length⟩ := by
  unfold parse?
  constructor
  . intro h
    split at h
    . cases h
    . next base length hsplit =>
      split at h
      . cases h
      . next address haddress =>
        split at h
        . next hnumeral =>
          split at h
          . next hread =>
            cases h
            refine ⟨base, length, hsplit, ?_, hnumeral, Decimal.read_eq_error_iff.1 hread⟩
            rw [haddress]
            rfl
          . cases h
        . cases h
  . rintro ⟨base, length, hsplit, haddress, hnumeral, hread⟩
    obtain ⟨address, haddress⟩ := Option.isSome_iff_exists.1 haddress
    rw [hsplit]
    dsimp only
    rw [haddress]
    dsimp only
    rw [if_pos hnumeral]
    rw [Decimal.read_eq_error_iff.2 hread]

theorem parse?_eq_error {s : String} {e : Decimal.TooManyDigits} (h : parse? s = .error e)
    : ∃ base length, Text.splitFirst '/' s.toList = some (base, length)
        ∧ Decimal.digitLimit < length.length := by
  obtain ⟨base, length, hsplit, -, -, hlength, -⟩ := parse?_eq_error_iff.1 h
  exact ⟨base, length, hsplit, hlength⟩

end Subnet

namespace Network

theorem nextAddress_of_readable {n : Network} {subnet : Subnet}
    (h : Subnet.parse? n.subnet = .ok (some subnet)) (reserved : List String)
    : n.nextAddress reserved = .ok (subnet.freeAddresses (n.addresses ++ reserved)).head? := by
  unfold nextAddress
  rw [h]
  dsimp only
  rw [Subnet.nextFree_eq_head?]

theorem requests_of_unreadable {n : Network} (h : Subnet.parse? n.subnet = .ok none) (count : Nat)
    (reserved : List String) : n.requests count reserved = .ok (List.replicate count none) := by
  induction count generalizing reserved with
  | zero => rfl
  | succ count ih =>
    have hnext : n.nextAddress reserved = .ok none := by
      unfold nextAddress
      rw [h]
    unfold requests
    rw [hnext]
    dsimp only
    rw [ih]
    rfl

theorem requests_of_readable {n : Network} {subnet : Subnet}
    (h : Subnet.parse? n.subnet = .ok (some subnet)) (count : Nat) (reserved : List String)
    : n.requests count reserved
        =
      .ok (((subnet.freeAddresses (n.addresses ++ reserved)).take count).map some
        ++ List.replicate (count - (subnet.freeAddresses (n.addresses ++ reserved)).length) none)
    := by
  induction count generalizing reserved with
  | zero => simp [requests]
  | succ count ih =>
    unfold requests
    rw [nextAddress_of_readable h]
    dsimp only
    rw [ih]
    -- Nothing is reserved once the list is used up, so the next request sees the same list.
    cases hfree : subnet.freeAddresses (n.addresses ++ reserved) with
    | nil => simp [hfree, List.replicate_succ]
    | cons a rest =>
      have hrest := Subnet.freeAddresses_append_singleton hfree
      rw [List.append_assoc] at hrest
      simp [hrest]

theorem untilUnmet_map_some_append (free : List Address) (rest : List (Option Address))
    : untilUnmet (free.map some ++ rest) = free.map some ++ untilUnmet rest := by
  induction free with
  | nil => rfl
  | cons a free ih => simp [untilUnmet, ih]

theorem untilUnmet_replicate_none (count : Nat)
    : untilUnmet (List.replicate count none) = [none].take count := by
  cases count with
  | zero => rfl
  | succ count => simp [List.replicate_succ, untilUnmet]

theorem nextAddresses_of_readable {n : Network} {subnet : Subnet}
    (h : Subnet.parse? n.subnet = .ok (some subnet)) (count : Nat) (reserved : List String)
    : n.nextAddresses count reserved
        =
      .ok (((subnet.freeAddresses (n.addresses ++ reserved)).map some ++ [none]).take count) := by
  unfold nextAddresses
  rw [requests_of_readable h]
  rw [Except.map]
  rw [untilUnmet_map_some_append, untilUnmet_replicate_none]
  rw [List.take_append, List.map_take, List.length_map]

theorem requests_ascending (n : Network) (reserved : List String)
    : match Subnet.parse? n.subnet with
      | .ok (some subnet) =>
        ∃ free : List Address,
          free.Pairwise (fun a b => a.value < b.value)
            ∧ (∀ a : Address, a ∈ free
                ↔
              (subnet.base.value / 2 ^ (32 - subnet.length) * 2 ^ (32 - subnet.length) ≤ a.value
                ∧ a.value < subnet.base.value / 2 ^ (32 - subnet.length)
                    * 2 ^ (32 - subnet.length) + 2 ^ (32 - subnet.length))
                ∧ (a.value % 256 ≠ 0 ∧ a.value % 256 ≠ 255)
                ∧ a.text ∉ n.addresses ∧ a.text ∉ reserved)
            ∧ subnet.first + subnet.size ≤ 2 ^ 32
            ∧ (∀ count, n.requests count reserved
                = .ok ((free.take count).map some ++ List.replicate (count - free.length) none))
            ∧ ∀ count, n.nextAddresses count reserved
                = .ok ((free.map some ++ [none]).take count)
      | .ok none => ∀ count, n.requests count reserved = .ok (List.replicate count none)
      | .error _ => ∃ base length, Text.splitFirst '/' n.subnet.toList = some (base, length)
          ∧ Decimal.digitLimit < length.length := by
  split
  . next subnet hparse =>
    refine ⟨subnet.freeAddresses (n.addresses ++ reserved), subnet.pairwise_freeAddresses _, ?_,
      subnet.first_add_size_le, ?_, ?_⟩
    . intro a
      unfold Subnet.freeAddresses
      rw [List.mem_filter]
      rw [Subnet.mem_addresses]
      rw [Subnet.isFree_iff]
      rw [List.mem_append, not_or]
      rw [← and_assoc (a := a.value % 256 ≠ 0)]
      unfold Subnet.first
      rw [Subnet.size_eq]
    . exact fun count => requests_of_readable hparse count reserved
    . exact fun count => nextAddresses_of_readable hparse count reserved
  . next hparse => exact fun count => requests_of_unreadable hparse count reserved
  . next hparse => exact Subnet.parse?_eq_error hparse

end Network

end WireMesh
