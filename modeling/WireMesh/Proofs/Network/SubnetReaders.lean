import Mathlib.Order.Bounds.Basic
import WireMesh.Proofs.Network.NextAddress

/-!
This module contains the proof that the three readers of a subnet's text agree. The strict form is
what the allocation reads with a length of at most two digits, and whatever the allocation reads the
check of addresses takes for the same range: all addresses that share the leading bits of the base.
-/

namespace WireMesh

open Text

namespace Subnet

def inside (s : Subnet) : Set Address :=
  { a | ∀ i < 32, 32 - s.length ≤ i → a.value.testBit i = s.base.value.testBit i }

variable {s : Subnet} {a : Address}

theorem mem_inside_iff : a ∈ s.inside ↔ s.contains a = true := by
  have hbits : ∀ b : Address, ∀ i, (b.value / s.size).testBit i
      = b.value.testBit (i + (32 - s.length)) := by
    intro b i
    rw [size_eq, Nat.testBit_div_two_pow]
  unfold contains
  rw [beq_iff_eq]
  constructor
  . intro h
    apply Nat.eq_of_testBit_eq
    intro i
    rw [hbits, hbits]
    -- Beyond the 32 bits of an address there is nothing to compare.
    by_cases hi : i + (32 - s.length) < 32
    . exact h _ hi (Nat.le_add_left _ _)
    . have hpow : 2 ^ 32 ≤ 2 ^ (i + (32 - s.length)) :=
        Nat.pow_le_pow_right (by decide) (Nat.le_of_not_lt hi)
      rw [Nat.testBit_lt_two_pow (Nat.lt_of_lt_of_le a.value_lt hpow)]
      rw [Nat.testBit_lt_two_pow (Nat.lt_of_lt_of_le s.base.value_lt hpow)]
  . intro h i _ hi
    have hbit := hbits a (i - (32 - s.length))
    rw [h, hbits] at hbit
    rw [Nat.sub_add_cancel hi] at hbit
    exact hbit.symm

theorem mem_values_inside_iff {v : Nat}
    : v ∈ Address.value '' s.inside ↔ s.first ≤ v ∧ v < s.first + s.size := by
  have hle := s.first_add_size_le
  rw [Set.mem_image]
  constructor
  . rintro ⟨a, ha, rfl⟩
    exact contains_iff.1 (mem_inside_iff.1 ha)
  . intro h
    refine ⟨⟨v, by omega⟩, ?_, rfl⟩
    exact mem_inside_iff.2 (contains_iff.2 h)

theorem isLeast_first (s : Subnet) : IsLeast (Address.value '' s.inside) s.first := by
  have hpos := s.size_pos
  constructor
  . rw [mem_values_inside_iff]
    omega
  . intro v hv
    exact (mem_values_inside_iff.1 hv).1

theorem isGreatest_last (s : Subnet) : IsGreatest (Address.value '' s.inside) s.last := by
  have hpos := s.size_pos
  constructor
  . rw [mem_values_inside_iff]
    unfold last
    omega
  . intro v hv
    rw [mem_values_inside_iff] at hv
    unfold last
    omega

theorem isLeast_iff {v : Nat} : IsLeast (Address.value '' s.inside) v ↔ v = s.first := by
  constructor
  . intro h
    exact h.unique s.isLeast_first
  . rintro rfl
    exact s.isLeast_first

theorem isGreatest_iff {v : Nat} : IsGreatest (Address.value '' s.inside) v ↔ v = s.last := by
  constructor
  . intro h
    exact h.unique s.isGreatest_last
  . rintro rfl
    exact s.isGreatest_last

theorem isCidr_iff {s : String}
    : isCidr s.toList = true
        ↔
      ∃ range base length, parse? s = .ok (some range)
        ∧ splitFirst '/' s.toList = some (base, length) ∧ length.length ≤ 2 := by
  unfold isCidr
  cases hsplit : splitFirst '/' s.toList with
  | none => simp
  | some parts =>
    obtain ⟨base, length⟩ := parts
    simp only [Bool.and_eq_true, decide_eq_true_eq]
    constructor
    . rintro ⟨⟨⟨haddress, hnumeral⟩, htwo⟩, hle⟩
      obtain ⟨address, haddress⟩ := Option.isSome_iff_exists.1 haddress
      have hlimit : length.length ≤ Decimal.digitLimit := Nat.le_trans htwo (by decide)
      refine ⟨⟨address, Decimal.value length, hle⟩, base, length, ?_, rfl, htwo⟩
      exact parse?_eq_some_iff.2 ⟨base, length, hsplit, haddress, hnumeral, hlimit, rfl⟩
    . rintro ⟨range, _, _, hparse, ⟨⟩, htwo⟩
      obtain ⟨_, _, hsplit', haddress, hnumeral, -, hvalue⟩ := parse?_eq_some_iff.1 hparse
      rw [hsplit] at hsplit'
      cases hsplit'
      refine ⟨⟨⟨Option.isSome_of_eq_some haddress, hnumeral⟩, htwo⟩, ?_⟩
      rw [hvalue]
      exact range.length_le

theorem exists_parse? {s : String}
    (h : ∀ base length, splitFirst '/' s.toList = some (base, length)
      → length.countP Char.isDigit ≤ Decimal.digitLimit)
    : ∃ read, parse? s = .ok read := by
  cases hparse : parse? s with
  | ok read => exact ⟨read, rfl⟩
  | error e =>
    obtain ⟨base, length, hsplit, -, hnumeral, hlength, -⟩ := parse?_eq_error_iff.1 hparse
    have hdigits : length.countP Char.isDigit = length.length := by
      rw [List.countP_eq_length]
      exact List.all_eq_true.1 (Bool.and_eq_true_iff.1 hnumeral).2
    have hlimit := h base length hsplit
    omega

end Subnet

def Rejects (field : String) (v : Value) (context : Option Context) (complaint : Complaint)
    : Prop :=
  ∃ reported, validate field v context = .ok (.rejected complaint reported)

section Address

variable {context : Context} {s : String} {a : Address}

theorem rejects_address_iff {complaint : Complaint} (h : Address.parse? s = some a)
    : Rejects "address" (.text s) (some context) complaint
        ↔
      TextRule.checkUse context s a = some complaint := by
  obtain rfl := Address.parse?_eq_some_iff.1 h
  unfold Rejects
  rw [validate_address_text]
  cases TextRule.checkUse context a.text a with
  | none => simp
  | some found => simp

theorem accepts_address_iff_of_parse? (h : Address.parse? s = some a)
    : Accepts "address" (.text s) (some context) ↔ TextRule.checkUse context s a = none := by
  obtain rfl := Address.parse?_eq_some_iff.1 h
  unfold Accepts
  rw [validate_address_text]
  cases TextRule.checkUse context a.text a with
  | none => simp
  | some found => simp

end Address

namespace Subnet

def KeepsLowest (s : Subnet) (a : Address) : Prop :=
  s.length < 31 ∧ IsLeast (Address.value '' s.inside) a.value

def KeepsHighest (s : Subnet) (a : Address) : Prop :=
  s.length < 31 ∧ IsGreatest (Address.value '' s.inside) a.value

variable {s : Subnet} {a : Address}

theorem mem_inside_of_value_mem (h : a.value ∈ Address.value '' s.inside) : a ∈ s.inside := by
  obtain ⟨b, hb, hvalue⟩ := h
  rw [← Address.ext hvalue]
  exact hb

theorem not_keepsHighest_of_keepsLowest (h : s.KeepsLowest a) : ¬ s.KeepsHighest a := by
  rintro ⟨hshort, hgreatest⟩
  have hlast := hgreatest.unique s.isGreatest_last
  rw [h.2.unique s.isLeast_first] at hlast
  exact first_ne_last hshort hlast

end Subnet

namespace TextRule

variable {context : Context} {s : String} {a : Address} {range : Subnet}

theorem checkUse_cases (hrange : Subnet.ofAnyForm? context.network.subnet = some range)
    : (a ∉ range.inside ∧ ¬ range.KeepsLowest a ∧ ¬ range.KeepsHighest a
        ∧ checkUse context s a = some (.outsideSubnet context.network.subnet))
      ∨ (a ∈ range.inside ∧ range.KeepsLowest a ∧ ¬ range.KeepsHighest a
        ∧ checkUse context s a = some (.networkAddress context.network.subnet))
      ∨ (a ∈ range.inside ∧ ¬ range.KeepsLowest a ∧ range.KeepsHighest a
        ∧ checkUse context s a = some (.broadcastAddress context.network.subnet))
      ∨ (a ∈ range.inside ∧ ¬ range.KeepsLowest a ∧ ¬ range.KeepsHighest a
        ∧ checkUse context s a = (holder? context s).map .taken) := by
  have hlowest : range.length < 31 ∧ a.value = range.first ↔ range.KeepsLowest a := by
    unfold Subnet.KeepsLowest
    rw [Subnet.isLeast_iff]
  have hhighest : range.length < 31 ∧ a.value = range.last ↔ range.KeepsHighest a := by
    unfold Subnet.KeepsHighest
    rw [Subnet.isGreatest_iff]
  by_cases hinside : a ∈ range.inside
  . have huse := @checkUse_of_contains context s a range hrange (Subnet.mem_inside_iff.1 hinside)
    by_cases hlow : range.KeepsLowest a
    . have hhigh := Subnet.not_keepsHighest_of_keepsLowest hlow
      rw [if_pos (hlowest.2 hlow)] at huse
      exact .inr (.inl ⟨hinside, hlow, hhigh, huse⟩)
    . rw [if_neg (fun h => hlow (hlowest.1 h))] at huse
      by_cases hhigh : range.KeepsHighest a
      . rw [if_pos (hhighest.2 hhigh)] at huse
        exact .inr (.inr (.inl ⟨hinside, hlow, hhigh, huse⟩))
      . rw [if_neg (fun h => hhigh (hhighest.1 h))] at huse
        exact .inr (.inr (.inr ⟨hinside, hlow, hhigh, huse⟩))
  . refine .inl ⟨hinside, ?_, ?_, ?_⟩
    . exact fun hlow => hinside (Subnet.mem_inside_of_value_mem hlow.2.1)
    . exact fun hhigh => hinside (Subnet.mem_inside_of_value_mem hhigh.2.1)
    . rw [Subnet.mem_inside_iff] at hinside
      unfold checkUse
      dsimp only
      rw [hrange]
      simp [hinside]

end TextRule

/--
Whether the check of addresses in a network takes `range` for its subnet: an address is outside if
and only if it is not in the range, and one that is inside can only be the lowest or highest one of
it, where these are kept free, or belong to another peer.
-/
structure Context.Takes (context : Context) (range : Subnet) : Prop where
  outside : ∀ s a, Address.parse? s = some a
    → (Rejects "address" (.text s) (some context) (.outsideSubnet context.network.subnet)
      ↔ a ∉ range.inside)
  lowest : ∀ s a, Address.parse? s = some a
    → (Rejects "address" (.text s) (some context) (.networkAddress context.network.subnet)
      ↔ range.KeepsLowest a)
  highest : ∀ s a, Address.parse? s = some a
    → (Rejects "address" (.text s) (some context) (.broadcastAddress context.network.subnet)
      ↔ range.KeepsHighest a)
  other : ∀ s a, Address.parse? s = some a
    → ((Accepts "address" (.text s) (some context)
        ∨ ∃ name, Rejects "address" (.text s) (some context) (.taken name))
      ↔ a ∈ range.inside ∧ ¬ range.KeepsLowest a ∧ ¬ range.KeepsHighest a)

theorem Context.takes {context : Context} {range : Subnet}
    (hrange : Subnet.ofAnyForm? context.network.subnet = some range) : context.Takes range := by
  have hcases := fun s a => @TextRule.checkUse_cases context s a range hrange
  constructor
  . intro s a hparse
    rw [rejects_address_iff hparse]
    obtain ⟨hinside, -, -, huse⟩ | ⟨hinside, -, -, huse⟩ | ⟨hinside, -, -, huse⟩
      | ⟨hinside, -, -, huse⟩ := hcases s a
    all_goals simp [huse, hinside]
  . intro s a hparse
    rw [rejects_address_iff hparse]
    obtain ⟨-, hlow, -, huse⟩ | ⟨-, hlow, -, huse⟩ | ⟨-, hlow, -, huse⟩ | ⟨-, hlow, -, huse⟩ :=
      hcases s a
    all_goals simp [huse, hlow]
  . intro s a hparse
    rw [rejects_address_iff hparse]
    obtain ⟨-, -, hhigh, huse⟩ | ⟨-, -, hhigh, huse⟩ | ⟨-, -, hhigh, huse⟩ | ⟨-, -, hhigh, huse⟩ :=
      hcases s a
    all_goals simp [huse, hhigh]
  . intro s a hparse
    simp only [rejects_address_iff hparse, accepts_address_iff_of_parse? hparse]
    obtain ⟨hinside, hlow, hhigh, huse⟩ | ⟨hinside, hlow, hhigh, huse⟩
      | ⟨hinside, hlow, hhigh, huse⟩ | ⟨hinside, hlow, hhigh, huse⟩ := hcases s a
    . simp [huse, hinside]
    . simp [huse, hlow]
    . simp [huse, hhigh]
    . cases hholder : TextRule.holder? context s with
      | none => simp [huse, hholder, hinside, hlow, hhigh]
      | some name => simp [huse, hholder, hinside, hlow, hhigh]

namespace Subnet

theorem readers_agree (s : String)
    : (isCidr s.toList = true
          ↔
        ∃ range base length, parse? s = .ok (some range)
          ∧ splitFirst '/' s.toList = some (base, length) ∧ length.length ≤ 2)
      ∧ ((∀ base length, splitFirst '/' s.toList = some (base, length)
          → length.countP Char.isDigit ≤ Decimal.digitLimit) → ∃ read, parse? s = .ok read)
      ∧ ∀ range, parse? s = .ok (some range)
          → ofAnyForm? s = some range
            ∧ IsLeast (Address.value '' range.inside) range.first
            ∧ IsGreatest (Address.value '' range.inside) range.last
            ∧ ∀ context : Context, context.network.subnet = s → context.Takes range := by
  refine ⟨isCidr_iff, exists_parse?, ?_⟩
  intro range hparse
  have hrange := ofAnyForm?_of_parse? hparse
  refine ⟨hrange, range.isLeast_first, range.isGreatest_last, ?_⟩
  rintro context rfl
  exact Context.takes hrange

theorem readers_agree_padded
    : ¬ isCidr "10.0.0.77/026".toList = true
        ∧ (∃ read, parse? "10.0.0.77/026" = .ok read)
        ∧ ∃ context : Context, context.network.subnet = "10.0.0.77/026"
            ∧ Rejects "address" (.text "10.0.0.63") (some context) (.outsideSubnet "10.0.0.77/026")
            ∧ Rejects "address" (.text "10.0.0.64") (some context)
                (.networkAddress "10.0.0.77/026")
            ∧ Rejects "address" (.text "10.0.0.127") (some context)
                (.broadcastAddress "10.0.0.77/026") := by
  obtain ⟨hcidr, hread, htakes⟩ := readers_agree "10.0.0.77/026"
  have hsplit : splitFirst '/' "10.0.0.77/026".toList
      = some ("10.0.0.77".toList, "026".toList) := by decide
  obtain ⟨-, hleast, hgreatest, htakes⟩ := htakes ⟨⟨167772237, by decide⟩, 26, by decide⟩ rfl
  specialize htakes ⟨{ Network.quarter with subnet := "10.0.0.77/026" }, none⟩ rfl
  refine ⟨?_, ?_, ⟨{ Network.quarter with subnet := "10.0.0.77/026" }, none⟩, rfl, ?_, ?_, ?_⟩
  . intro h
    obtain ⟨_, _, _, -, hsplit', htwo⟩ := hcidr.1 h
    rw [hsplit] at hsplit'
    cases hsplit'
    revert htwo
    decide
  . apply hread
    intro base length hsplit'
    rw [hsplit] at hsplit'
    cases hsplit'
    decide
  . apply (htakes.outside _ ⟨167772223, by decide⟩ rfl).2
    rw [mem_inside_iff]
    decide
  . exact (htakes.lowest _ ⟨167772224, by decide⟩ rfl).2 ⟨by decide, hleast⟩
  . exact (htakes.highest _ ⟨167772287, by decide⟩ rfl).2 ⟨by decide, hgreatest⟩

end Subnet

end WireMesh
