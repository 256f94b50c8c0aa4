import Mathlib.Algebra.Group.Int.Defs
import Mathlib.Algebra.Group.Nat.Defs
import WireMesh.Address

/-!
This module contains the text of an address as a grammar: four octets with dots between them, each
a decimal numeral of value at most 255 without a leading zero. A text is read as an address if and
only if it has this form, and the address is the number that the octets make. An address has one
text and no two addresses share it, so comparing texts is comparing numbers.
-/

namespace WireMesh.Address

structure IsOctet (cs : List Char) : Prop where
  ne_nil : cs ≠ []
  digits : ∀ c ∈ cs, c.isDigit = true
  noLeadingZero : cs.head? = some '0' → cs = ['0']
  value_le : Decimal.value cs ≤ 255

def DottedQuad (cs : List Char) (v : Nat) : Prop :=
  ∃ a b c d, IsOctet a ∧ IsOctet b ∧ IsOctet c ∧ IsOctet d
    ∧ cs = a ++ '.' :: (b ++ '.' :: (c ++ '.' :: d))
    ∧ v = ((Decimal.value a * 256 + Decimal.value b) * 256 + Decimal.value c) * 256
        + Decimal.value d

theorem isOctet_toDigits (n : Fin 256) : IsOctet (Nat.toDigits 10 n) where
  ne_nil := Nat.toDigits_ne_nil
  digits := fun c hc => Nat.isDigit_of_mem_toDigits (by decide) (by decide) hc
  noLeadingZero := by
    revert n
    decide +kernel
  value_le := by
    rw [Decimal.value_toDigits]
    omega

theorem IsOctet.eq_toDigits {cs : List Char} (h : IsOctet cs)
    : cs = Nat.toDigits 10 (Decimal.value cs) := by
  by_cases hzero : cs.head? = some '0'
  . rw [h.noLeadingZero hzero]
    rw [Decimal.value_zero]
    rfl
  . have hnumeral := Decimal.isNumeral_iff.2 ⟨h.ne_nil, h.digits⟩
    exact (Decimal.toDigits_value hnumeral hzero).2.symm

theorem chars_ofOctets (a b c d : Fin 256)
    : (ofOctets a b c d).chars
        =
      Nat.toDigits 10 a ++ '.' :: (Nat.toDigits 10 b
        ++ '.' :: (Nat.toDigits 10 c ++ '.' :: Nat.toDigits 10 d)) := by
  unfold chars
  rw [octets_ofOctets]
  simp [List.intercalate, List.intersperse]

theorem dottedQuad_chars (x : Address) : DottedQuad x.chars x.value := by
  obtain ⟨a, b, c, d, rfl⟩ := exists_ofOctets x
  refine ⟨_, _, _, _, isOctet_toDigits a, isOctet_toDigits b, isOctet_toDigits c,
    isOctet_toDigits d, chars_ofOctets a b c d, ?_⟩
  simp only [Decimal.value_toDigits]
  rfl

theorem DottedQuad.exists_eq_chars {cs : List Char} {v : Nat} (h : DottedQuad cs v)
    : ∃ x : Address, x.value = v ∧ cs = x.chars := by
  obtain ⟨a, b, c, d, ha, hb, hc, hd, rfl, rfl⟩ := h
  have hlt : ∀ {cs : List Char}, IsOctet cs → Decimal.value cs < 256 := fun h =>
    Nat.lt_succ_of_le h.value_le
  refine ⟨ofOctets ⟨_, hlt ha⟩ ⟨_, hlt hb⟩ ⟨_, hlt hc⟩ ⟨_, hlt hd⟩, rfl, ?_⟩
  rw [chars_ofOctets]
  rw [← ha.eq_toDigits, ← hb.eq_toDigits, ← hc.eq_toDigits, ← hd.eq_toDigits]

theorem ofChars?_eq_some_iff_dottedQuad {cs : List Char} {x : Address}
    : ofChars? cs = some x ↔ DottedQuad cs x.value := by
  rw [ofChars?_eq_some_iff]
  constructor
  . rintro rfl
    exact dottedQuad_chars x
  . intro h
    obtain ⟨y, hy, rfl⟩ := h.exists_eq_chars
    rw [Address.ext hy]

theorem isSome_ofChars?_iff {cs : List Char}
    : (ofChars? cs).isSome = true ↔ ∃ v, DottedQuad cs v := by
  rw [Option.isSome_iff_exists]
  constructor
  . rintro ⟨x, hx⟩
    exact ⟨x.value, ofChars?_eq_some_iff_dottedQuad.1 hx⟩
  . rintro ⟨v, h⟩
    obtain ⟨x, rfl, -⟩ := h.exists_eq_chars
    exact ⟨x, ofChars?_eq_some_iff_dottedQuad.2 h⟩

theorem DottedQuad.isDigit_or_dot {cs : List Char} {v : Nat} (h : DottedQuad cs v)
    : ∀ c ∈ cs, c.isDigit = true ∨ c = '.' := by
  obtain ⟨a, b, c, d, ha, hb, hc, hd, rfl, -⟩ := h
  simp only [List.forall_mem_append, List.forall_mem_cons, or_true, true_and]
  exact ⟨fun e he => .inl (ha.digits e he), fun e he => .inl (hb.digits e he),
    fun e he => .inl (hc.digits e he), fun e he => .inl (hd.digits e he)⟩

theorem map_value_parse?_eq_some_iff_dottedQuad {s : String} {n : Nat}
    : (parse? s).map value = some n ↔ DottedQuad s.toList n := by
  rw [Option.map_eq_some_iff]
  constructor
  . rintro ⟨x, hx, rfl⟩
    exact ofChars?_eq_some_iff_dottedQuad.1 hx
  . intro h
    obtain ⟨x, rfl, -⟩ := h.exists_eq_chars
    exact ⟨x, ofChars?_eq_some_iff_dottedQuad.2 h, rfl⟩

theorem map_value_parse?_eq_some_iff {s : String} {n : Nat}
    : (parse? s).map value = some n ↔ n < 2 ^ 32 ∧ (ofInt n).text = s := by
  rw [Option.map_eq_some_iff]
  constructor
  . rintro ⟨x, hx, rfl⟩
    rw [ofInt_value]
    exact ⟨x.value_lt, (parse?_eq_some_iff.1 hx).symm⟩
  . rintro ⟨hlt, rfl⟩
    have hvalue := value_ofInt n
    refine ⟨ofInt n, parse?_eq_some_iff.2 rfl, ?_⟩
    omega

theorem text_value_inverse
    : (∀ v : Int, ∃ n : Nat, (parse? (ofInt v).text).map value = some n ∧ (n : Int) = v % 2 ^ 32)
      ∧ (∀ (s : String) (n : Nat), (parse? s).map value = some n
          ↔ n < 2 ^ 32 ∧ (ofInt n).text = s)
      ∧ (∀ (s t : String) (m n : Nat), (parse? s).map value = some m
          → (parse? t).map value = some n → (s = t ↔ m = n))
      ∧ (∀ s : String, isText s = true ↔ (parse? s).map value ≠ none)
      ∧ ∀ (s : String) (n : Nat), (parse? s).map value = some n ↔ DottedQuad s.toList n := by
  refine ⟨?_, ?_, ?_, ?_, ?_⟩
  . intro v
    refine ⟨(ofInt v).value, ?_, value_ofInt v⟩
    rw [parse?_eq_some_iff.2 rfl]
    rfl
  . intro s n
    exact map_value_parse?_eq_some_iff
  . intro s t m n hs ht
    constructor
    . rintro rfl
      exact Option.some.inj (hs.symm.trans ht)
    . rintro rfl
      rw [← (map_value_parse?_eq_some_iff.1 hs).2, ← (map_value_parse?_eq_some_iff.1 ht).2]
  . intro s
    rw [isText, Option.isSome_iff_ne_none, ne_eq, ne_eq, Option.map_eq_none_iff]
  . intro s n
    exact map_value_parse?_eq_some_iff_dottedQuad

theorem text_value_inverse_neighbours
    : (ofInt (-1)).text = "255.255.255.255" ∧ (ofInt (2 ^ 32)).text = "0.0.0.0"
      ∧ (parse? "10.1.2.3").map value = some 167838211
      ∧ (parse? "10.1.2.30").map value = some 167838238
      ∧ ("10.1.2.3" = "10.1.2.30" ↔ 167838211 = 167838238)
      ∧ (parse? "10.1.2.03").map value = none := by
  have h : (parse? "10.1.2.3").map value = some 167838211 := by decide +kernel
  have h' : (parse? "10.1.2.30").map value = some 167838238 := by decide +kernel
  exact ⟨by decide +kernel, by decide +kernel, h, h', text_value_inverse.2.2.1 _ _ _ _ h h',
    by decide +kernel⟩

end WireMesh.Address
