import WireMesh.Decimal

/-!
This module contains IPv4 addresses. An address is a number of 32 bits; its text is four decimal
octets with dots between them. Reading accepts exactly what writing produces, so two addresses are
equal if and only if their texts are.
-/

namespace WireMesh

@[ext]
structure Address where
  value : Nat
  value_lt : value < 1 <<< 32
deriving DecidableEq, Repr

namespace Address

def ofOctets (a b c d : Fin 256) : Address :=
  ⟨((a * 256 + b) * 256 + c) * 256 + d, by omega⟩

def ofInt (n : Int) : Address :=
  ⟨(BitVec.ofInt 32 n).toNat, (BitVec.ofInt 32 n).isLt⟩

def octet (a : Address) (shift : Nat) : Nat :=
  a.value >>> shift % 256

def octets (a : Address) : List Nat :=
  [a.octet 24, a.octet 16, a.octet 8, a.octet 0]

def chars (a : Address) : List Char :=
  ['.'].intercalate (a.octets.map (Nat.toDigits 10))

def text (a : Address) : String :=
  String.ofList a.chars

def octet? (cs : List Char) : Option (Fin 256) :=
  if Decimal.isNumeral cs && decide (cs.length ≤ 3) && (decide (cs = ['0']) || cs.head? != some '0')
  then
    if h : Decimal.value cs < 256 then some ⟨Decimal.value cs, h⟩ else none
  else
    none

def ofChars? (cs : List Char) : Option Address :=
  match cs.splitOn '.' with
  | [a, b, c, d] => do
    return ofOctets (← octet? a) (← octet? b) (← octet? c) (← octet? d)
  | _ => none

def parse? (s : String) : Option Address :=
  ofChars? s.toList

def isText (s : String) : Bool :=
  (parse? s).isSome

theorem value_ofInt (v : Int) : ((ofInt v).value : Int) = v % 4294967296 := by
  change ((BitVec.ofInt 32 v).toNat : Int) = _
  rw [BitVec.toNat_ofInt]
  omega

theorem ofInt_value (x : Address) : ofInt x.value = x := by
  have hlt := x.value_lt
  have hvalue := value_ofInt x.value
  apply Address.ext
  omega

theorem octet?_eq_some_iff {cs : List Char} {n : Fin 256}
    : octet? cs = some n ↔ cs = Nat.toDigits 10 n := by
  constructor
  · intro h
    unfold octet? at h
    split at h
    · next hc =>
      simp only [Bool.and_eq_true, Bool.or_eq_true, decide_eq_true_eq, bne_iff_ne] at hc
      split at h
      · cases h
        rcases hc.2 with rfl | h0
        · change _ = Nat.toDigits 10 (Decimal.value ['0'])
          rw [Decimal.value_zero, Nat.toDigits_zero]
        · exact (Decimal.toDigits_value hc.1.1 h0).2.symm
      · cases h
    · cases h
  · rintro rfl
    revert n
    decide +kernel

theorem exists_ofOctets (x : Address) : ∃ a b c d, x = ofOctets a b c d := by
  obtain ⟨v, hv⟩ := x
  refine ⟨⟨v >>> 24, by omega⟩, ⟨v >>> 16 % 256, by omega⟩, ⟨v >>> 8 % 256, by omega⟩,
    ⟨v % 256, by omega⟩, ?_⟩
  simp only [ofOctets, mk.injEq]
  omega

theorem octets_ofOctets (a b c d : Fin 256)
    : (ofOctets a b c d).octets = [a.val, b.val, c.val, d.val] := by
  simp only [octets, octet, ofOctets, List.cons.injEq, and_true]
  generalize h : ((a.val * 256 + b.val) * 256 + c.val) * 256 + d.val = n
  omega

theorem dot_notMem_toDigits (n : Nat) : '.' ∉ Nat.toDigits 10 n := fun h =>
  absurd (Nat.isDigit_of_mem_toDigits (by decide) (by decide) h) (by decide)

theorem splitOn_chars (x : Address)
    : x.chars.splitOn '.' = x.octets.map (Nat.toDigits 10) :=
  List.splitOn_intercalate '.' (by simp [octets, dot_notMem_toDigits]) (by simp [octets])

theorem ofChars?_eq_some_iff {cs : List Char} {x : Address}
    : ofChars? cs = some x ↔ cs = x.chars := by
  constructor
  · intro h
    unfold ofChars? at h
    split at h
    · next hs =>
      simp only [Option.bind_eq_bind, Option.bind_eq_some_iff, Option.pure_def, Option.some.injEq,
        octet?_eq_some_iff] at h
      obtain ⟨a, rfl, b, rfl, c, rfl, d, rfl, rfl⟩ := h
      rw [chars, octets_ofOctets, List.map_cons, List.map_cons, List.map_cons, List.map_cons,
        List.map_nil, ← hs, List.intercalate_splitOn]
    · cases h
  · rintro rfl
    obtain ⟨a, b, c, d, rfl⟩ := exists_ofOctets x
    unfold ofChars?
    rw [splitOn_chars, octets_ofOctets]
    simp [octet?_eq_some_iff.2 rfl]

theorem parse?_eq_some_iff {s : String} {x : Address} : parse? s = some x ↔ s = x.text := by
  rw [parse?, ofChars?_eq_some_iff, text, String.ext_iff, String.toList_ofList]

theorem text_injective {x y : Address} (h : x.text = y.text) : x = y :=
  Option.some.inj ((parse?_eq_some_iff.2 rfl).symm.trans (parse?_eq_some_iff.2 h))

end Address

end WireMesh
