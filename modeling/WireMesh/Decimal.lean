/-!
This module contains decimal numerals: how numbers are written and how a run of digits is read. More
than `digitLimit` digits are refused either way; in a numeral that is read leading zeros count too.
-/

namespace WireMesh

namespace Decimal

def ofNat (n : Nat) : String :=
  String.ofList (Nat.toDigits 10 n)

def ofInt (n : Int) : String :=
  if n < 0 then "-" ++ ofNat n.natAbs else ofNat n.natAbs

def digitLimit : Nat := 4300

structure TooLong where
deriving DecidableEq, Repr

def TooLong.message (_ : TooLong) : String :=
  "Exceeds the limit (" ++ Decimal.ofNat digitLimit ++ " digits) for integer string conversion; "
    ++ "use sys.set_int_max_str_digits() to increase the limit"

/--
Write an integer. The sign does not count as a digit.
-/
def write (n : Int) : Except TooLong String :=
  if (Nat.toDigits 10 n.natAbs).length ≤ digitLimit then .ok (ofInt n) else .error ⟨⟩

structure TooManyDigits where
  count : Nat
deriving DecidableEq, Repr

namespace TooManyDigits

def message (e : TooManyDigits) : String :=
  "Exceeds the limit (" ++ ofNat digitLimit ++ " digits) for integer string conversion: value has "
    ++ ofNat e.count ++ " digits; use sys.set_int_max_str_digits() to increase the limit"

end TooManyDigits

def isNumeral (cs : List Char) : Bool :=
  !cs.isEmpty && cs.all Char.isDigit

def value (cs : List Char) : Nat :=
  Nat.ofDigitChars 10 cs 0

def read (cs : List Char) : Except TooManyDigits Nat :=
  if cs.length ≤ digitLimit then .ok (value cs) else .error ⟨cs.length⟩

theorem isNumeral_iff {cs : List Char}
    : isNumeral cs = true ↔ cs ≠ [] ∧ ∀ c ∈ cs, c.isDigit = true := by
  simp [isNumeral]

theorem write_eq_ok_iff {n : Int} {s : String}
    : write n = .ok s ↔ (Nat.toDigits 10 n.natAbs).length ≤ digitLimit ∧ ofInt n = s := by
  unfold write
  split
  . next hlength => simp [hlength]
  . next hlength => simp [hlength]

theorem write_eq_error_iff {n : Int} {e : TooLong}
    : write n = .error e ↔ digitLimit < (Nat.toDigits 10 n.natAbs).length := by
  unfold write
  split
  . next hlength => simp [Nat.not_lt.2 hlength]
  . next hlength => simp [Nat.not_le.1 hlength]

theorem read_eq_ok_iff {cs : List Char} {n : Nat}
    : read cs = .ok n ↔ cs.length ≤ digitLimit ∧ value cs = n := by
  unfold read
  split
  . next hlength => simp [hlength]
  . next hlength => simp [hlength]

theorem read_eq_error_iff {cs : List Char} {e : TooManyDigits}
    : read cs = .error e ↔ digitLimit < cs.length ∧ e = ⟨cs.length⟩ := by
  unfold read
  split
  . next hlength => simp [Nat.not_lt.2 hlength]
  . next hlength => simp [Nat.not_le.1 hlength, eq_comm]

theorem value_toDigits (n : Nat) : value (Nat.toDigits 10 n) = n :=
  Nat.ofDigitChars_toDigits (by decide) (by decide)

theorem value_zero : value ['0'] = 0 := by
  simpa using value_toDigits 0

theorem value_append_digit (cs : List Char) (c : Char)
    : value (cs ++ [c]) = 10 * value cs + (c.toNat - '0'.toNat) := by
  simp [value, Nat.ofDigitChars_append, Nat.ofDigitChars_cons]

theorem isDigit_iff_toNat {c : Char} : c.isDigit = true ↔ 48 ≤ c.toNat ∧ c.toNat ≤ 57 := by
  simp only [Char.isDigit, Bool.and_eq_true, decide_eq_true_eq, Char.toNat, UInt32.le_iff_toNat_le]
  rfl

theorem digitChar_of_isDigit {c : Char} (h : c.isDigit = true)
    : (c.toNat - '0'.toNat).digitChar = c := by
  have h := isDigit_iff_toNat.1 h
  have hz : '0'.toNat = 48 := rfl
  refine Char.toNat_inj.1 ?_
  rw [hz, Nat.toNat_digitChar_of_lt_ten (by omega)]
  omega

theorem toDigits_value {cs : List Char} (h : isNumeral cs = true) (h0 : cs.head? ≠ some '0')
    : 0 < value cs ∧ Nat.toDigits 10 (value cs) = cs := by
  rw [← List.reverse_reverse cs] at h h0 ⊢
  generalize cs.reverse = ds at h h0 ⊢
  induction ds with
  | nil => simp [isNumeral] at h
  | cons d ds ih =>
    have hd : d.isDigit = true := by
      simp only [isNumeral, List.reverse_cons, List.all_append, List.all_cons, List.all_nil,
        Bool.and_true, Bool.and_eq_true] at h
      exact h.2.2
    have hlt : d.toNat - '0'.toNat < 10 := by
      have := isDigit_iff_toNat.1 hd
      change d.toNat - 48 < 10
      omega
    rw [List.reverse_cons, value_append_digit]
    cases ds with
    | nil =>
      have hne : d ≠ '0' := by simpa using h0
      have hpos : 0 < d.toNat - '0'.toNat := by
        rcases Nat.eq_zero_or_pos (d.toNat - '0'.toNat) with hz | hz
        · have := digitChar_of_isDigit hd
          rw [hz] at this
          exact absurd this.symm hne
        · exact hz
      simp only [List.reverse_nil, value, Nat.ofDigitChars_nil, Nat.mul_zero, Nat.zero_add,
        List.nil_append]
      exact ⟨hpos, by rw [Nat.toDigits_of_lt_base hlt, digitChar_of_isDigit hd]⟩
    | cons e es =>
      have ih := ih (by simp [isNumeral] at h ⊢; grind) (by simpa [List.head?_append] using h0)
      refine ⟨by omega, ?_⟩
      rw [← Nat.toDigits_append_toDigits (by decide) ih.1 hlt, ih.2, Nat.toDigits_of_lt_base hlt,
        digitChar_of_isDigit hd]

end Decimal

end WireMesh
