import WireMesh.Decimal

/-!
This module contains finite binary floating-point numbers of 64 bits. Such a number is an integer of
at most 53 bits times a power of two; a decimal is read as the nearest of them, and of two that are
equally near as the one whose integer is even.
-/

namespace WireMesh

/--
A binary floating-point number: `significand * 2 ^ exponent`, with a sign that zero has too.
-/
structure Binary where
  negative : Bool
  significand : Nat
  exponent : Int
deriving DecidableEq, Repr

namespace Binary

def minExponent : Int := -1074

def precision : Nat := 53

def toRat (x : Binary) : Rat :=
  let magnitude : Rat :=
    if 0 ≤ x.exponent then
      ((x.significand <<< x.exponent.toNat : Nat) : Rat)
    else
      mkRat x.significand (1 <<< (-x.exponent).toNat)
  if x.negative then -magnitude else magnitude

/--
The integer nearest to `num / den`, the even one if two are equally near.
-/
def divNearest (num den : Nat) : Nat :=
  let floor := num / den
  match compare (2 * (num % den)) den with
  | .lt => floor
  | .gt => floor + 1
  | .eq => if floor % 2 = 0 then floor else floor + 1

def ofRatio (negative : Bool) (num den : Nat) : Binary :=
  if num = 0 then
    ⟨negative, 0, 0⟩
  else
    -- The quotient has 53 or 54 bits before the point at this scale.
    let low := max minExponent ((num.log2 : Int) - den.log2 - precision)
    let scaled (e : Int) : Nat × Nat := (num <<< (-e).toNat, den <<< e.toNat)
    let tooLong := (scaled low).1 / (scaled low).2 ≥ 1 <<< precision
    let e := if tooLong then low + 1 else low
    let s := divNearest (scaled e).1 (scaled e).2
    if s = 1 <<< precision then ⟨negative, 1 <<< (precision - 1), e + 1⟩ else ⟨negative, s, e⟩

def ofDecimal (negative : Bool) (mantissa : Nat) (exponent : Int) : Binary :=
  ofRatio negative (mantissa * Nat.pow 10 exponent.toNat) (Nat.pow 10 (-exponent).toNat)

def toInt? (x : Binary) : Option Int :=
  if x.toRat.den = 1 then some x.toRat.num else none

end Binary

end WireMesh
