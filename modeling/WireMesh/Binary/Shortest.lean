import WireMesh.Binary

/-!
This module contains the shortest decimal text of a binary number: the fewest digits that read back
as the number, and of those the nearest. The text is positional if the first digit stands between
the fourth place after the point and the sixteenth before it, and has an exponent otherwise.
-/

namespace WireMesh.Binary

def scaleTwo (n : Nat) (e : Int) : Nat × Nat :=
  (n <<< e.toNat, 1 <<< (-e).toNat)

/--
Whether the decimal `d * 10 ^ k` is read as the number: it lies between the midpoints to the two
neighbours, and on a midpoint only if the significand is even. Below a power of two the neighbour is
half as far away.
-/
def readsBack (x : Binary) (d : Nat) (k : Int) : Bool :=
  let below := if x.significand = 1 <<< (precision - 1) && minExponent < x.exponent then 1 else 2
  let (low, den) := scaleTwo (4 * x.significand - below) (x.exponent - 2)
  let high := (scaleTwo (4 * x.significand + 2) (x.exponent - 2)).1
  let num := d * Nat.pow 10 k.toNat * den
  let unit := Nat.pow 10 (-k).toNat
  if x.significand % 2 = 0 then
    low * unit ≤ num && num ≤ high * unit
  else
    low * unit < num && num < high * unit

/--
The number of digits of `num / den` before the point; if there are none, minus the number of zeros
right after it. `fuel` bounds the zeros that are counted.
-/
def pointPosition (num den fuel : Nat) : Int :=
  if den ≤ num then
    (Nat.toDigits 10 (num / den)).length
  else
    match fuel with
    | 0 => 0
    | fuel + 1 => if den ≤ num * 10 then 0 else pointPosition (num * 10) den fuel - 1

/--
Of the decimals with `count` digits next to the number, the nearest one that reads back: its digits
and the power of ten of the last one.
-/
def withDigits? (x : Binary) (count : Nat) : Option (Nat × Int) :=
  let (num, den) := scaleTwo x.significand x.exponent
  let k := pointPosition num den 400 - count
  let num := num * Nat.pow 10 (-k).toNat
  let den := den * Nat.pow 10 k.toNat
  let floor := num / den
  let nearest := divNearest num den
  let other := if nearest = floor then floor + 1 else floor
  if x.readsBack nearest k then some (nearest, k)
  else if x.readsBack other k then some (other, k)
  else none

def shortest (x : Binary) : Nat × Int :=
  ((List.range 17).findSome? fun n => x.withDigits? (n + 1)).getD (0, 0)

def significantDigits (n : Nat) : List Char :=
  let kept := ((Nat.toDigits 10 n).reverse.dropWhile (· = '0')).reverse
  if kept.isEmpty then ['0'] else kept

def exponentChars (e : Int) : List Char :=
  let digits := Nat.toDigits 10 e.natAbs
  let padded := if digits.length < 2 then '0' :: digits else digits
  (if e < 0 then '-' else '+') :: padded

def layOut (digits : List Char) (point : Int) : List Char :=
  if -4 < point && point ≤ 16 then
    if point ≤ 0 then
      '0' :: '.' :: List.replicate (-point).toNat '0' ++ digits
    else
      let whole := digits.take point.toNat
      let fraction := digits.drop point.toNat
      whole ++ List.replicate (point.toNat - whole.length) '0' ++ '.' ::
        (if fraction.isEmpty then ['0'] else fraction)
  else
    let first := digits.take 1
    let rest := digits.drop 1
    first ++ (if rest.isEmpty then [] else '.' :: rest) ++ 'e' :: exponentChars (point - 1)

def text (x : Binary) : String :=
  let magnitude :=
    if x.significand = 0 then
      ['0', '.', '0']
    else
      let (d, k) := x.shortest
      layOut (significantDigits d) ((Nat.toDigits 10 d).length + k)
  String.ofList (if x.negative then '-' :: magnitude else magnitude)

end WireMesh.Binary
