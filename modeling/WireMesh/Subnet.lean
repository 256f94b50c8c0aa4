import WireMesh.Address
import WireMesh.Text.Split

/-!
This module contains subnets: a base address and the number of leading bits that all addresses of
the subnet share. There are three readers of a subnet's text. `parse?` is the one that addresses
are allocated by, `isCidr` is the strict form that edits are held to, and `ofAnyForm?` also takes a
bare address, a netmask or a hostmask.
-/

namespace WireMesh

@[ext]
structure Subnet where
  /--
  An address of the subnet, not necessarily its lowest one.
  -/
  base : Address
  length : Nat
  length_le : length ≤ 32
deriving DecidableEq, Repr

def netmask (length : Nat) : Nat :=
  1 <<< 32 - 1 <<< (32 - length)

inductive NetmaskError where
  | tooLong
deriving DecidableEq, Repr

namespace NetmaskError

def message : NetmaskError → String
  | .tooLong => "negative shift count"

end NetmaskError

/--
The netmask for any integer: no ones below zero, none at all above 32.
-/
def netmask? (length : Int) : Except NetmaskError Nat :=
  if length ≤ 0 then .ok 0
  else if length ≤ 32 then .ok (netmask length.toNat)
  else .error .tooLong

namespace Subnet

def size (s : Subnet) : Nat :=
  1 <<< (32 - s.length)

def first (s : Subnet) : Nat :=
  s.base.value / s.size * s.size

def last (s : Subnet) : Nat :=
  s.first + (s.size - 1)

def contains (s : Subnet) (a : Address) : Bool :=
  a.value / s.size == s.base.value / s.size

/--
Read `address/length`. The length is any numeral of value at most 32; its digits are counted before
they are read.
-/
def parse? (s : String) : Except Decimal.TooManyDigits (Option Subnet) :=
  match Text.splitFirst '/' s.toList with
  | none => .ok none
  | some (base, length) =>
    match Address.ofChars? base with
    | none => .ok none
    | some base =>
      if Decimal.isNumeral length then
        match Decimal.read length with
        | .error e => .error e
        | .ok n => .ok (if h : n ≤ 32 then some ⟨base, n, h⟩ else none)
      else
        .ok none

def isCidr (cs : List Char) : Bool :=
  match Text.splitFirst '/' cs with
  | none => false
  | some (base, length) =>
    (Address.ofChars? base).isSome && Decimal.isNumeral length && decide (length.length ≤ 2)
      && decide (Decimal.value length ≤ 32)

def lengthOfMask? (mask : Nat) : Option Nat :=
  (List.range 33).find? fun n => netmask n == mask

/--
Read what follows the slash: a length, a netmask, or a netmask with every bit inverted.
-/
def readLength? (cs : List Char) : Option Nat :=
  if Decimal.isNumeral cs && decide (cs.length ≤ Decimal.digitLimit)
      && decide (Decimal.value cs ≤ 32) then
    some (Decimal.value cs)
  else
    match Address.ofChars? cs with
    | none => none
    | some mask =>
      match lengthOfMask? mask.value with
      | some n => some n
      | none => lengthOfMask? (1 <<< 32 - 1 - mask.value)

def ofLength? (base : Address) (length : Nat) : Option Subnet :=
  if h : length ≤ 32 then some ⟨base, length, h⟩ else none

def ofAnyForm? (s : String) : Option Subnet :=
  match Text.splitFirst '/' s.toList with
  | none => (Address.ofChars? s.toList).bind fun base => ofLength? base 32
  | some (base, length) => do ofLength? (← Address.ofChars? base) (← readLength? length)

def isAssignable (a : Address) : Bool :=
  a.octet 0 != 0 && a.octet 0 != 255

def isFree (taken : List String) (a : Address) : Bool :=
  isAssignable a && !taken.contains a.text

def addresses (s : Subnet) : List Address :=
  (List.range s.size).map fun i => Address.ofInt ((s.first + i : Nat) : Int)

def scan (start count : Nat) (taken : List String) : Option Address :=
  match count with
  | 0 => none
  | count + 1 =>
    let a := Address.ofInt start
    if isFree taken a then some a else scan (start + 1) count taken

/--
The lowest free address of the subnet. The addresses are tried one by one, since the list of all of
them may be too long to be held.
-/
def nextFree (s : Subnet) (taken : List String) : Option Address :=
  scan s.first s.size taken

theorem scan_eq_find? (start count : Nat) (taken : List String)
    : scan start count taken =
      ((List.range count).map fun i => Address.ofInt ((start + i : Nat) : Int)).find? (isFree taken)
    := by
  induction count generalizing start with
  | zero => rfl
  | succ count ih =>
    rw [scan, ih, List.range_succ_eq_map, List.map_cons, List.find?_cons]
    cases isFree taken (Address.ofInt start) <;>
      simp [Function.comp_def, Nat.add_comm, Nat.add_left_comm]

theorem nextFree_eq_find? (s : Subnet) (taken : List String)
    : s.nextFree taken = s.addresses.find? (isFree taken) :=
  scan_eq_find? s.first s.size taken

end Subnet

end WireMesh
