import WireMesh.Field
import WireMesh.Field.Complaint
import WireMesh.Address
import WireMesh.Text.Split

/-!
This module contains the rules for fields that are switches with a value. A rule accepts anything
while the switch is off. A numeral is reported as the number it stands for.
-/

namespace WireMesh

/--
A rule for a switch with a value. The value is free while the switch is off.
-/
inductive ToggleRule where
  | dns
  | mtu
  | keepalive
  | script
deriving DecidableEq, Repr

namespace ToggleRule

def complaint : ToggleRule → Complaint
  | .dns => .notDns
  | .mtu => .notMtu
  | .keepalive => .notKeepalive
  | .script => .notScript

def isAddressList (cs : List Char) : Bool :=
  (cs.splitOn ',').all fun part => (Address.ofChars? (Text.trim ' ' part)).isSome

def isScript (cs : List Char) : Bool :=
  !cs.any Value.isLineBreak
    && (cs.reverse.dropWhile fun c => c == ' ' || c == '\t').head? == some ';'

def readSigned (cs : List Char) : Except Decimal.TooManyDigits (Option Int) :=
  let (negative, digits) :=
    match cs with
    | '-' :: rest => (true, rest)
    | '+' :: rest => (false, rest)
    | _ => (false, cs)
  if Decimal.isNumeral digits then
    match Decimal.read digits with
    | .error e => .error e
    | .ok n => .ok (some (if negative then -(n : Int) else n))
  else
    .ok none

/--
The integer that a value is or writes out, spaces around it aside. A truth value is none.
-/
def readInt (v : Value) : Except Decimal.TooManyDigits (Option Int) :=
  match v with
  | .int n => .ok (some n)
  | v =>
    match v.text? with
    | some s => readSigned (Text.trim ' ' s.toList)
    | none => .ok none

def inRange (n : Option Int) : Option Value :=
  match n with
  | some n => if 0 < n ∧ n < 65536 then some (.int n) else none
  | none => none

def accept? (rule : ToggleRule) (v : Value) : Except Decimal.TooManyDigits (Option Value) :=
  match rule with
  | .dns => .ok (if v.text?.any fun s => isAddressList s.toList then some v else none)
  | .script => .ok (if v.text?.any fun s => isScript s.toList then some v else none)
  | .mtu | .keepalive => inRange <$> readInt v

def apply (rule : ToggleRule) (f : Field) : Except Decimal.TooManyDigits Ruling :=
  match f with
  | .toggle flag value =>
    if flag.isTruthy then
      match rule.accept? value with
      | .error e => .error e
      | .ok (some reported) => .ok (.accepted (.pair flag reported))
      | .ok none => .ok (.rejected rule.complaint f.toPlain)
    else
      .ok (.accepted f.toPlain)
  | _ => .ok (.rejected .badShape .null)

end ToggleRule

end WireMesh
