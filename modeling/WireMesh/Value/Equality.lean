import WireMesh.Value

/-!
This module contains equality of values. Numbers are compared by what they mean, so that `1`, `1.0`
and true are equal; lists are compared in order and objects without regard to it.
-/

namespace WireMesh.Value

mutual

def same : Value → Value → Bool
  | .null, w => w.isNull
  | .bool b, w => some (if b then 1 else 0) == w.number?
  | .int n, w => some (n : Rat) == w.number?
  | .real x, w => some x.toRat == w.number?
  | .text s, w => some s == w.text?
  | .mobility m, w => some m.name == w.text?
  | .list items, .list others => sameItems items others
  | .object members, .object others =>
    members.length == others.length && sameMembers members others
  | .object members, .links others => members.isEmpty && others.isEmpty
  | .links members, .object others => members.isEmpty && others.isEmpty
  | .links members, .links others => members.length == others.length && sameLinks members others
  | .override o, .override p => o == p
  | .hooks g, .hooks h => g == h
  | .peer p, .peer q => p == q
  | .connection c, .connection d => c == d
  | .textField s, .textField t => s == t
  | .toggleField flag value, .toggleField flag' value' => same flag flag' && same value value'
  | .groupField members, .groupField others =>
    members.length == others.length && sameMembers members others
  | _, _ => false
termination_by structural v => v

def sameItems : List Value → List Value → Bool
  | [], [] => true
  | v :: rest, w :: rest' => same v w && sameItems rest rest'
  | _, _ => false
termination_by structural items => items

def sameMembers : List (String × Value) → List (String × Value) → Bool
  | [], _ => true
  | (key, v) :: rest, others =>
    (match Entries.get? others key with
    | some w => same v w
    | none => false) && sameMembers rest others
termination_by structural members => members

def sameLinks : List (ConnectionId × Value) → List (ConnectionId × Value) → Bool
  | [], _ => true
  | (id, v) :: rest, others =>
    (match Entries.get? others id with
    | some w => same v w
    | none => false) && sameLinks rest others
termination_by structural members => members

end

end WireMesh.Value
