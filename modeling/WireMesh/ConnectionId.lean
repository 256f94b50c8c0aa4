import WireMesh.Text.Quoted

/-!
This module contains the ids of connections. A connection joins two peers, in no particular order,
so its id holds the two peer ids sorted: the greater one first, by code points. The wire form writes
them in that order with a separator between them, and therefore no peer id may contain the
separator.
-/

namespace WireMesh

structure ConnectionId where
  greater : String
  lesser : String
  lesser_le : lesser ≤ greater
  greater_free : '*' ∉ greater.toList
  lesser_free : '*' ∉ lesser.toList
deriving DecidableEq

namespace ConnectionId

def separator : Char := '*'

inductive Error where
  | notOneSeparator
  | separatorInPeer (peerId : String)
deriving DecidableEq, Repr

def Error.message : Error → String
  | .notOneSeparator => "connection id must contain exactly one '*'"
  | .separatorInPeer peerId => "peer id '" ++ peerId ++ "' contains separator '*'"

def ofPeers (a b : String) : Except Error ConnectionId :=
  if ha : '*' ∈ a.toList then
    .error (.separatorInPeer a)
  else if hb : '*' ∈ b.toList then
    .error (.separatorInPeer b)
  else if h : a < b then
    .ok ⟨b, a, String.not_lt.1 (String.lt_asymm h), hb, ha⟩
  else
    .ok ⟨a, b, String.not_lt.1 h, ha, hb⟩

def splitWire? (wire : String) : Option (String × String) :=
  match wire.toList.splitOn separator with
  | [a, b] => some (String.ofList a, String.ofList b)
  | _ => none

def ofWire (wire : String) : Except Error ConnectionId :=
  match splitWire? wire with
  | some (a, b) => ofPeers a b
  | none => .error .notOneSeparator

def join (a b : String) : String :=
  a ++ "*" ++ b

/--
The wire form of the connection between two peers. Nothing is checked.
-/
def canonicalWire (a b : String) : String :=
  if b < a then join a b else join b a

def wire (id : ConnectionId) : String :=
  join id.greater id.lesser

def peers (id : ConnectionId) : String × String :=
  (id.greater, id.lesser)

def contains (id : ConnectionId) (peerId : String) : Bool :=
  peerId == id.greater || peerId == id.lesser

def other? (id : ConnectionId) (peerId : String) : Option String :=
  if peerId = id.greater then some id.lesser
  else if peerId = id.lesser then some id.greater
  else none

structure MalformedWire where
  wire : String
deriving DecidableEq, Repr

def MalformedWire.message (e : MalformedWire) : String :=
  "Malformed connection id: " ++ Text.quoted e.wire

def peersOfWire (wire : String) : Except MalformedWire (String × String) :=
  match splitWire? wire with
  | some peers => .ok peers
  | none => .error ⟨wire⟩

theorem isSome_other?_iff {id : ConnectionId} {peerId : String}
    : (id.other? peerId).isSome = id.contains peerId := by
  unfold other? contains
  grind

end ConnectionId

end WireMesh
