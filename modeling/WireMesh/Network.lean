import WireMesh.Connection
import WireMesh.ConnectionId.Reading
import WireMesh.Peer
import WireMesh.Subnet

/-!
This module contains networks: snapshots of a mesh, with its peers under their keys and its
connections under their ids. Reading keeps the order of both. The ids of the connections are made
first, and the first key that names none, or one that was there before, is the only fault reported.
-/

namespace WireMesh

inductive LinkKey where
  | wire (text : String)
  | made (id : ConnectionId)
deriving DecidableEq

def LinkKey.make (key : LinkKey) : Except ConnectionId.Error ConnectionId :=
  match key with
  | .wire text => ConnectionId.ofWire text
  | .made id => .ok id

structure Network where
  identifier : String
  subnet : String
  peers : OrderedMap String Peer
  connections : OrderedMap ConnectionId Connection
deriving DecidableEq

namespace Network

def addLink (made : List (ConnectionId × Value)) (id : ConnectionId) (v : Value)
    : Except Cause (List (ConnectionId × Value)) :=
  if id ∈ Entries.keys made then .error (.duplicateConnection id) else .ok (made ++ [(id, v)])

def makeLinks (made : List (ConnectionId × Value)) (entries : List (LinkKey × Value))
    : Except Cause (List (ConnectionId × Value)) :=
  match entries with
  | [] => .ok made
  | (key, v) :: rest =>
    match key.make with
    | .error error => .error (.badConnectionId error)
    | .ok id =>
      match addLink made id v with
      | .error cause => .error cause
      | .ok made => makeLinks made rest

def linkEntries? (v : Value) : Option (List (LinkKey × Value)) :=
  match v with
  | .object members => some (members.map fun entry => (.wire entry.1, entry.2))
  | .links members => some (members.map fun entry => (.made entry.1, entry.2))
  | _ => none

def connectionsOf (links : List (ConnectionId × Value))
    : Checked (OrderedMap ConnectionId Connection) :=
  OrderedMap.ofList <$> Members.readEach ConnectionId.wire Connection.ofValue links

def ofFields (members : List (String × Value))
    (connections : Checked (OrderedMap ConnectionId Connection)) : Checked Network :=
  Network.mk
    <$> Members.required members "identifier" Value.readText
    <*> Members.required members "subnet" Value.readText
    <*> Members.optional members "peers" (Members.readTable Peer.ofValue) ∅
    <*> connections

/--
Read a network whose connections are given as entries. Some of their keys may be wire forms and
others ids.
-/
def ofEntries (members : List (String × Value)) (entries : List (LinkKey × Value))
    : Checked Network :=
  match makeLinks [] entries with
  | .error cause => .fault cause
  | .ok links => ofFields members ((connectionsOf links).under "connections")

def ofMembers (members : List (String × Value)) : Checked Network :=
  match Entries.get? members "connections" with
  | none => ofFields members (.ok ∅)
  | some v =>
    match linkEntries? v with
    | some entries => ofEntries members entries
    | none => ofFields members ((Checked.fault .notObject).under "connections")

def ofValue (v : Value) : Checked Network :=
  v.readModel .network ofMembers

def membersWith (n : Network) (write : Peer → Value) : List (String × Value) :=
  [("identifier", .text n.identifier), ("subnet", .text n.subnet),
   ("peers", .object (n.peers.entries.map fun entry => (entry.1, write entry.2))),
   ("connections", .object (n.connections.entries.map fun entry =>
     (entry.1.wire, entry.2.toValue)))]

def members (n : Network) : List (String × Value) :=
  n.membersWith Peer.toValue

def toValue (n : Network) : Value :=
  .object n.members

def dump (n : Network) : Value :=
  .object (n.membersWith Peer.dump)

def addresses (n : Network) : List String :=
  n.peers.values.map Peer.address

def takenAddresses (n : Network) : List String :=
  n.addresses.eraseDups.mergeSort fun a b => decide (a ≤ b)

def nextAddress (n : Network) (reserved : List String)
    : Except Decimal.TooManyDigits (Option Address) :=
  match Subnet.parse? n.subnet with
  | .error e => .error e
  | .ok none => .ok none
  | .ok (some subnet) => .ok (subnet.nextFree (n.addresses ++ reserved))

/--
The answers to `count` requests for an address, each answer reserved before the next request. A
request that cannot be met is answered with none and reserves nothing.
-/
def requests (n : Network) (count : Nat) (reserved : List String)
    : Except Decimal.TooManyDigits (List (Option Address)) :=
  match count with
  | 0 => .ok []
  | count + 1 =>
    match n.nextAddress reserved with
    | .error e => .error e
    | .ok answer =>
      match n.requests count (reserved ++ (answer.map Address.text).toList) with
      | .error e => .error e
      | .ok rest => .ok (answer :: rest)

def untilUnmet : List (Option Address) → List (Option Address)
  | [] => []
  | none :: _ => [none]
  | some a :: rest => some a :: untilUnmet rest

def nextAddresses (n : Network) (count : Nat) (reserved : List String)
    : Except Decimal.TooManyDigits (List (Option Address)) :=
  (n.requests count reserved).map untilUnmet

def connectionsOfPeer (n : Network) (peerId : String) : List (ConnectionId × Connection) :=
  n.connections.entries.filter fun entry => entry.1.contains peerId

end Network

end WireMesh
