import WireMesh.Field
import WireMesh.Field.Complaint
import WireMesh.Network

/-!
This module contains the rules for fields that are texts. Only the rule for addresses looks at the
network: an address has to lie in its subnet, must not be the lowest or highest one of it unless the
subnet has at most two addresses, and must not belong to another peer.
-/

namespace WireMesh

structure Context where
  network : Network
  peerId : Option String := none

inductive TextRule where
  | peerId
  | nonempty (field : String)
  | subnet
  | address
  | mobility
  | allowedIps
deriving DecidableEq, Repr

namespace TextRule

def isHexDigit (c : Char) : Bool :=
  c.isDigit || ('a' ≤ c && c ≤ 'f') || ('A' ≤ c && c ≤ 'F')

def uuidGroups : List Nat := [8, 4, 4, 4, 12]

def isUuid (cs : List Char) : Bool :=
  let groups := cs.splitOn '-'
  groups.map List.length == uuidGroups && groups.all fun group => group.all isHexDigit

def isCidrList (cs : List Char) : Bool :=
  (cs.splitOn ',').all fun part => Subnet.isCidr (Text.trim ' ' part)

def holder? (context : Context) (address : String) : Option String :=
  (context.network.peers.entries.find? fun entry =>
    some entry.1 != context.peerId && entry.2.address == address).map fun entry => entry.2.name

def checkUse (context : Context) (s : String) (a : Address) : Option Complaint :=
  let written := context.network.subnet
  match Subnet.ofAnyForm? written with
  | none => some (.unreadableSubnet written)
  | some range =>
    if !range.contains a then
      some (.outsideSubnet written)
    else if range.length < 31 ∧ a.value = range.first then
      some (.networkAddress written)
    else if range.length < 31 ∧ a.value = range.last then
      some (.broadcastAddress written)
    else
      (holder? context s).map .taken

def check (rule : TextRule) (context : Option Context) (s : String) : Option Complaint :=
  match rule with
  | .peerId => if isUuid s.toList then none else some .notPeerId
  | .nonempty field => if s = "" then some (.empty field) else none
  | .subnet => if Subnet.isCidr s.toList then none else some .notSubnet
  | .address =>
    match Address.parse? s, context with
    | none, _ => some .notAddress
    | some _, none => none
    | some a, some context => checkUse context s a
  | .mobility => if (Mobility.ofName? s).isSome then none else some .notMobility
  | .allowedIps => if isCidrList s.toList then none else some .notAllowedIps

def apply (rule : TextRule) (context : Option Context) (f : Field) : Ruling :=
  match f with
  | .text s =>
    match rule.check context s with
    | some complaint => .rejected complaint f.toPlain
    | none => .accepted f.toPlain
  | _ => .rejected .badShape .null

end TextRule

end WireMesh
