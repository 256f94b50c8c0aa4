import WireMesh.HostName
import WireMesh.Reading

/-!
This module contains the peers of a mesh: how a peer is read from a value, and the value that it is
written as. Members that are not named here are ignored.
-/

namespace WireMesh

namespace Peer

def ofMembers (members : List (String × Value)) : Checked Peer :=
  (fun id name address mobility endpoint privateKey publicKey dns mtu keepalive hooks =>
    ⟨id.val, name, address, mobility, endpoint, privateKey, publicKey, dns, mtu, keepalive, hooks,
      id.property⟩)
    <$> Members.required members "id" Value.readNonemptyText
    <*> Members.required members "name" Value.readText
    <*> Members.required members "address" Value.readText
    <*> Members.optional members "mobility" Value.readMobility .roaming
    <*> Members.optional members "endpoint" Value.readText ""
    <*> Members.optional members "private_key" Value.readText ""
    <*> Members.optional members "public_key" Value.readText ""
    <*> Members.optional members "dns" Override.ofValue .off
    <*> Members.optional members "mtu" Override.ofValue .off
    <*> Members.optional members "persistent_keepalive" Override.ofValue .off
    <*> Members.optional members "scripts" Hooks.ofValue .none

def ofValue (v : Value) : Checked Peer :=
  match v with
  | .peer p => .ok p
  | v => v.readModel .peer ofMembers

def members (p : Peer) : List (String × Value) :=
  [("id", .text p.id), ("name", .text p.name), ("address", .text p.address),
   ("mobility", .text p.mobility.name), ("endpoint", .text p.endpoint),
   ("private_key", .text p.privateKey), ("public_key", .text p.publicKey),
   ("dns", p.dns.toValue), ("mtu", p.mtu.toValue),
   ("persistent_keepalive", p.persistentKeepalive.toValue), ("scripts", p.hooks.toValue)]

def toValue (p : Peer) : Value :=
  .object p.members

/--
A peer as an object that still holds its mobility and not the name of it.
-/
def dump (p : Peer) : Value :=
  .object (Entries.put p.members "mobility" (.mobility p.mobility))

def isStatic (p : Peer) : Bool :=
  p.mobility == .static

def listenPort? (p : Peer) : Option String :=
  if p.isStatic then Endpoint.port? p.endpoint else none

end Peer

end WireMesh
