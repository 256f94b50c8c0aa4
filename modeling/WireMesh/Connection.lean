import WireMesh.Reading

/-!
This module contains the connections of a mesh: how a connection is read from a value, and the value
that it is written as. Members that are not named here are ignored.
-/

namespace WireMesh

namespace Connection

def ofMembers (members : List (String × Value)) : Checked Connection :=
  Connection.mk
    <$> Members.optional members "enabled" Value.readBool true
    <*> Members.optional members "pre_shared_key" Value.readText ""
    <*> Members.optional members "allowed_ips_a_to_b" Value.readText ""
    <*> Members.optional members "allowed_ips_b_to_a" Value.readText ""
    <*> Members.optional members "persistent_keepalive" Override.ofValue .off

def ofValue (v : Value) : Checked Connection :=
  match v with
  | .connection c => .ok c
  | v => v.readModel .connection ofMembers

def members (c : Connection) : List (String × Value) :=
  [("enabled", .bool c.enabled), ("pre_shared_key", .text c.preSharedKey),
   ("allowed_ips_a_to_b", .text c.allowedGreaterToLesser),
   ("allowed_ips_b_to_a", .text c.allowedLesserToGreater),
   ("persistent_keepalive", c.persistentKeepalive.toValue)]

def toValue (c : Connection) : Value :=
  .object c.members

end Connection

end WireMesh
