import WireMesh.Binary.Shortest
import WireMesh.Value

/-!
This module contains the text that stands for a value where a text is wanted and anything is taken.
A text stands for itself; inside a list or an object it is quoted. A value with a number that is too
long has no such text.
-/

namespace WireMesh

def Value.displayBool (b : Bool) : String :=
  if b then "True" else "False"

def OverrideValue.display : OverrideValue → Except Decimal.TooLong String
  | .number n => Decimal.write n
  | .text s => .ok (Text.quoted s)

def Override.displayParts (o : Override) : Except Decimal.TooLong (List String) := do
  return ["enabled=" ++ Value.displayBool o.enabled, "value=" ++ (← o.value.display)]

def Override.displayNested (o : Override) : Except Decimal.TooLong String := do
  return "EnabledValue(" ++ ", ".intercalate (← o.displayParts) ++ ")"

def Hooks.displayParts (h : Hooks) : Except Decimal.TooLong (List String) :=
  Hook.all.mapM fun hook => do return hook.key ++ "=" ++ (← (h.get hook).displayNested)

def Hooks.displayNested (h : Hooks) : Except Decimal.TooLong String := do
  return "Scripts(" ++ ", ".intercalate (← h.displayParts) ++ ")"

def Mobility.displayName : Mobility → String
  | .static => "Mobility.STATIC"
  | .roaming => "Mobility.ROAMING"

def Mobility.displayNested (m : Mobility) : String :=
  "<" ++ m.displayName ++ ": " ++ Text.quoted m.name ++ ">"

def Peer.displayParts (p : Peer) : Except Decimal.TooLong (List String) := do
  return ["id=" ++ Text.quoted p.id, "name=" ++ Text.quoted p.name,
    "address=" ++ Text.quoted p.address, "mobility=" ++ p.mobility.displayNested,
    "endpoint=" ++ Text.quoted p.endpoint, "private_key=" ++ Text.quoted p.privateKey,
    "public_key=" ++ Text.quoted p.publicKey, "dns=" ++ (← p.dns.displayNested),
    "mtu=" ++ (← p.mtu.displayNested),
    "persistent_keepalive=" ++ (← p.persistentKeepalive.displayNested),
    "scripts=" ++ (← p.hooks.displayNested)]

def Connection.displayParts (c : Connection) : Except Decimal.TooLong (List String) := do
  return ["enabled=" ++ Value.displayBool c.enabled,
    "pre_shared_key=" ++ Text.quoted c.preSharedKey,
    "allowed_ips_a_to_b=" ++ Text.quoted c.allowedGreaterToLesser,
    "allowed_ips_b_to_a=" ++ Text.quoted c.allowedLesserToGreater,
    "persistent_keepalive=" ++ (← c.persistentKeepalive.displayNested)]

def ConnectionId.displayNested (id : ConnectionId) : String :=
  "ConnectionId(a=" ++ Text.quoted id.greater ++ ", b=" ++ Text.quoted id.lesser ++ ")"

namespace Value

mutual

def displayNested : Value → Except Decimal.TooLong String
  | .null => .ok "None"
  | .bool b => .ok (displayBool b)
  | .int n => Decimal.write n
  | .real x => .ok x.text
  | .text s => .ok (Text.quoted s)
  | .list items => do return "[" ++ ", ".intercalate (← displayItems items) ++ "]"
  | .object members => do return "\x7b" ++ ", ".intercalate (← displayMembers members) ++ "\x7d"
  | .links members => do return "\x7b" ++ ", ".intercalate (← displayLinks members) ++ "\x7d"
  | .mobility m => .ok m.displayNested
  | .override o => o.displayNested
  | .hooks h => h.displayNested
  | .peer p => do return "Peer(" ++ ", ".intercalate (← p.displayParts) ++ ")"
  | .connection c => do return "Connection(" ++ ", ".intercalate (← c.displayParts) ++ ")"
  | .textField s => .ok ("StringField(value=" ++ Text.quoted s ++ ")")
  | .toggleField flag value => do
    return "ToggleField(enabled=" ++ (← displayNested flag) ++ ", value="
      ++ (← displayNested value) ++ ")"
  | .groupField members => do
    return "CompositeField(items=\x7b" ++ ", ".intercalate (← displayMembers members) ++ "\x7d)"
termination_by structural v => v

def displayItems : List Value → Except Decimal.TooLong (List String)
  | [] => .ok []
  | v :: rest => do return (← displayNested v) :: (← displayItems rest)
termination_by structural items => items

def displayMembers : List (String × Value) → Except Decimal.TooLong (List String)
  | [] => .ok []
  | (key, v) :: rest => do
    return (Text.quoted key ++ ": " ++ (← displayNested v)) :: (← displayMembers rest)
termination_by structural members => members

def displayLinks : List (ConnectionId × Value) → Except Decimal.TooLong (List String)
  | [] => .ok []
  | (id, v) :: rest => do
    return (id.displayNested ++ ": " ++ (← displayNested v)) :: (← displayLinks rest)
termination_by structural members => members

end

def display : Value → Except Decimal.TooLong String
  | .text s => .ok s
  | .mobility m => .ok m.displayName
  | .override o => " ".intercalate <$> o.displayParts
  | .hooks h => " ".intercalate <$> h.displayParts
  | .peer p => " ".intercalate <$> p.displayParts
  | .connection c => " ".intercalate <$> c.displayParts
  | v => v.displayNested

end Value

end WireMesh
