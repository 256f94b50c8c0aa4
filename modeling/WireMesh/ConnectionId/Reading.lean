import WireMesh.Reading
import WireMesh.Value.Display

/-!
This module contains the reader of connection ids. An id is a wire form or an object with both peer
ids; in the object anything may stand for a peer id, by the text that displays it if it has one.
-/

namespace WireMesh.ConnectionId

def checked (outcome : Except Error ConnectionId) : Checked ConnectionId :=
  match outcome with
  | .ok id => .ok id
  | .error error => .fault (.badConnectionId error)

/--
Read a connection id from its members. If one of them is absent, the other still has to be a text.
-/
def ofMembers (members : List (String × Value)) : Checked ConnectionId :=
  match Entries.get? members "a", Entries.get? members "b" with
  | some a, some b =>
    match a.display, b.display with
    | .ok a, .ok b => checked (ofPeers a b)
    | .error e, _ => .fault (.tooLong e)
    | _, .error e => .fault (.tooLong e)
  | _, _ =>
    match (fun a b => ofPeers a b)
        <$> Members.required members "a" Value.readText
        <*> Members.required members "b" Value.readText with
    | .ok outcome => checked outcome
    | .faulty faults => .faulty faults

def ofValue (v : Value) : Checked ConnectionId :=
  match v.text? with
  | some wire => checked (ofWire wire)
  | none => v.readModel .connectionId ofMembers

def members (id : ConnectionId) : List (String × Value) :=
  [("a", .text id.greater), ("b", .text id.lesser)]

def toValue (id : ConnectionId) : Value :=
  .object id.members

end WireMesh.ConnectionId
