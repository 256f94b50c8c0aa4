import WireMesh.ChangeSet

/-!
This module contains the commit of a change set to a peer or a connection of a network. The pending
values are merged into the members of the target, hooks one by one, and the target is read anew from
the result. A commit that fails leaves the network as it was.
-/

namespace WireMesh

inductive Target where
  | peer (peerId : String)
  | connection (id : ConnectionId)
deriving DecidableEq

def Target.text : Target → String
  | .peer peerId => "peer " ++ peerId
  | .connection id => "connection " ++ id.wire

inductive CommitError where
  | unknownTarget (target : Target)
  | outstanding (target : Target) (fields : List String)
  | immutable (field : String)
  | unknownField (field : String) (model : Model)
  | invalid (model : Model) (faults : List Fault)
  | hooksReplaced (field : String)
  | noHooks
deriving DecidableEq

def hooksField : String := "scripts"

def CommitError.message : CommitError → String
  | .unknownTarget target => target.text ++ " not found"
  | .outstanding target fields =>
    "change-set for " ++ target.text ++ " has invalid fields: " ++ ", ".intercalate fields
  | .immutable field => "field " ++ field ++ " cannot be changed"
  | .unknownField field model => "unknown field " ++ field ++ " for " ++ model.name
  | .invalid model _ => "invalid value for " ++ model.name
  | .hooksReplaced field => "no hook " ++ field ++ " in what replaced the hooks"
  | .noHooks => hooksField

namespace Commit

def immutableFields : List String := ["id", "peerId", "peer_id"]

def setMember (model : Model) (members : List (String × Value)) (field : String) (v : Value)
    : Except CommitError (List (String × Value)) :=
  if field ∈ Entries.keys members then
    .ok (Entries.put members field v)
  else
    .error (.unknownField field model)

def setHook (members : List (String × Value)) (hooks : Value) (field : String) (v : Value)
    : Except CommitError (List (String × Value)) :=
  match hooks with
  | .object hooks => .ok (Entries.put members hooksField (.object (Entries.put hooks field v)))
  | _ => .error (.hooksReplaced field)

/--
Set the hooks that `more` has. A null leaves its hook as it is.
-/
def mergeHooks (members more : List (String × Value))
    : Except CommitError (List (String × Value)) :=
  match Entries.get? members hooksField with
  | none => .error .noHooks
  | some (.object hooks) =>
    .ok (Entries.put members hooksField
      (.object (Entries.putAll hooks (more.filter fun entry => !entry.2.isNull))))
  | some _ => .error (.hooksReplaced hooksField)

def mergeField (model : Model) (members : List (String × Value)) (field : String) (v : Value)
    : Except CommitError (List (String × Value)) :=
  if field ∈ immutableFields then
    .error (.immutable field)
  else
    match Hook.ofKey? field, Entries.get? members hooksField with
    | some _, some hooks => setHook members hooks field v
    | _, _ =>
      if field = hooksField then
        match v.members? with
        | some more => mergeHooks members more
        | none => setMember model members field v
      else
        setMember model members field v

def merge (model : Model) (members : List (String × Value)) (changes : List (String × Value))
    : Except CommitError (List (String × Value)) :=
  match changes with
  | [] => .ok members
  | (field, v) :: rest =>
    match mergeField model members field v with
    | .error e => .error e
    | .ok members => merge model members rest

def patch {α : Type} (model : Model) (read : Value → Checked α) (members : List (String × Value))
    (changes : List (String × Value)) : Except CommitError α :=
  match merge model members changes with
  | .error e => .error e
  | .ok members =>
    match read (.object members) with
    | .ok a => .ok a
    | .faulty faults => .error (.invalid model faults)

end Commit

namespace Peer

def patch (p : Peer) (changes : List (String × Value)) : Except CommitError Peer :=
  Commit.patch .peer ofValue p.members changes

end Peer

namespace Connection

def patch (c : Connection) (changes : List (String × Value)) : Except CommitError Connection :=
  Commit.patch .connection ofValue c.members changes

end Connection

namespace Network

def commitPeer (n : Network) (peerId : String) (cs : ChangeSet) : Except CommitError Network :=
  match n.peers.get? peerId with
  | none => .error (.unknownTarget (.peer peerId))
  | some p =>
    if cs.hasErrors then
      .error (.outstanding (.peer peerId) cs.failing)
    else if cs.pending.isEmpty then
      .ok n
    else
      match p.patch cs.pending.entries with
      | .error e => .error e
      | .ok patched => .ok { n with peers := n.peers.insert peerId patched }

def commitConnection (n : Network) (id : ConnectionId) (cs : ChangeSet)
    : Except CommitError Network :=
  match n.connections.get? id with
  | none => .error (.unknownTarget (.connection id))
  | some c =>
    if cs.hasErrors then
      .error (.outstanding (.connection id) cs.failing)
    else if cs.pending.isEmpty then
      .ok n
    else
      match c.patch cs.pending.entries with
      | .error e => .error e
      | .ok patched => .ok { n with connections := n.connections.insert id patched }

end Network

end WireMesh
