import WireMesh.Commit
import WireMesh.Config.FileName

/-!
This module contains editing sessions: a network and the change sets that are being made for it,
each in a slot of its own. A step that fails leaves the session as it was.
-/

namespace WireMesh

def Peer.field? (p : Peer) (field : String) : Option Value :=
  match Hook.ofKey? field with
  | some hook => some (.override (p.hooks.get hook))
  | none =>
    Entries.get?
      [("id", .text p.id), ("peerId", .text p.id), ("peer_id", .text p.id), ("name", .text p.name),
       ("address", .text p.address), ("mobility", .mobility p.mobility),
       ("endpoint", .text p.endpoint), ("private_key", .text p.privateKey),
       ("public_key", .text p.publicKey), ("dns", .override p.dns), ("mtu", .override p.mtu),
       ("persistent_keepalive", .override p.persistentKeepalive), (hooksField, .hooks p.hooks)]
      field

def Connection.field? (c : Connection) (field : String) : Option Value :=
  Entries.get?
    [("enabled", .bool c.enabled), ("pre_shared_key", .text c.preSharedKey),
     ("allowed_ips_a_to_b", .text c.allowedGreaterToLesser),
     ("allowed_ips_b_to_a", .text c.allowedLesserToGreater),
     ("persistent_keepalive", .override c.persistentKeepalive)]
    field

def Network.field? (n : Network) (target : Target) (field : String) : Option Value :=
  match target with
  | .peer peerId => (n.peers.get? peerId).bind fun p => p.field? field
  | .connection id => (n.connections.get? id).bind fun c => c.field? field

def Network.contextOf (n : Network) (target : Target) : Context :=
  match target with
  | .peer peerId => ⟨n, some peerId⟩
  | .connection _ => ⟨n, none⟩

inductive SessionError where
  | noTarget
  | tooManyDigits (cause : Decimal.TooManyDigits)
  | rejected (cause : Rejection)
  | commit (cause : CommitError)

structure Session where
  network : Network
  slots : OrderedMap String ChangeSet

namespace Session

def start (n : Network) : Session := ⟨n, ∅⟩

def slot (s : Session) (name : String) : ChangeSet :=
  (s.slots.get? name).getD ∅

def setSlot (s : Session) (name : String) (cs : ChangeSet) : Session :=
  { s with slots := s.slots.insert name cs }

def reset (s : Session) (name : String) : Session :=
  s.setSlot name ∅

/--
Edit a field in a slot. The value is compared with `baseline`, or with the committed value of the
target if no baseline is given.
-/
def edit (s : Session) (slot : String) (target : Target) (field ruleField : String) (v : Value)
    (baseline : Option Value) (inContext : Bool) : Except SessionError (EditState × Session) :=
  match baseline.or (s.network.field? target field) with
  | none => .error .noTarget
  | some committed =>
    let context := if inContext then some (s.network.contextOf target) else none
    match (s.slot slot).track field ruleField v committed context with
    | .error e => .error (.tooManyDigits e)
    | .ok (state, cs) => .ok (state, s.setSlot slot cs)

def commit (s : Session) (slot : String) (target : Target) : Except SessionError Session :=
  let outcome :=
    match target with
    | .peer peerId => s.network.commitPeer peerId (s.slot slot)
    | .connection id => s.network.commitConnection id (s.slot slot)
  match outcome with
  | .error e => .error (.commit e)
  | .ok n => .ok ({ s with network := n }.reset slot)

def givenAddress (s : Session) : Except SessionError Value :=
  match s.network.nextAddress [] with
  | .error e => .error (.tooManyDigits e)
  | .ok none => .ok .null
  | .ok (some a) => .ok (.text a.text)

def addressed (s : Session) (v : Value) : Except SessionError Value :=
  match v with
  | .object members =>
    match Entries.get? members "address" with
    | some _ => .ok v
    | none =>
      match s.givenAddress with
      | .error e => .error e
      | .ok address => .ok (.object (Entries.put members "address" address))
  | v => .ok v

def addPeer (s : Session) (v : Value) : Except SessionError (Peer × Session) :=
  match s.addressed v with
  | .error e => .error e
  | .ok v =>
    match Peer.ofValue v with
    | .faulty faults => .error (.rejected ⟨.peer, faults⟩)
    | .ok p => .ok (p, { s with network.peers := s.network.peers.insert p.id p })

/--
Remove a peer. Its connections stay.
-/
def removePeer (s : Session) (peerId : String) : Session :=
  { s with network.peers := s.network.peers.erase peerId }

def addConnection (s : Session) (a b : String) (v : Value) : Except SessionError Session :=
  match ConnectionId.checked (ConnectionId.ofPeers a b) with
  | .faulty faults => .error (.rejected ⟨.connectionId, faults⟩)
  | .ok id =>
    match Connection.ofValue v with
    | .faulty faults => .error (.rejected ⟨.connection, faults⟩)
    | .ok c => .ok { s with network.connections := s.network.connections.insert id c }

def setSubnet (s : Session) (subnet : String) : Session :=
  { s with network.subnet := subnet }

end Session

def Network.reload (n : Network) : Checked Network :=
  Network.ofValue n.toValue

end WireMesh
