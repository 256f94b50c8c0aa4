import WireMesh.Network

/-!
This module contains the links of a peer: its enabled connections, each with the peer at the other
end. A link to a peer that the network does not have is an error, and the first such link decides.
-/

namespace WireMesh

structure Link where
  id : ConnectionId
  connection : Connection
  other : Peer
deriving DecidableEq

structure PeerNotFound where
  peerId : String
  network : String
deriving DecidableEq, Repr

def PeerNotFound.message (e : PeerNotFound) : String :=
  "Peer " ++ e.peerId ++ " not found in network " ++ e.network

namespace Network

def peer (n : Network) (peerId : String) : Except PeerNotFound Peer :=
  match n.peers.get? peerId with
  | some p => .ok p
  | none => .error ⟨peerId, n.identifier⟩

def linkTargets (n : Network) (peerId : String) : List (ConnectionId × Connection × String) :=
  n.connections.entries.filterMap fun entry =>
    if entry.2.enabled then
      (entry.1.other? peerId).map fun other => (entry.1, entry.2, other)
    else
      none

def resolveLinks (n : Network) (targets : List (ConnectionId × Connection × String))
    : Except PeerNotFound (List Link) :=
  match targets with
  | [] => .ok []
  | (id, connection, other) :: rest =>
    match n.peer other with
    | .error e => .error e
    | .ok other =>
      match resolveLinks n rest with
      | .error e => .error e
      | .ok more => .ok (⟨id, connection, other⟩ :: more)

/--
Order links by the ids of the other peers; links to peers of one id keep their order.
-/
def sortLinks (links : List Link) : List Link :=
  links.mergeSort fun l m => decide (l.other.id ≤ m.other.id)

def links (n : Network) (peerId : String) (sorted : Bool) : Except PeerNotFound (List Link) :=
  match resolveLinks n (n.linkTargets peerId) with
  | .error e => .error e
  | .ok links => .ok (if sorted then sortLinks links else links)

end Network

end WireMesh
