import WireMesh.Network.Link

/-!
This module contains the names of configuration files. The name of a peer is reduced to a stem of
safe characters: all others become hyphens, hyphens in a row become one, a hyphen at the end is
dropped, and the result is cut.
-/

namespace WireMesh.FileName

def isSafe (c : Char) : Bool :=
  c.isAlphanum || c == '_' || c == '=' || c == '+' || c == '.' || c == '-'

def collapse (cs : List Char) : List Char :=
  match cs with
  | [] => []
  | c :: rest =>
    let tail := collapse rest
    if c = '-' && tail.head? == some '-' then tail else c :: tail

def dropLastHyphen (cs : List Char) : List Char :=
  if cs.getLast? = some '-' then cs.dropLast else cs

def sanitize (cs : List Char) : List Char :=
  dropLastHyphen (collapse (cs.map fun c => if isSafe c then c else '-'))

def maxLength : Nat := 32

def stem (name : String) : String :=
  String.ofList ((sanitize name.toList).take maxLength)

end WireMesh.FileName

namespace WireMesh.Network

def fileName (n : Network) (peerId : String) : Except PeerNotFound String :=
  match n.peer peerId with
  | .error e => .error e
  | .ok p => .ok (n.identifier ++ "-" ++ FileName.stem p.name ++ ".conf")

end WireMesh.Network
