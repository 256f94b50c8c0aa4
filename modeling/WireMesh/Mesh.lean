import WireMesh.Override

/-!
This module contains the types of the peers and connections of a mesh.
-/

namespace WireMesh

structure Peer where
  id : String
  name : String
  address : String
  mobility : Mobility
  endpoint : String
  privateKey : String
  publicKey : String
  dns : Override
  mtu : Override
  persistentKeepalive : Override
  hooks : Hooks
  id_ne_empty : id ≠ ""
deriving DecidableEq

structure Connection where
  enabled : Bool
  preSharedKey : String
  allowedGreaterToLesser : String
  allowedLesserToGreater : String
  persistentKeepalive : Override
deriving DecidableEq

end WireMesh
