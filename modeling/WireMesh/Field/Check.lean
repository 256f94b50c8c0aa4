import WireMesh.Field.Rule

/-!
This module contains the check of a field, which tags the value, has it stand on a single line and
then applies the rule of the field, and the checks of whole peers and connections.
-/

namespace WireMesh

def validate (field : String) (v : Value) (context : Option Context)
    : Except Decimal.TooManyDigits Ruling :=
  match Rule.ofField? field with
  | none => .ok (.rejected .unknownField .null)
  | some rule =>
    match Field.ofValue? v with
    | none => .ok (.rejected .badShape .null)
    | some f =>
      if f.hasLineBreak then
        .ok (.rejected (.lineBreak field) f.toPlain)
      else
        rule.apply context f

def complaints (fields : List (String × Value)) (context : Option Context)
    : Except Decimal.TooManyDigits (List (String × Complaint)) :=
  match fields with
  | [] => .ok []
  | (field, v) :: rest =>
    match validate field v context with
    | .error e => .error e
    | .ok ruling =>
      match complaints rest context with
      | .error e => .error e
      | .ok more =>
        match ruling.complaint? with
        | some complaint => .ok ((field, complaint) :: more)
        | none => .ok more

/--
The fields of a peer that are checked. The endpoint of a peer that cannot be dialled is not.
-/
def Peer.checkedFields (p : Peer) : List (String × Value) :=
  [("peerId", .text p.id), ("name", .text p.name), ("address", .text p.address),
   ("mobility", .text p.mobility.name), ("private_key", .text p.privateKey),
   ("public_key", .text p.publicKey), ("dns", .override p.dns), ("mtu", .override p.mtu),
   ("persistent_keepalive", .override p.persistentKeepalive), ("scripts", .hooks p.hooks)]
    ++ if p.isStatic then [("endpoint", .text p.endpoint)] else []

def Peer.complaints (p : Peer) (network : Option Network)
    : Except Decimal.TooManyDigits (List (String × Complaint)) :=
  WireMesh.complaints p.checkedFields (network.map fun n => ⟨n, some p.id⟩)

def Connection.checkedFields (c : Connection) : List (String × Value) :=
  [("pre_shared_key", .text c.preSharedKey), ("allowed_ips_a_to_b", .text c.allowedGreaterToLesser),
   ("allowed_ips_b_to_a", .text c.allowedLesserToGreater),
   ("persistent_keepalive", .override c.persistentKeepalive)]

def Connection.complaints (c : Connection)
    : Except Decimal.TooManyDigits (List (String × Complaint)) :=
  WireMesh.complaints c.checkedFields none

end WireMesh
