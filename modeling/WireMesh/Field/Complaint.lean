import WireMesh.Override
import WireMesh.Value

/-!
This module contains what can be said against the value of a field, and the two forms in which the
outcome of a check is handed on: a ruling, which knows the reason, and a verdict, which only carries
its wording.
-/

namespace WireMesh

inductive Complaint where
  | unknownField
  | badShape
  | lineBreak (field : String)
  | empty (field : String)
  | notPeerId
  | notMobility
  | notSubnet
  | notAllowedIps
  | notEndpoint
  | notDns
  | notMtu
  | notKeepalive
  | notScript
  | missingHook (hook : Hook)
  | notAddress
  | unreadableSubnet (subnet : String)
  | outsideSubnet (subnet : String)
  | networkAddress (subnet : String)
  | broadcastAddress (subnet : String)
  | taken (name : String)
deriving DecidableEq, Repr

def Complaint.message : Complaint → String
  | .unknownField => "field doesn't exist"
  | .badShape => "invalid field type"
  | .lineBreak field => field ++ " cannot contain line breaks"
  | .empty field => field ++ " cannot be empty"
  | .notPeerId => "peerId needs to follow uuid4 standards"
  | .notMobility => "mobility must be one of: " ++ ", ".intercalate (Mobility.all.map Mobility.name)
  | .notSubnet => "subnet is not in CIDR format"
  | .notAllowedIps => "AllowedIPs is not in CIDR format"
  | .notEndpoint => "endpoint is not IPv4 nor an FQDN"
  | .notDns => "DNS is invalid"
  | .notMtu => "MTU is invalid"
  | .notKeepalive => "Persistent Keepalive is invalid"
  | .notScript => "script needs to end with a semicolon"
  | .missingHook hook => "scripts must include '" ++ hook.key ++ "'"
  | .notAddress => "address is not IPv4"
  | .unreadableSubnet subnet => "network subnet " ++ subnet ++ " is not in CIDR format"
  | .outsideSubnet subnet => "address is not in subnet " ++ subnet
  | .networkAddress subnet => "address is the network address of subnet " ++ subnet
  | .broadcastAddress subnet => "address is the broadcast address of subnet " ++ subnet
  | .taken name => "address is already taken by " ++ name

inductive Ruling where
  | accepted (value : Value)
  | rejected (complaint : Complaint) (value : Value)

structure Verdict where
  accepted : Bool
  message : String
  value : Value

def Ruling.verdict : Ruling → Verdict
  | .accepted value => ⟨true, "", value⟩
  | .rejected complaint value => ⟨false, complaint.message, value⟩

def Ruling.complaint? : Ruling → Option Complaint
  | .accepted _ => none
  | .rejected complaint _ => some complaint

def Verdict.error? (verdict : Verdict) : Option String :=
  if verdict.accepted then none else some verdict.message

end WireMesh
