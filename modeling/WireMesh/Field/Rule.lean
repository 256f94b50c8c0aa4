import WireMesh.Field.TextRule
import WireMesh.Field.ToggleRule

/-!
This module contains the rules that fields are held to and the table that says which field has which
rule. A rule reports the value that it accepted or rejected, and can fail only on a numeral with too
many digits.
-/

namespace WireMesh

inductive Rule where
  | text (rule : TextRule)
  | toggle (rule : ToggleRule)
  | endpoint
  | hooks
deriving DecidableEq, Repr

namespace Rule

/--
Check an endpoint. A switch is reported as its text, or as the empty text while it is off.
-/
def applyEndpoint (f : Field) : Except Decimal.TooManyDigits Ruling :=
  match f with
  | .text s =>
    match Endpoint.isText s.toList with
    | .error e => .error e
    | .ok true => .ok (.accepted f.toPlain)
    | .ok false => .ok (.rejected .notEndpoint f.toPlain)
  | .toggle flag value =>
    if flag.isTruthy then
      match value.text? with
      | none => .ok (.rejected .notEndpoint f.toPlain)
      | some s =>
        match Endpoint.isText s.toList with
        | .error e => .error e
        | .ok true => .ok (.accepted (.text s))
        | .ok false => .ok (.rejected .notEndpoint f.toPlain)
    else
      .ok (.accepted (.text ""))
  | .group _ => .ok (.rejected .badShape .null)

def applyHooks (members : List (String × Value)) (hooks : List Hook)
    : Except Decimal.TooManyDigits Ruling :=
  match hooks with
  | [] => .ok (.accepted (Field.group members).toPlain)
  | hook :: rest =>
    match Entries.get? members hook.key with
    | none => .ok (.rejected (.missingHook hook) .null)
    | some v =>
      match Field.ofValue? v with
      | none => .ok (.rejected .badShape .null)
      | some f =>
        match ToggleRule.script.apply f with
        | .error e => .error e
        | .ok (.rejected complaint _) => .ok (.rejected complaint (Field.group members).toPlain)
        | .ok (.accepted _) => applyHooks members rest

def apply (rule : Rule) (context : Option Context) (f : Field)
    : Except Decimal.TooManyDigits Ruling :=
  match rule with
  | .text rule => .ok (rule.apply context f)
  | .toggle rule => rule.apply f
  | .endpoint => applyEndpoint f
  | .hooks =>
    match f with
    | .group members => applyHooks members Hook.all
    | _ => .ok (.rejected .badShape .null)

def table : List (String × Rule) :=
  [("peerId", .text .peerId), ("peer_id", .text .peerId),
   ("identifier", .text (.nonempty "identifier")), ("subnet", .text .subnet),
   ("name", .text (.nonempty "name")), ("address", .text .address),
   ("mobility", .text .mobility), ("endpoint", .endpoint),
   ("public_key", .text (.nonempty "public_key")),
   ("private_key", .text (.nonempty "private_key")),
   ("pre_shared_key", .text (.nonempty "pre_shared_key")),
   ("dns", .toggle .dns), ("mtu", .toggle .mtu), ("persistent_keepalive", .toggle .keepalive),
   ("script", .toggle .script), ("pre_up", .toggle .script), ("post_up", .toggle .script),
   ("pre_down", .toggle .script), ("post_down", .toggle .script), ("scripts", .hooks),
   ("allowed_ips_a_to_b", .text .allowedIps), ("allowed_ips_b_to_a", .text .allowedIps)]

def ofField? (field : String) : Option Rule :=
  Entries.get? table field

def fieldNames : List String :=
  (Entries.keys table).mergeSort fun a b => decide (a ≤ b)

end Rule

end WireMesh
