import WireMesh.Address
import WireMesh.Text.Split

/-!
This module contains the texts by which a peer is dialled: fully qualified host names and endpoints
of the form `host:port`.
-/

namespace WireMesh

namespace HostName

def isLabel (cs : List Char) : Bool :=
  !cs.isEmpty && decide (cs.length ≤ 63) && cs.all (fun c => c.isAlphanum || c == '-')
    && cs.head? != some '-' && cs.getLast? != some '-'

/--
The labels of a host name. Dots at the end stand for the root and are left out.
-/
def labels (cs : List Char) : List (List Char) :=
  (Text.trimRight '.' cs).splitOn '.'

def isName (cs : List Char) : Bool :=
  !cs.isEmpty && decide (cs.length ≤ 253) && (labels cs).all isLabel
    && !(labels cs).getLast?.any Decimal.isNumeral

end HostName

namespace Endpoint

def maxPort : Nat := 65535

/--
Whether a text is `host:port` with an IPv4 address or a host name as host. The port is what follows
the last colon; its digits are counted before the host is looked at.
-/
def isText (cs : List Char) : Except Decimal.TooManyDigits Bool :=
  match Text.splitLast ':' cs with
  | none => .ok false
  | some (host, port) =>
    if Decimal.isNumeral port then
      match Decimal.read port with
      | .error e => .error e
      | .ok n =>
        .ok (decide (n ≤ maxPort) && ((Address.ofChars? host).isSome || HostName.isName host))
    else
      .ok false

def port? (s : String) : Option String :=
  (Text.splitLast ':' s.toList).map fun parts => String.ofList parts.2

end Endpoint

end WireMesh
