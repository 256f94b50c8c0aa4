import WireMesh.Network.Link
import WireMesh.Settings

/-!
This module contains the configurations of peers. A configuration is a list of sections of lines: a
header, the section of the peer itself, and one section for every link. Its text has an empty line
between two sections. An optional setting that is off leaves no line, and one that is on leaves no
configuration if it is a number that is too long.
-/

namespace WireMesh

inductive Line where
  | comment (text : String)
  | heading (name : String)
  | directive (name value : String)
deriving DecidableEq, Repr

def Line.text : Line → String
  | .comment text => "# " ++ text
  | .heading name => "[" ++ name ++ "]"
  | .directive name value => name ++ " = " ++ value

structure Config where
  sections : List (List Line)
deriving DecidableEq, Repr

namespace Config

def sectionText (lines : List Line) : String :=
  "\n".intercalate (lines.map Line.text)

def text (config : Config) : String :=
  "\n\n".intercalate (config.sections.map sectionText) ++ "\n"

def header (settings : Settings) (n : Network) : List Line :=
  [.comment ("auto-generated using " ++ settings.generatorName ++ " (" ++ settings.generatorVersion
     ++ ")"),
   .comment ("network identifier: " ++ n.identifier)]

def peerComment (p : Peer) : Line :=
  .comment ("Peer: " ++ p.name ++ " (" ++ p.id ++ ")")

def optionalLine (name : String) (o : Override) : Except Decimal.TooLong (List Line) :=
  if o.enabled then do return [.directive name (← o.value.line)] else return []

def listenLine (p : Peer) : List Line :=
  match p.listenPort? with
  | some port => [.directive "ListenPort" port]
  | none => []

def addressLine (settings : Settings) (p : Peer) : Except Decimal.TooLong Line := do
  return .directive "Address" (p.address ++ "/" ++ (← Decimal.write settings.interfaceLength))

def optionalSettings (p : Peer) : List (String × Override) :=
  [("DNS", p.dns), ("MTU", p.mtu)]
    ++ Hook.all.map fun hook => (hook.directive, p.hooks.get hook)

def optionalLines (p : Peer) : Except Decimal.TooLong (List Line) := do
  let written ← (optionalSettings p).mapM fun setting => optionalLine setting.1 setting.2
  return written.flatten

def interfaceSection (settings : Settings) (p : Peer) (stripped : Bool)
    : Except Decimal.TooLong (List Line) :=
  let head := [peerComment p, .heading "Interface", .directive "PrivateKey" p.privateKey]
  if stripped then
    return head ++ listenLine p
  else do
    let address ← addressLine settings p
    let optional ← optionalLines p
    return head ++ [address] ++ listenLine p ++ optional

def endpointLine (p : Peer) : List Line :=
  if p.isStatic && p.endpoint != "" then [.directive "Endpoint" p.endpoint] else []

def allowedIps (peerId : String) (link : Link) : String :=
  if link.id.greater = peerId then
    link.connection.allowedGreaterToLesser
  else
    link.connection.allowedLesserToGreater

def linkSection (peerId : String) (link : Link) : Except Decimal.TooLong (List Line) := do
  let keepalive ← optionalLine "PersistentKeepalive" link.connection.persistentKeepalive
  return [peerComment link.other, .heading "Peer", .directive "PublicKey" link.other.publicKey,
      .directive "PresharedKey" link.connection.preSharedKey,
      .directive "AllowedIPs" (allowedIps peerId link)]
    ++ keepalive ++ endpointLine link.other

def linkSections (peerId : String) (links : List Link) : Except Decimal.TooLong (List (List Line)) :=
  links.mapM (linkSection peerId)

inductive Error where
  | peerNotFound (e : PeerNotFound)
  | tooLong (e : Decimal.TooLong)
deriving DecidableEq, Repr

def Error.message : Error → String
  | .peerNotFound e => e.message
  | .tooLong e => e.message

end Config

namespace Network

/--
The configuration of a peer. Its own section is written before its links are looked up, and theirs
after that, so the first of these that fails decides.
-/
def config (n : Network) (settings : Settings) (peerId : String) (sorted stripped : Bool)
    : Except Config.Error Config :=
  match n.peer peerId with
  | .error e => .error (.peerNotFound e)
  | .ok p =>
    match Config.interfaceSection settings p stripped with
    | .error e => .error (.tooLong e)
    | .ok own =>
      match n.links peerId sorted with
      | .error e => .error (.peerNotFound e)
      | .ok links =>
        match Config.linkSections peerId links with
        | .error e => .error (.tooLong e)
        | .ok shown => .ok ⟨Config.header settings n :: own :: shown⟩

end Network

end WireMesh
