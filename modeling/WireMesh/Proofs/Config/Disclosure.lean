import WireMesh.Proofs.Config.Reordered

/-!
This module contains the proof that the configuration of a peer discloses nothing that the peer is
not to know. Two networks that look the same to the peer give it the same configuration, or the same
error, a number that is too long included. What is left out of the look is secret: every value that is off, where a roaming peer is, what
other peers keep to themselves, the far side of a connection, and every connection of other peers.
-/

namespace WireMesh

structure Override.Alike (o o' : Override) : Prop where
  enabled : o.enabled = o'.enabled
  value : o.enabled = true → o.value = o'.value

theorem Peer.isStatic_congr {p q : Peer} (h : p.mobility = q.mobility)
    : p.isStatic = q.isStatic := by
  unfold isStatic
  rw [h]

structure Peer.SameInside (p q : Peer) : Prop where
  id : p.id = q.id
  name : p.name = q.name
  privateKey : p.privateKey = q.privateKey
  address : p.address = q.address
  mobility : p.mobility = q.mobility
  endpoint : p.isStatic = true → p.endpoint = q.endpoint
  dns : p.dns.Alike q.dns
  mtu : p.mtu.Alike q.mtu
  hook : ∀ hook, (p.hooks.get hook).Alike (q.hooks.get hook)

structure Peer.SameOutside (p q : Peer) : Prop where
  id : p.id = q.id
  name : p.name = q.name
  publicKey : p.publicKey = q.publicKey
  mobility : p.mobility = q.mobility
  endpoint : p.isStatic = true → p.endpoint = q.endpoint

def Connection.nearIps (id : ConnectionId) (peerId : String) (c : Connection) : String :=
  if id.greater = peerId then c.allowedGreaterToLesser else c.allowedLesserToGreater

structure Connection.SameFrom (id : ConnectionId) (peerId : String) (c d : Connection) : Prop where
  preSharedKey : c.preSharedKey = d.preSharedKey
  nearIps : c.nearIps id peerId = d.nearIps id peerId
  persistentKeepalive : c.persistentKeepalive.Alike d.persistentKeepalive

structure Network.SameFor (n m : Network) (peerId : String) : Prop where
  identifier : n.identifier = m.identifier
  peer : Option.Rel Peer.SameInside (n.peers.get? peerId) (m.peers.get? peerId)
  connections : List.Forall₂
    (fun entry entry' => entry.1 = entry'.1 ∧ entry.2.SameFrom entry.1 peerId entry'.2)
    (n.enabledOf peerId) (m.enabledOf peerId)
  other : ∀ entry ∈ n.enabledOf peerId, ∀ far, entry.1.ends = s(peerId, far)
    → Option.Rel Peer.SameOutside (n.peers.get? far) (m.peers.get? far)

namespace Config

variable {o o' : Override} {p q : Peer} {c d : Connection} {id : ConnectionId} {peerId : String}

theorem optionalLine_congr (h : o.Alike o') (name : String)
    : optionalLine name o = optionalLine name o' := by
  unfold optionalLine
  rw [← h.enabled]
  split
  . next henabled => rw [h.value henabled]
  . rfl

theorem listenLine_congr (h : p.SameInside q) : listenLine p = listenLine q := by
  have hport : p.listenPort? = q.listenPort? := by
    unfold Peer.listenPort?
    rw [← Peer.isStatic_congr h.mobility]
    split
    . next hp => rw [h.endpoint hp]
    . rfl
  unfold listenLine
  rw [hport]

theorem optionalLines_congr (h : p.SameInside q) : optionalLines p = optionalLines q := by
  have hwritten : (optionalSettings p).map (fun setting => optionalLine setting.1 setting.2)
      = (optionalSettings q).map fun setting => optionalLine setting.1 setting.2 := by
    unfold optionalSettings
    simp only [List.map_append, List.map_cons, List.map_map, Function.comp_def]
    rw [optionalLine_congr h.dns, optionalLine_congr h.mtu]
    congr 1
    apply List.map_congr_left
    exact fun hook _ => optionalLine_congr (h.hook hook) hook.directive
  unfold optionalLines
  rw [← Except.mapM_id_map, hwritten, Except.mapM_id_map]

theorem interfaceSection_congr (h : p.SameInside q) (settings : Settings) (stripped : Bool)
    : interfaceSection settings p stripped = interfaceSection settings q stripped := by
  unfold interfaceSection
  rw [listenLine_congr h, optionalLines_congr h]
  unfold peerComment addressLine
  rw [h.id, h.name, h.privateKey, h.address]

theorem endpointLine_congr (h : p.SameOutside q) : endpointLine p = endpointLine q := by
  unfold endpointLine
  rw [← Peer.isStatic_congr h.mobility]
  cases hp : p.isStatic with
  | false => rfl
  | true => rw [h.endpoint hp]

theorem linkSection_congr (hc : c.SameFrom id peerId d) (hp : p.SameOutside q)
    : linkSection peerId ⟨id, c, p⟩ = linkSection peerId ⟨id, d, q⟩ := by
  have hips : allowedIps peerId ⟨id, c, p⟩ = allowedIps peerId ⟨id, d, q⟩ := hc.nearIps
  unfold linkSection
  rw [hips]
  dsimp only
  rw [optionalLine_congr hc.persistentKeepalive, endpointLine_congr hp]
  unfold peerComment
  rw [hp.id, hp.name, hp.publicKey, hc.preSharedKey]

end Config

namespace Network

variable {n m : Network} {peerId : String} {sorted : Bool}

/--
What a configuration takes from a link: the id by which links are sorted, and the section.
-/
def seen (peerId : String) (link : Link) : String × Except Decimal.TooLong (List Line) :=
  (link.other.id, Config.linkSection peerId link)

theorem seen_congr {id : ConnectionId} {c d : Connection} {p q : Peer}
    (hc : c.SameFrom id peerId d) (hp : p.SameOutside q)
    : seen peerId ⟨id, c, p⟩ = seen peerId ⟨id, d, q⟩ := by
  unfold seen
  rw [Config.linkSection_congr hc hp]
  rw [hp.id]

def seenLinks (n : Network) (peerId : String) (sorted : Bool)
    : Except PeerNotFound (List (String × Except Decimal.TooLong (List Line))) :=
  List.map (seen peerId) <$> n.links peerId sorted

theorem seenLinks_true (n : Network) (peerId : String)
    : n.seenLinks peerId true
        =
      (fun seen => seen.mergeSort fun s t => decide (s.1 ≤ t.1)) <$> n.seenLinks peerId false := by
  -- The links are not needed to sort what is seen of them.
  unfold seenLinks Network.links
  cases n.resolveLinks (n.linkTargets peerId) with
  | error e => rfl
  | ok links =>
    change Except.ok _ = Except.ok _
    rw [if_pos rfl, if_neg Bool.false_ne_true]
    unfold sortLinks
    rw [List.map_mergeSort]
    intro link _ other _
    rfl

theorem config_eq_seenLinks (n : Network) (settings : Settings) (stripped : Bool)
    : n.config settings peerId sorted stripped
        =
      match n.peer peerId with
      | .error e => .error (.peerNotFound e)
      | .ok p =>
        match Config.interfaceSection settings p stripped with
        | .error e => .error (.tooLong e)
        | .ok own =>
          match n.seenLinks peerId sorted with
          | .error e => .error (.peerNotFound e)
          | .ok seen =>
            match (seen.map Prod.snd).mapM id with
            | .error e => .error (.tooLong e)
            | .ok shown => .ok ⟨Config.header settings n :: own :: shown⟩ := by
  have hshown : ∀ links, ((List.map (seen peerId) links).map Prod.snd).mapM id
      = Config.linkSections peerId links := by
    intro links
    rw [List.map_map]
    exact Except.mapM_id_map _ _
  unfold config seenLinks
  cases n.peer peerId with
  | error e => rfl
  | ok p =>
    dsimp only
    cases Config.interfaceSection settings p stripped with
    | error e => rfl
    | ok own =>
      cases n.links peerId sorted with
      | error e => rfl
      | ok links =>
        have hmapped := hshown links
        dsimp only [Functor.map, Except.map]
        cases hsections : Config.linkSections peerId links with
        | error e => simp only [hmapped, hsections]
        | ok shown => simp only [hmapped, hsections]

theorem seen_resolveLinks_cons (id : ConnectionId) (c : Connection) (far : String)
    (rest : List (ConnectionId × Connection × String))
    : List.map (seen peerId) <$> n.resolveLinks ((id, c, far) :: rest)
        =
      match n.peer far with
      | .error e => .error e
      | .ok p => List.cons (seen peerId ⟨id, c, p⟩) <$> List.map (seen peerId) <$> n.resolveLinks rest
    := by
  rw [resolveLinks]
  cases n.peer far with
  | error e => rfl
  | ok p =>
    cases n.resolveLinks rest with
    | error e => rfl
    | ok more => rfl

theorem seen_resolveLinks (hidentifier : n.identifier = m.identifier)
    {targets targets' : List (ConnectionId × Connection × String)}
    (hsame : List.Forall₂ (fun target target' => target.1 = target'.1
      ∧ target.2.1.SameFrom target.1 peerId target'.2.1) targets targets')
    (hfar : ∀ target ∈ targets, target.1.other? peerId = some target.2.2)
    (hfar' : ∀ target ∈ targets', target.1.other? peerId = some target.2.2)
    (hother : ∀ target ∈ targets,
      Option.Rel Peer.SameOutside (n.peers.get? target.2.2) (m.peers.get? target.2.2))
    : List.map (seen peerId) <$> n.resolveLinks targets
        =
      List.map (seen peerId) <$> m.resolveLinks targets' := by
  induction hsame with
  | nil => rfl
  | @cons target target' rest rest' hhead _ ih =>
    obtain ⟨id, c, far⟩ := target
    obtain ⟨id', d, far'⟩ := target'
    obtain ⟨rfl, hc⟩ := hhead
    rw [List.forall_mem_cons] at hfar hfar' hother
    obtain rfl : far = far' := Option.some.inj (hfar.1.symm.trans hfar'.1)
    rw [seen_resolveLinks_cons, seen_resolveLinks_cons]
    rw [ih hfar.2 hfar'.2 hother.2]
    have hpeer := hother.1
    unfold peer
    rw [← hidentifier]
    dsimp only at hpeer
    generalize n.peers.get? far = p at hpeer ⊢
    generalize m.peers.get? far = q at hpeer ⊢
    cases hpeer with
    | none => rfl
    | some hpeer =>
      dsimp only
      rw [seen_congr hc hpeer]

namespace SameFor

theorem seenLinks_false (h : n.SameFor m peerId)
    : n.seenLinks peerId false = m.seenLinks peerId false := by
  unfold seenLinks
  rw [links_false, links_false]
  have hconnections := h.connections
  rw [← map_linkTargets, ← map_linkTargets] at hconnections
  rw [List.forall₂_map_left_iff, List.forall₂_map_right_iff] at hconnections
  apply seen_resolveLinks h.identifier hconnections
  . exact fun target => other?_of_mem_linkTargets
  . exact fun target => other?_of_mem_linkTargets
  . intro target htarget
    have hentry := List.mem_map_of_mem (f := fun target => (target.1, target.2.1)) htarget
    rw [map_linkTargets] at hentry
    exact h.other _ hentry _ (ConnectionId.other?_eq_some_iff.1 (other?_of_mem_linkTargets htarget))

theorem seenLinks_eq (h : n.SameFor m peerId)
    : n.seenLinks peerId sorted = m.seenLinks peerId sorted := by
  cases sorted with
  | false => exact h.seenLinks_false
  | true =>
    rw [seenLinks_true, seenLinks_true]
    rw [h.seenLinks_false]

theorem config_eq (h : n.SameFor m peerId) (settings : Settings) (sorted stripped : Bool)
    : n.config settings peerId sorted stripped = m.config settings peerId sorted stripped := by
  rw [config_eq_seenLinks, config_eq_seenLinks]
  rw [h.seenLinks_eq]
  have hpeer := h.peer
  unfold Network.peer Config.header
  rw [h.identifier]
  generalize n.peers.get? peerId = p at hpeer ⊢
  generalize m.peers.get? peerId = q at hpeer ⊢
  cases hpeer with
  | none => rfl
  | some hpeer =>
    dsimp only
    rw [Config.interfaceSection_congr hpeer]

end SameFor

end Network

def Override.disclosed (o : Override) : Override :=
  if o.enabled then o else .off

theorem Override.alike_disclosed (o : Override) : o.Alike o.disclosed := by
  unfold disclosed
  split
  . exact ⟨rfl, fun _ => rfl⟩
  . next henabled => exact ⟨eq_false_of_ne_true henabled, fun h => absurd h henabled⟩

namespace Peer

def dialled (p : Peer) : String :=
  if p.isStatic then p.endpoint else ""

def inside (p : Peer) : Peer :=
  { p with
    endpoint := p.dialled
    dns := p.dns.disclosed
    mtu := p.mtu.disclosed
    persistentKeepalive := .off
    hooks := ⟨p.hooks.preUp.disclosed, p.hooks.postUp.disclosed, p.hooks.preDown.disclosed,
      p.hooks.postDown.disclosed⟩ }

def outside (p : Peer) : Peer :=
  { p with
    address := ""
    endpoint := p.dialled
    privateKey := ""
    dns := .off
    mtu := .off
    persistentKeepalive := .off
    hooks := .none }

theorem endpoint_eq_dialled {p : Peer} (h : p.isStatic = true) : p.endpoint = p.dialled :=
  (if_pos h).symm

theorem sameInside_inside (p : Peer) : p.SameInside p.inside where
  id := rfl
  name := rfl
  privateKey := rfl
  address := rfl
  mobility := rfl
  endpoint := endpoint_eq_dialled
  dns := p.dns.alike_disclosed
  mtu := p.mtu.alike_disclosed
  hook := by
    intro hook
    cases hook <;> exact Override.alike_disclosed _

-- A peer may be linked to itself.
theorem sameOutside_inside (p : Peer) : p.SameOutside p.inside :=
  ⟨rfl, rfl, rfl, rfl, endpoint_eq_dialled⟩

theorem sameOutside_outside (p : Peer) : p.SameOutside p.outside :=
  ⟨rfl, rfl, rfl, rfl, endpoint_eq_dialled⟩

end Peer

def Connection.disclosed (id : ConnectionId) (peerId : String) (c : Connection) : Connection where
  enabled := c.enabled
  preSharedKey := c.preSharedKey
  allowedGreaterToLesser := if id.greater = peerId then c.allowedGreaterToLesser else ""
  allowedLesserToGreater := if id.greater = peerId then "" else c.allowedLesserToGreater
  persistentKeepalive := c.persistentKeepalive.disclosed

theorem Connection.sameFrom_disclosed (id : ConnectionId) (peerId : String) (c : Connection)
    : c.SameFrom id peerId (c.disclosed id peerId) where
  preSharedKey := rfl
  nearIps := by
    unfold nearIps disclosed
    split
    . rfl
    . rfl
  persistentKeepalive := c.persistentKeepalive.alike_disclosed

namespace Network

def disclosed (n : Network) (peerId : String) : Network where
  identifier := n.identifier
  subnet := ""
  peers := n.peers.mapValues fun key p => if key = peerId then p.inside else p.outside
  connections :=
    (n.connections.filter fun id c => id.contains peerId && c.enabled).mapValues fun id c =>
      c.disclosed id peerId

theorem enabledOf_disclosed (n : Network) (peerId : String)
    : (n.disclosed peerId).enabledOf peerId
        =
      (n.enabledOf peerId).map fun entry => (entry.1, entry.2.disclosed entry.1 peerId) := by
  unfold enabledOf connectionsOfPeer disclosed OrderedMap.mapValues OrderedMap.filter
  rw [List.filter_map, List.filter_map]
  rw [List.filter_filter, List.filter_filter, List.filter_filter]
  congr 1
  apply List.filter_congr
  intro entry _
  simp [Connection.disclosed, Bool.and_comm]

theorem sameFor_disclosed (n : Network) (peerId : String)
    : n.SameFor (n.disclosed peerId) peerId := by
  have hpeers : ∀ key, (n.disclosed peerId).peers.get? key
      = (n.peers.get? key).map fun p => if key = peerId then p.inside else p.outside :=
    fun key => OrderedMap.get?_mapValues n.peers _ key
  constructor
  . rfl
  . rw [hpeers]
    cases n.peers.get? peerId with
    | none => exact .none
    | some p =>
      rw [Option.map_some, if_pos rfl]
      exact .some p.sameInside_inside
  . rw [enabledOf_disclosed]
    rw [List.forall₂_map_right_iff]
    rw [List.forall₂_same]
    intro entry _
    exact ⟨rfl, entry.2.sameFrom_disclosed entry.1 peerId⟩
  . intro entry _ far _
    rw [hpeers]
    cases n.peers.get? far with
    | none => exact .none
    | some p =>
      rw [Option.map_some]
      split
      . exact .some p.sameOutside_inside
      . exact .some p.sameOutside_outside

theorem config_discloses (n : Network) (peerId : String)
    : (∀ m, n.SameFor m peerId → ∀ settings sorted stripped,
          n.config settings peerId sorted stripped = m.config settings peerId sorted stripped)
        ∧ ∀ settings sorted stripped,
            (n.disclosed peerId).config settings peerId sorted stripped
              =
            n.config settings peerId sorted stripped := by
  constructor
  . exact fun m h => h.config_eq
  . intro settings sorted stripped
    exact ((n.sameFor_disclosed peerId).config_eq settings sorted stripped).symm

def depotPeer : Peer :=
  { hubPeer with id := "depot", id_ne_empty := by decide }

def carPeer : Peer :=
  { depotPeer with id := "car", mobility := .roaming, id_ne_empty := by decide }

def openDepot : Network where
  identifier := "fleet"
  subnet := "10.0.0.0/24"
  peers := ⟨[("depot", depotPeer), ("car", carPeer)], by decide⟩
  connections :=
    ⟨[(⟨"depot", "depot", by decide, by decide, by decide⟩, ⟨true, "", "", "", .off⟩),
      (⟨"depot", "car", by decide, by decide, by decide⟩, ⟨true, "", "", "", .off⟩)], by decide⟩

def secretiveDepot : Network where
  identifier := "fleet"
  subnet := "10.0.9.0/24"
  peers :=
    ⟨[("bike", { carPeer with privateKey := "secret" }),
      ("car", { carPeer with
        privateKey := "secret", address := "10.0.9.2", endpoint := "car.example.com:51820" }),
      ("depot", { depotPeer with mtu := ⟨false, .number 1420⟩ })], by decide⟩
  connections :=
    ⟨[(⟨"depot", "depot", by decide, by decide, by decide⟩, ⟨true, "", "", "", .off⟩),
      (⟨"car", "bike", by decide, by decide, by decide⟩, ⟨true, "secret", "", "", .off⟩),
      (⟨"depot", "bike", by decide, by decide, by decide⟩, ⟨false, "secret", "", "", .off⟩),
      (⟨"depot", "car", by decide, by decide, by decide⟩,
        ⟨true, "", "", "10.0.9.0/24", ⟨false, .number 25⟩⟩)], by decide⟩

theorem sameFor_secretiveDepot : openDepot.SameFor secretiveDepot "depot" := by
  constructor
  . rfl
  . refine .some ⟨rfl, rfl, rfl, rfl, rfl, fun _ => rfl, ⟨rfl, fun _ => rfl⟩, ⟨rfl, nofun⟩, ?_⟩
    exact fun hook => ⟨rfl, fun _ => rfl⟩
  . refine .cons ⟨rfl, rfl, rfl, rfl, fun _ => rfl⟩ (.cons ⟨rfl, rfl, rfl, rfl, nofun⟩ .nil)
  . intro entry hentry far hfar
    rw [← ConnectionId.other?_eq_some_iff] at hfar
    have hentry : entry ∈ [_, _] := hentry
    rw [List.mem_pair] at hentry
    obtain rfl | rfl := hentry
    . cases hfar
      exact .some ⟨rfl, rfl, rfl, rfl, fun _ => rfl⟩
    . cases hfar
      exact .some ⟨rfl, rfl, rfl, rfl, nofun⟩

theorem config_discloses_secretiveDepot
    : openDepot.SameFor secretiveDepot "depot"
        ∧ openDepot.config .default "depot" true false
            = secretiveDepot.config .default "depot" true false
        ∧ (secretiveDepot.disclosed "depot").config .default "depot" true false
            = openDepot.config .default "depot" true false
        ∧ ∃ config, openDepot.config .default "depot" true false = .ok config := by
  have hsame := (config_discloses openDepot "depot").1 secretiveDepot sameFor_secretiveDepot
  have hdisclosed := (config_discloses secretiveDepot "depot").2 .default true false
  refine ⟨sameFor_secretiveDepot, hsame _ _ _, ?_, exists_config_true rfl⟩
  rw [hdisclosed, hsame]

end Network

end WireMesh
