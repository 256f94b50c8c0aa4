import WireMesh.Proofs.Config.Reordered

/-!
This module contains when a peer has no configuration. Either the network does not have the peer, or
an enabled connection of the peer leads to one that the network does not have; the error names the
peer, or else the first missing one in the order of the connections. Beside these, a number that is
on may be too long, and one in the section of the peer itself is met before any missing link. A peer
that has a configuration has one link for each of its enabled connections, in their order.
-/

namespace WireMesh.Network

variable {n : Network} {peerId far : String} {entry : ConnectionId × Connection} {e : PeerNotFound}
  {sorted : Bool}

/--
Whether an entry is an enabled connection of the peer `peerId` to the peer `far`, which the network
does not have.
-/
structure Dangles (n : Network) (peerId : String) (entry : ConnectionId × Connection) (far : String)
    : Prop where
  enabled : entry.2.enabled = true
  ends : entry.1.ends = s(peerId, far)
  missing : far ∉ n.peers.keys

def missing? (n : Network) (peerId : String) (entry : ConnectionId × Connection) : Option String :=
  if entry.2.enabled then
    (entry.1.other? peerId).bind fun far => if far ∈ n.peers.keys then none else some far
  else
    none

theorem missing?_eq_some_iff : n.missing? peerId entry = some far ↔ n.Dangles peerId entry far := by
  unfold missing?
  constructor
  . intro h
    split at h
    . next henabled =>
      obtain ⟨other, hother, hfar⟩ := Option.bind_eq_some_iff.1 h
      split at hfar
      . cases hfar
      . next hmissing =>
        cases hfar
        exact ⟨henabled, ConnectionId.other?_eq_some_iff.1 hother, hmissing⟩
    . cases h
  . rintro ⟨henabled, hends, hmissing⟩
    rw [if_pos henabled, ConnectionId.other?_eq_some_iff.2 hends]
    exact if_neg hmissing

theorem peer_eq_error_iff
    : n.peer peerId = .error e ↔ peerId ∉ n.peers.keys ∧ e = ⟨peerId, n.identifier⟩ := by
  unfold peer
  rw [← OrderedMap.get?_eq_none_iff]
  cases n.peers.get? peerId with
  | none => simp [eq_comm]
  | some p => simp

theorem resolveLinks_filterMap_eq_error_iff (entries : List (ConnectionId × Connection))
    : n.resolveLinks (entries.filterMap fun entry =>
          if entry.2.enabled then
            (entry.1.other? peerId).map fun other => (entry.1, entry.2, other)
          else
            none)
        = .error e
        ↔
      entries.findSome? (n.missing? peerId) = some e.peerId ∧ e.network = n.identifier := by
  -- The connections that are left out lead nowhere, so the first error is the first peer that is
  -- missing.
  induction entries with
  | nil => simp [resolveLinks]
  | cons entry rest ih =>
    rw [List.filterMap_cons, List.findSome?_cons]
    cases henabled : entry.2.enabled with
    | false => simpa [missing?, henabled] using ih
    | true =>
      cases hother : entry.1.other? peerId with
      | none => simpa [missing?, henabled, hother] using ih
      | some far =>
        rw [if_pos rfl, Option.map_some]
        dsimp only
        rw [resolveLinks]
        cases hpeer : n.peer far with
        | error cause =>
          obtain ⟨hfar, rfl⟩ := peer_eq_error_iff.1 hpeer
          have hmissing : n.missing? peerId entry = some far := by
            simp [missing?, henabled, hother, hfar]
          rw [hmissing]
          cases e
          simp [eq_comm]
        | ok p =>
          have hfar : far ∈ n.peers.keys := by
            by_contra hfar
            rw [peer_eq_error_iff.2 ⟨hfar, rfl⟩] at hpeer
            cases hpeer
          have hmissing : n.missing? peerId entry = none := by
            simp [missing?, henabled, hother, hfar]
          rw [hmissing]
          dsimp only
          rw [← ih]
          split
          . next cause hrest => simp [hrest]
          . next more hrest => simp [hrest]

def FirstMissing (n : Network) (peerId far : String) : Prop :=
  ∃ earlier entry later, n.connections.entries = earlier ++ entry :: later
    ∧ n.Dangles peerId entry far ∧ ∀ before ∈ earlier, ∀ other, ¬n.Dangles peerId before other

theorem firstMissing_iff
    : n.FirstMissing peerId far
        ↔
      n.connections.entries.findSome? (n.missing? peerId) = some far := by
  rw [List.findSome?_eq_some_iff]
  unfold FirstMissing
  simp only [← missing?_eq_some_iff, Option.eq_none_iff_forall_ne_some]

theorem links_eq_error_iff
    : n.links peerId sorted = .error e
        ↔
      n.FirstMissing peerId e.peerId ∧ e.network = n.identifier := by
  have hresolve : n.links peerId sorted = .error e
      ↔ n.resolveLinks (n.linkTargets peerId) = .error e := by
    unfold Network.links
    split
    . next hresolve => rw [hresolve]
    . next links hresolve => simp [hresolve]
  rw [hresolve]
  unfold linkTargets
  rw [resolveLinks_filterMap_eq_error_iff]
  rw [firstMissing_iff]

theorem exists_firstMissing_iff
    : (∃ far, n.FirstMissing peerId far)
        ↔
      ∃ entry ∈ n.connections.entries, ∃ far, n.Dangles peerId entry far := by
  constructor
  . rintro ⟨far, earlier, entry, later, hentries, hentry, -⟩
    refine ⟨entry, ?_, far, hentry⟩
    rw [hentries]
    exact List.mem_append_right _ List.mem_cons_self
  . rintro ⟨entry, hentry, far, hdangles⟩
    have hsome : (n.connections.entries.findSome? (n.missing? peerId)).isSome = true := by
      rw [List.findSome?_isSome_iff]
      exact ⟨entry, hentry, Option.isSome_of_eq_some (missing?_eq_some_iff.2 hdangles)⟩
    obtain ⟨first, hfirst⟩ := Option.isSome_iff_exists.1 hsome
    exact ⟨first, firstMissing_iff.2 hfirst⟩

variable {settings : Settings} {stripped : Bool}

theorem config_eq_peerNotFound_iff
    : n.config settings peerId sorted stripped = .error (.peerNotFound e)
        ↔
      e.network = n.identifier
        ∧ (peerId ∉ n.peers.keys ∧ e.peerId = peerId
          ∨ (∃ p, n.peers.get? peerId = some p ∧ ¬Config.InterfaceTooLong settings p stripped)
            ∧ n.FirstMissing peerId e.peerId) := by
  rw [config_eq_error_iff]
  simp only [peer_eq_error_iff, links_eq_error_iff, Config.Error.peerNotFound.injEq, reduceCtorEq,
    and_false, exists_false, false_or, or_false, exists_eq_right']
  cases e
  simp only [PeerNotFound.mk.injEq]
  grind

theorem config_eq_tooLong_iff {e : Decimal.TooLong}
    : n.config settings peerId sorted stripped = .error (.tooLong e)
        ↔
      ∃ p, n.peers.get? peerId = some p
        ∧ (Config.InterfaceTooLong settings p stripped
          ∨ ∃ links, n.links peerId sorted = .ok links
            ∧ ∃ link ∈ links, link.connection.persistentKeepalive.TooLong) := by
  rw [config_eq_error_iff]
  simp only [reduceCtorEq, and_false, exists_false, false_or, and_true]
  grind

theorem exists_links_tooLong_iff
    : (∃ links, n.links peerId sorted = .ok links
          ∧ ∃ link ∈ links, link.connection.persistentKeepalive.TooLong)
        ↔
      (∀ entry ∈ n.connections.entries, ∀ far, ¬n.Dangles peerId entry far)
        ∧ ∃ entry ∈ n.enabledOf peerId, entry.2.persistentKeepalive.TooLong := by
  have hnone : (∀ entry ∈ n.connections.entries, ∀ far, ¬n.Dangles peerId entry far)
      ↔ ¬∃ far, n.FirstMissing peerId far := by
    rw [exists_firstMissing_iff]
    simp only [not_exists, not_and]
  rw [hnone]
  cases hlinks : n.links peerId sorted with
  | error e =>
    have hfirst := (links_eq_error_iff.1 hlinks).1
    simp only [reduceCtorEq, false_and, exists_false, false_iff, not_and]
    exact fun habsent => absurd ⟨_, hfirst⟩ habsent
  | ok links =>
    have habsent : ¬∃ far, n.FirstMissing peerId far := by
      rintro ⟨far, hfirst⟩
      rw [links_eq_error_iff (e := ⟨far, n.identifier⟩) |>.2 ⟨hfirst, rfl⟩] at hlinks
      cases hlinks
    simp only [Except.ok.injEq, exists_eq_left', habsent, not_false_eq_true, true_and]
    simp only [← (perm_enabledOf hlinks).mem_iff, List.mem_map, exists_exists_and_eq_and]

theorem map_links_false {links : List Link} (h : n.links peerId false = .ok links)
    : links.map (fun link => (link.id, link.connection)) = n.enabledOf peerId := by
  rw [links_false, resolveLinks_eq_ok_iff] at h
  have hmap := congrArg (List.map fun target => (target.1, target.2.1)) h
  simp only [List.map_map, Function.comp_def] at hmap
  rw [← hmap, map_linkTargets]

theorem exists_links_false {links : List Link} (h : n.links peerId sorted = .ok links)
    : ∃ unsorted, n.links peerId false = .ok unsorted := by
  obtain ⟨unsorted, hunsorted, -⟩ := links_eq_ok h
  exact ⟨unsorted, (links_false n peerId).trans hunsorted⟩

theorem config_missingPeers (n : Network) (settings : Settings) (peerId : String)
    (sorted stripped : Bool)
    : (∀ e, n.config settings peerId sorted stripped = .error (.peerNotFound e)
          ↔
        e.network = n.identifier
          ∧ (peerId ∉ n.peers.keys ∧ e.peerId = peerId
            ∨ (∃ p, n.peers.get? peerId = some p ∧ ¬Config.InterfaceTooLong settings p stripped)
              ∧ n.FirstMissing peerId e.peerId))
      ∧ ((∀ p, n.peers.get? peerId = some p → ¬Config.InterfaceTooLong settings p stripped)
          → ((∃ e, n.config settings peerId sorted stripped = .error (.peerNotFound e))
              ↔
            peerId ∉ n.peers.keys
              ∨ ∃ entry ∈ n.connections.entries, ∃ far, n.Dangles peerId entry far))
      ∧ (∀ e, n.config settings peerId sorted stripped = .error (.tooLong e)
          ↔
        ∃ p, n.peers.get? peerId = some p
          ∧ (Config.InterfaceTooLong settings p stripped
            ∨ (∀ entry ∈ n.connections.entries, ∀ far, ¬n.Dangles peerId entry far)
              ∧ ∃ entry ∈ n.enabledOf peerId, entry.2.persistentKeepalive.TooLong))
      ∧ (∀ e, n.links peerId sorted = .error e
          ↔
        n.FirstMissing peerId e.peerId ∧ e.network = n.identifier)
      ∧ (∀ entry ∈ n.connectionsOfPeer peerId, ∃ far, entry.1.other? peerId = some far)
      ∧ ∀ config, n.config settings peerId sorted stripped = .ok config
          → ∃ links, n.links peerId false = .ok links
            ∧ links.map (fun link => (link.id, link.connection)) = n.enabledOf peerId
            ∧ (links.map Link.id).Nodup
            ∧ ∀ link ∈ links, ∃ far, link.id.ends = s(peerId, far)
                ∧ (link.id.greater = link.id.lesser → far = peerId)
                ∧ n.peers.get? far = some link.other := by
  refine ⟨fun e => config_eq_peerNotFound_iff, ?_, ?_, fun e => links_eq_error_iff, ?_, ?_⟩
  . intro hwritten
    rw [← exists_firstMissing_iff]
    simp only [config_eq_peerNotFound_iff]
    constructor
    . rintro ⟨e, -, ⟨hkey, -⟩ | ⟨-, hfirst⟩⟩
      . exact .inl hkey
      . exact .inr ⟨e.peerId, hfirst⟩
    . intro h
      cases hp : n.peers.get? peerId with
      | none => exact ⟨⟨peerId, n.identifier⟩, rfl, .inl ⟨OrderedMap.get?_eq_none_iff.1 hp, rfl⟩⟩
      | some p =>
        obtain hmissing | ⟨far, hfirst⟩ := h
        . exact absurd (OrderedMap.mem_keys_of_get?_eq_some hp) hmissing
        . exact ⟨⟨far, n.identifier⟩, rfl, .inr ⟨⟨p, rfl, hwritten p hp⟩, hfirst⟩⟩
  . intro e
    rw [config_eq_tooLong_iff]
    simp only [exists_links_tooLong_iff]
  . intro entry hentry
    have hcontains := (List.mem_filter.1 hentry).2
    rw [← ConnectionId.isSome_other?_iff] at hcontains
    exact Option.isSome_iff_exists.1 hcontains
  . intro config hconfig
    obtain ⟨_, _, _, _, _, _, hsorted, -⟩ := config_eq_ok_iff.1 hconfig
    obtain ⟨links, hlinks⟩ := exists_links_false hsorted
    refine ⟨links, hlinks, map_links_false hlinks, List.pairwise_map.2 (pairwise_id_ne hlinks), ?_⟩
    intro link hlink
    obtain ⟨far, hfar, hother⟩ := other_of_mem_links hlinks hlink
    have hends := ConnectionId.other?_eq_some_iff.1 hfar
    refine ⟨far, hends, ?_, hother⟩
    intro hself
    unfold ConnectionId.ends at hends
    rw [hself, Sym2.eq_iff] at hends
    grind

def towerPeer (mtu : Override) : Peer :=
  { hubPeer with id := "tower", mtu := mtu, id_ne_empty := by decide }

def danglingTower (mtu : Override) : Network where
  identifier := "park"
  subnet := "10.0.0.0/24"
  peers :=
    ⟨[("tower", towerPeer mtu),
      ("gate", { cabinPeer with id := "gate", id_ne_empty := by decide })],
      (by decide : ["tower", "gate"].Nodup)⟩
  connections :=
    ⟨[(⟨"tower", "lodge", by decide, by decide, by decide⟩, ⟨false, "", "", "", .off⟩),
      (⟨"tower", "gate", by decide, by decide, by decide⟩, ⟨true, "", "", "", .off⟩),
      (⟨"tower", "barn", by decide, by decide, by decide⟩, ⟨true, "", "", "", .off⟩)], by decide⟩

theorem keys_danglingTower (mtu : Override) : (danglingTower mtu).peers.keys = ["tower", "gate"] :=
  rfl

theorem dangles_tower (mtu : Override)
    : (danglingTower mtu).Dangles "tower"
        (⟨"tower", "barn", by decide, by decide, by decide⟩, ⟨true, "", "", "", .off⟩) "barn" :=
  ⟨rfl, rfl, by rw [keys_danglingTower]; decide⟩

theorem firstMissing_tower (mtu : Override) : (danglingTower mtu).FirstMissing "tower" "barn" := by
  refine ⟨[_, _], _, [], rfl, dangles_tower mtu, ?_⟩
  intro before hbefore other hdangles
  obtain rfl | rfl := List.mem_pair.1 hbefore
  . cases hdangles.enabled
  . have hother := ConnectionId.other?_eq_some_iff.2 hdangles.ends
    cases hother
    apply hdangles.missing
    rw [keys_danglingTower]
    decide

theorem config_missingPeers_danglingTower
    : (danglingTower .off).config .default "tower" true false
          = .error (.peerNotFound ⟨"barn", "park"⟩)
        ∧ (∃ config, (danglingTower .off).config .default "gate" true false = .ok config)
        ∧ ∃ links, (danglingTower .off).links "gate" false = .ok links
          ∧ links.map (fun link => (link.id, link.connection))
              = (danglingTower .off).enabledOf "gate"
          ∧ (links.map Link.id).Nodup := by
  have hwritten : ¬Config.InterfaceTooLong .default (towerPeer .off) false := by
    intro hlong
    cases Config.interfaceSection_eq_error_iff (e := ⟨⟩) |>.2 hlong
  obtain ⟨hfails, -⟩ := config_missingPeers (danglingTower .off) .default "tower" true false
  obtain ⟨-, -, -, -, -, hlinks⟩ :=
    config_missingPeers (danglingTower .off) .default "gate" true false
  obtain ⟨config, hconfig⟩ :
      ∃ config, (danglingTower .off).config .default "gate" true false = .ok config :=
    exists_config_true rfl
  obtain ⟨links, hok, hmap, hnodup, -⟩ := hlinks config hconfig
  exact ⟨(hfails _).2 ⟨rfl, .inr ⟨⟨_, rfl, hwritten⟩, firstMissing_tower .off⟩⟩, ⟨config, hconfig⟩,
    links, hok, hmap, hnodup⟩

def toweringMtu : Override :=
  ⟨true, .number (10 ^ Decimal.digitLimit)⟩

theorem tooLong_toweringMtu : toweringMtu.TooLong := by
  have hlength : ∀ limit, 0 < limit
      → limit < (Nat.toDigits 10 ((10 : Int) ^ limit).natAbs).length := by
    intro limit hpos
    rw [← Nat.not_le, Nat.length_toDigits_le_iff (by decide) hpos, Int.natAbs_pow]
    exact Nat.lt_irrefl _
  exact ⟨rfl, _, rfl, hlength Decimal.digitLimit (by decide)⟩

theorem not_named_danglingTower
    : (∃ entry ∈ (danglingTower toweringMtu).connections.entries,
          (danglingTower toweringMtu).Dangles "tower" entry "barn")
        ∧ (∀ sorted, (danglingTower toweringMtu).config .default "tower" sorted false
            = .error (.tooLong ⟨⟩))
        ∧ ¬∃ e, (danglingTower toweringMtu).config .default "tower" false false
            = .error (.peerNotFound e) := by
  have hlong : ∀ sorted, (danglingTower toweringMtu).config .default "tower" sorted false
      = .error (.tooLong ⟨⟩) := by
    intro sorted
    refine config_eq_tooLong_iff.2 ⟨towerPeer toweringMtu, rfl, .inl ⟨rfl, .inr ?_⟩⟩
    exact ⟨("MTU", toweringMtu), by simp [Config.optionalSettings, towerPeer], tooLong_toweringMtu⟩
  refine ⟨⟨_, ?_, dangles_tower toweringMtu⟩, hlong, ?_⟩
  . simp [danglingTower]
  . rintro ⟨e, he⟩
    rw [hlong] at he
    cases he

end WireMesh.Network
