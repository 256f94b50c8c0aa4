import WireMesh.Proofs.Config.Injection
import WireMesh.Proofs.Network.LinkKeys

/-!
This module contains what the configurations of two peers say about the connection between them. It
is in both or in neither; both show its key and its keepalive, each shows the public key of the other
peer, and of the two allowed ranges the peer with the greater id shows one and the other peer the
other.
-/

namespace WireMesh

def Line.value? (name : String) : Line → Option String
  | .directive other value => if other = name then some value else none
  | _ => none

namespace Config

def shown (name : String) (lines : List Line) : List String :=
  lines.filterMap (Line.value? name)

structure Shows (n : Network) (c : Connection) (viewer far : String) (lines : List Line) : Prop where
  publicKey : ∃ other, n.peers.get? far = some other ∧ shown "PublicKey" lines = [other.publicKey]
  preSharedKey : shown "PresharedKey" lines = [c.preSharedKey]
  persistentKeepalive : (shown "PersistentKeepalive" lines).map .ok
    = if c.persistentKeepalive.enabled then [c.persistentKeepalive.value.line] else []
  allowedIps : shown "AllowedIPs" lines
    = [if far < viewer then c.allowedGreaterToLesser else c.allowedLesserToGreater]

theorem shown_append (name : String) (lines more : List Line)
    : shown name (lines ++ more) = shown name lines ++ shown name more :=
  List.filterMap_append

theorem shown_optionalLine {directive : String} {o : Override} {lines : List Line} (name : String)
    (hlines : optionalLine directive o = .ok lines)
    : (shown name lines).map .ok
        =
      if directive = name ∧ o.enabled = true then [o.value.line] else [] := by
  obtain ⟨henabled, text, htext, rfl⟩ | ⟨hdisabled, rfl⟩ := optionalLine_eq_ok_iff.1 hlines
  . by_cases hname : directive = name <;> simp [shown, Line.value?, hname, henabled, htext]
  . simp [shown, hdisabled]

theorem shown_optionalLine_of_ne {name directive : String} {o : Override} {lines : List Line}
    (h : directive ≠ name) (hlines : optionalLine directive o = .ok lines)
    : shown name lines = [] := by
  have hshown := shown_optionalLine name hlines
  rw [if_neg fun hname => h hname.1] at hshown
  exact List.map_eq_nil_iff.1 hshown

theorem shown_endpointLine {name : String} (p : Peer) (h : "Endpoint" ≠ name)
    : shown name (endpointLine p) = [] := by
  unfold shown endpointLine
  split
  . simp [Line.value?, h]
  . rfl

theorem shown_linkSection {name : String} {link : Link} {lines : List Line} (peerId : String)
    (h : "Endpoint" ≠ name) (hlines : linkSection peerId link = .ok lines)
    : ∃ keepalive,
        optionalLine "PersistentKeepalive" link.connection.persistentKeepalive = .ok keepalive
          ∧ shown name lines
            = shown name [.directive "PublicKey" link.other.publicKey,
                .directive "PresharedKey" link.connection.preSharedKey,
                .directive "AllowedIPs" (allowedIps peerId link)]
              ++ shown name keepalive := by
  obtain ⟨keepalive, hkeepalive, rfl⟩ := linkSection_eq_ok_iff.1 hlines
  refine ⟨keepalive, hkeepalive, ?_⟩
  rw [shown_append, shown_append]
  rw [shown_endpointLine _ h]
  rw [List.append_nil]
  rfl

theorem shows_linkSection {n : Network} {link : Link} {p q : String} {lines : List Line}
    (hne : p ≠ q) (hends : link.id.ends = s(p, q)) (hother : n.peers.get? q = some link.other)
    (hlines : linkSection p link = .ok lines) : Shows n link.connection p q lines := by
  have hvalue : ∀ name, "Endpoint" ≠ name → "PersistentKeepalive" ≠ name
      → shown name lines = shown name [.directive "PublicKey" link.other.publicKey,
          .directive "PresharedKey" link.connection.preSharedKey,
          .directive "AllowedIPs" (allowedIps p link)] := by
    intro name hendpoint hname
    obtain ⟨keepalive, hkeepalive, hshown⟩ := shown_linkSection p hendpoint hlines
    rw [hshown, shown_optionalLine_of_ne hname hkeepalive, List.append_nil]
  constructor
  . exact ⟨link.other, hother, hvalue "PublicKey" (by decide) (by decide)⟩
  . exact hvalue "PresharedKey" (by decide) (by decide)
  . obtain ⟨keepalive, hkeepalive, hshown⟩ :=
      @shown_linkSection "PersistentKeepalive" _ _ p (by decide) hlines
    rw [hshown, List.map_append, shown_optionalLine _ hkeepalive]
    simp [shown, Line.value?]
  . rw [hvalue "AllowedIPs" (by decide) (by decide)]
    unfold allowedIps
    simp only [ConnectionId.greater_eq_iff hne hends]
    rfl

end Config

namespace Network

variable {n : Network} {p q : String} {sorted : Bool} {links : List Link} {id : ConnectionId}
  {c : Connection}

theorem countP_links_eq_one_iff (hlinks : n.links p sorted = .ok links)
    (hid : id.contains p = true)
    : links.countP (fun link => link.id = id) = 1
        ↔
      ∃ c, n.connections.get? id = some c ∧ c.enabled = true := by
  have hcount : links.countP (fun link => link.id = id)
      = (Entries.keys (n.enabledOf p)).count id := by
    have hperm := ((perm_enabledOf hlinks).map Prod.fst).count_eq id
    rw [List.map_map] at hperm
    unfold Entries.keys
    rw [← hperm]
    rw [List.count, List.countP_map]
    rfl
  have hmem : id ∈ Entries.keys (n.enabledOf p)
      ↔ ∃ c, n.connections.get? id = some c ∧ c.enabled = true := by
    unfold Entries.keys
    rw [List.mem_map]
    constructor
    . rintro ⟨entry, hentry, rfl⟩
      obtain ⟨hget, -, henabled⟩ := mem_enabledOf_iff.1 hentry
      exact ⟨entry.2, hget, henabled⟩
    . rintro ⟨c, hget, henabled⟩
      exact ⟨(id, c), mem_enabledOf_iff.2 ⟨hget, hid, henabled⟩, rfl⟩
  rw [hcount, ← hmem]
  rw [(nodup_keys_enabledOf n p).count]
  simp

theorem exists_link (hlinks : n.links p sorted = .ok links) (hends : id.ends = s(p, q))
    (hc : n.connections.get? id = some c) (henabled : c.enabled = true)
    : ∃ link ∈ links, link.id = id ∧ link.connection = c
        ∧ n.peers.get? q = some link.other := by
  have hentry : (id, c) ∈ links.map fun link => (link.id, link.connection) := by
    rw [(perm_enabledOf hlinks).mem_iff]
    exact mem_enabledOf_iff.2 ⟨hc, ConnectionId.contains_of_ends hends, henabled⟩
  obtain ⟨link, hlink, heq⟩ := List.mem_map.1 hentry
  cases heq
  obtain ⟨key, hkey, hother⟩ := other_of_mem_links hlinks hlink
  rw [ConnectionId.other?_eq_some_iff, hends, Sym2.congr_right] at hkey
  subst hkey
  exact ⟨link, hlink, rfl, rfl, hother⟩

/--
Whether the links of a peer and its configuration have the connection `c` under `id`, as that peer
sees it. The section stands in the text, between an empty line and a line feed.
-/
def HasLink (n : Network) (config : Config) (links : List Link) (id : ConnectionId) (c : Connection)
    (viewer far : String) : Prop :=
  ∃ link ∈ links, link.id = id ∧ ∃ lines, Config.linkSection viewer link = .ok lines
    ∧ lines ∈ config.sections ∧ Config.Shows n c viewer far lines
    ∧ ∃ head tail, config.text = head ++ "\n\n" ++ Config.sectionText lines ++ "\n" ++ tail

theorem hasLink {config : Config} {settings : Settings} {stripped : Bool} (hne : p ≠ q)
    (hconfig : n.config settings p sorted stripped = .ok config)
    (hlinks : n.links p sorted = .ok links) (hends : id.ends = s(p, q))
    (hc : n.connections.get? id = some c) (henabled : c.enabled = true)
    : n.HasLink config links id c p q := by
  obtain ⟨link, hlink, rfl, rfl, hother⟩ := exists_link hlinks hends hc henabled
  obtain ⟨_, own, all, shown, -, -, hall, hshown, hsections⟩ := config_eq_ok_iff.1 hconfig
  cases hlinks.symm.trans hall
  obtain ⟨lines, hmem, hlines⟩ := Config.exists_lines_of_mem_links hshown hlink
  obtain ⟨before, after, rfl⟩ := List.append_of_mem hmem
  obtain ⟨head, tail, htext, -⟩ :=
    Config.exists_text_around (List.cons_ne_nil (Config.header settings n) (own :: before)) after
  obtain ⟨sections⟩ := config
  obtain rfl : sections = _ := hsections
  refine ⟨link, hlink, rfl, lines, hlines, by simp, ?_, head, tail, htext lines⟩
  exact Config.shows_linkSection hne hends hother hlines

theorem ofEntries_join_comm (members : List (String × Value))
    (earlier later : List (LinkKey × Value)) (p q : String) (v : Value)
    : ofEntries members (earlier ++ (.wire (ConnectionId.join p q), v) :: later)
        =
      ofEntries members (earlier ++ (.wire (ConnectionId.join q p), v) :: later) := by
  have hmake : (LinkKey.wire (ConnectionId.join p q)).make
      = (LinkKey.wire (ConnectionId.join q p)).make :=
    ConnectionId.ofWire_join_comm p q
  unfold ofEntries
  rw [makeLinks_append, makeLinks_append]
  cases makeLinks [] earlier with
  | error cause => rfl
  | ok links =>
    dsimp only
    rw [makeLinks, makeLinks]
    rw [hmake]

theorem config_endsAgree {settings : Settings} {sorted' stripped stripped' : Bool}
    {config back : Config} (hne : p ≠ q)
    (hconfig : n.config settings p sorted stripped = .ok config)
    (hback : n.config settings q sorted' stripped' = .ok back)
    : (∃ links linksBack, n.links p sorted = .ok links ∧ n.links q sorted' = .ok linksBack
          ∧ (∀ id, ConnectionId.ofPeers p q = .ok id
            → (links.countP (fun link => link.id = id) = 1
                ↔ linksBack.countP (fun link => link.id = id) = 1)
              ∧ (links.countP (fun link => link.id = id) = 1
                ↔ ∃ c, n.connections.get? id = some c ∧ c.enabled = true)
              ∧ ∀ c, n.connections.get? id = some c → c.enabled = true
                → n.HasLink config links id c p q ∧ n.HasLink back linksBack id c q p)
          ∧ ∀ error, ConnectionId.ofPeers p q = .error error
            → (∀ link ∈ links, link.id.other? p ≠ some q)
              ∧ ∀ link ∈ linksBack, link.id.other? q ≠ some p)
      ∧ ∀ members earlier later v,
          ofEntries members (earlier ++ (.wire (ConnectionId.join p q), v) :: later)
            =
          ofEntries members (earlier ++ (.wire (ConnectionId.join q p), v) :: later) := by
  obtain ⟨_, _, links, _, -, -, hlinks, -⟩ := config_eq_ok_iff.1 hconfig
  obtain ⟨_, _, linksBack, _, -, -, hlinksBack, -⟩ := config_eq_ok_iff.1 hback
  refine ⟨⟨links, linksBack, hlinks, hlinksBack, ?_, ?_⟩, ?_⟩
  . intro id hid
    have hends := (ConnectionId.ofPeers_eq_ok_iff_ends.1 hid).2.2
    have hendsBack : id.ends = s(q, p) := hends.trans Sym2.eq_swap
    rw [countP_links_eq_one_iff hlinks (ConnectionId.contains_of_ends hends)]
    rw [countP_links_eq_one_iff hlinksBack (ConnectionId.contains_of_ends hendsBack)]
    refine ⟨Iff.rfl, Iff.rfl, ?_⟩
    intro c hc henabled
    exact ⟨hasLink hne hconfig hlinks hends hc henabled,
      hasLink hne.symm hback hlinksBack hendsBack hc henabled⟩
  . intro error herror
    have hnone : ∀ id : ConnectionId, id.other? p ≠ some q := by
      intro id hid
      rw [ConnectionId.other?_eq_some_iff] at hid
      rw [ConnectionId.ofPeers_of_ends hid] at herror
      cases herror
    refine ⟨fun link _ => hnone link.id, ?_⟩
    intro link _ hlink
    exact hnone link.id (ConnectionId.other?_comm.1 hlink)
  . intro members earlier later v
    exact ofEntries_join_comm members earlier later p q v

theorem config_endsAgree_disguised
    : ∃ config back : Config,
        disguisedPeer.id ≠ disguisedOther.id
        ∧ disguised.config .default disguisedPeer.id true false = .ok config
        ∧ disguised.config .default disguisedOther.id false true = .ok back
        ∧ (∃ lines ∈ config.sections, Config.shown "AllowedIPs" lines = ["10.0.0.2/32"])
        ∧ ∃ lines ∈ back.sections, Config.shown "AllowedIPs" lines = ["10.0.0.1/32"] := by
  have hne : disguisedPeer.id ≠ disguisedOther.id := by decide
  have hlt : disguisedOther.id < disguisedPeer.id := by decide
  obtain ⟨config, hconfig⟩ :
      ∃ config, disguised.config .default disguisedPeer.id true false = .ok config :=
    exists_config_true rfl
  obtain ⟨back, hback⟩ :
      ∃ back, disguised.config .default disguisedOther.id false true = .ok back := ⟨_, rfl⟩
  obtain ⟨id, hid⟩ :
      ∃ id, ConnectionId.ofPeers disguisedPeer.id disguisedOther.id = .ok id := ⟨_, rfl⟩
  have hget : disguised.connections.get? id
      = some ⟨true, "[Interface]", "10.0.0.2/32", "10.0.0.1/32", ⟨true, .text "25"⟩⟩ := by
    cases hid
    rfl
  refine ⟨config, back, hne, hconfig, hback, ?_⟩
  obtain ⟨⟨links, linksBack, -, -, hends, -⟩, -⟩ := config_endsAgree hne hconfig hback
  obtain ⟨-, -, hshown⟩ := hends id hid
  obtain ⟨⟨_, -, -, _, -, hsection, hshows, -⟩, ⟨_, -, -, _, -, hsectionBack, hshowsBack, -⟩⟩ :=
    hshown _ hget rfl
  refine ⟨⟨_, hsection, ?_⟩, ⟨_, hsectionBack, ?_⟩⟩
  . rw [hshows.allowedIps]
    rw [if_pos hlt]
  . rw [hshowsBack.allowedIps]
    rw [if_neg (String.lt_asymm hlt)]

end Network

end WireMesh
