import WireMesh.Proofs.Config.Rows
import WireMesh.Proofs.Config.Written

/-!
This module contains the proof that no value can add, split or remove a line of a configuration. If
nothing is to be said against the peer, its enabled connections and the peers at their other ends,
every value in the configuration stands on a single line, so the text cuts back into exactly the
sections that were written.
-/

namespace WireMesh

open Text

namespace Network

/--
Whether nothing is to be said against anything that the configuration of a peer is made of. The
peers may have been checked in any network, or in none.
-/
structure ClearedFor (n : Network) (peerId : String) : Prop where
  identifier : Accepts "identifier" (.text n.identifier) none
  self : ∀ p, n.peers.get? peerId = some p → ∃ network, p.complaints network = .ok []
  connection : ∀ entry ∈ n.enabledOf peerId, entry.2.complaints = .ok []
  other : ∀ entry ∈ n.enabledOf peerId, ∀ key p, entry.1.other? peerId = some key
    → n.peers.get? key = some p → ∃ network, p.complaints network = .ok []

end Network

namespace Config

variable {settings : Settings} {n : Network} {p : Peer} {stripped : Bool} {peerId : String}
  {link : Link} {address : Line} {lines : List Line}

theorem plain_header (hname : OneLine settings.generatorName)
    (hversion : OneLine settings.generatorVersion) (hid : OneLine n.identifier)
    : ∀ line ∈ header settings n, line.Plain := by
  unfold header
  simp only [List.forall_mem_cons, Line.Plain, oneLine_append_iff]
  exact ⟨⟨⟨⟨⟨by decide, hname⟩, by decide⟩, hversion⟩, by decide⟩, ⟨by decide, hid⟩, by simp⟩

theorem plain_peerComment (hp : p.OneLine) : (peerComment p).Plain := by
  unfold peerComment
  simp only [Line.Plain, oneLine_append_iff]
  exact ⟨⟨⟨⟨by decide, hp.name⟩, by decide⟩, hp.id⟩, by decide⟩

theorem plain_optionalLine {name : String} {o : Override}
    (hname : name.toList.all Char.isAlpha = true) (ho : o.value.OneLine)
    (hlines : optionalLine name o = .ok lines) : ∀ line ∈ lines, line.Plain := by
  intro line hline
  obtain ⟨text, htext, rfl⟩ := directive_of_mem_optionalLine hlines hline
  exact ⟨hname, ho text htext⟩

theorem plain_listenLine (hp : p.OneLine) : ∀ line ∈ listenLine p, line.Plain := by
  unfold listenLine
  split
  . next port hport =>
    rw [List.forall_mem_singleton]
    refine ⟨by decide, ?_⟩
    -- The port is a part of the endpoint.
    unfold Peer.listenPort? at hport
    split at hport
    . next hstatic =>
      unfold Endpoint.port? at hport
      rw [Option.map_eq_some_iff] at hport
      obtain ⟨⟨host, digits⟩, hsplit, rfl⟩ := hport
      rw [splitLast_eq_some_iff] at hsplit
      have hendpoint := hp.endpoint hstatic
      unfold OneLine at hendpoint ⊢
      rw [hsplit.1] at hendpoint
      simp only [List.mem_append, List.mem_cons, not_or] at hendpoint
      rw [String.toList_ofList]
      exact ⟨hendpoint.1.2.2, hendpoint.2.2.2⟩
    . cases hport
  . simp

theorem plain_addressLine (hp : p.OneLine) (haddress : addressLine settings p = .ok address)
    : address.Plain := by
  obtain ⟨length, hlength, rfl⟩ := addressLine_eq_ok_iff.1 haddress
  refine ⟨by decide, ?_⟩
  rw [oneLine_append_iff, oneLine_append_iff]
  rw [← (Decimal.write_eq_ok_iff.1 hlength).2]
  exact ⟨⟨hp.address, by decide⟩, oneLine_ofInt _⟩

theorem plain_optionalLines (hp : p.OneLine) (hlines : optionalLines p = .ok lines)
    : ∀ line ∈ lines, line.Plain := by
  have hsettings : ∀ setting ∈ optionalSettings p,
      setting.1.toList.all Char.isAlpha = true ∧ setting.2.value.OneLine := by
    unfold optionalSettings
    simp only [List.forall_mem_append, List.forall_mem_cons, List.forall_mem_map]
    refine ⟨⟨⟨by decide, hp.dns⟩, ⟨by decide, hp.mtu⟩, by simp⟩, ?_⟩
    intro hook _
    refine ⟨?_, hp.hook hook⟩
    cases hook <;> decide
  intro line hline
  obtain ⟨setting, hsetting, text, htext, rfl⟩ := directive_of_mem_optionalLines hlines hline
  exact ⟨(hsettings setting hsetting).1, (hsettings setting hsetting).2 text htext⟩

theorem plain_interfaceSection (hp : p.OneLine)
    (hlines : interfaceSection settings p stripped = .ok lines) : ∀ line ∈ lines, line.Plain := by
  have hhead : ∀ line ∈ [peerComment p, .heading "Interface", .directive "PrivateKey" p.privateKey],
      line.Plain := by
    simp only [List.forall_mem_cons]
    exact ⟨plain_peerComment hp, by simp [Line.Plain, OneLine], ⟨by decide, hp.privateKey⟩, by simp⟩
  cases stripped with
  | true =>
    cases hlines
    exact List.forall_mem_append.2 ⟨hhead, plain_listenLine hp⟩
  | false =>
    obtain ⟨address, optional, haddress, hoptional, rfl⟩ :=
      interfaceSection_false_eq_ok_iff.1 hlines
    simp only [List.forall_mem_append, List.forall_mem_singleton]
    exact ⟨⟨⟨hhead, plain_addressLine hp haddress⟩, plain_listenLine hp⟩,
      plain_optionalLines hp hoptional⟩

theorem plain_endpointLine (hp : p.OneLine) : ∀ line ∈ endpointLine p, line.Plain := by
  unfold endpointLine
  split
  . next h =>
    rw [Bool.and_eq_true] at h
    rw [List.forall_mem_singleton]
    exact ⟨by decide, hp.endpoint h.1⟩
  . simp

theorem plain_linkSection (hc : link.connection.OneLine) (hp : link.other.OneLine)
    (hlines : linkSection peerId link = .ok lines) : ∀ line ∈ lines, line.Plain := by
  have hips : OneLine (allowedIps peerId link) := by
    unfold allowedIps
    split
    . exact hc.allowedGreaterToLesser
    . exact hc.allowedLesserToGreater
  obtain ⟨keepalive, hkeepalive, rfl⟩ := linkSection_eq_ok_iff.1 hlines
  simp only [List.forall_mem_append, List.forall_mem_cons]
  exact ⟨⟨⟨plain_peerComment hp, by simp [Line.Plain, OneLine], ⟨by decide, hp.publicKey⟩,
    ⟨by decide, hc.preSharedKey⟩, ⟨by decide, hips⟩, by simp⟩,
    plain_optionalLine (by decide) hc.persistentKeepalive hkeepalive⟩, plain_endpointLine hp⟩

section Headings

variable (name : String)

@[simp]
theorem count_heading_optionalLine {directive : String} {o : Override}
    (hlines : optionalLine directive o = .ok lines) : lines.count (.heading name) = 0 := by
  rw [List.count_eq_zero]
  intro hheading
  obtain ⟨_, -, hline⟩ := directive_of_mem_optionalLine hlines hheading
  cases hline

@[simp]
theorem count_heading_listenLine (p : Peer) : (listenLine p).count (.heading name) = 0 := by
  unfold listenLine
  split <;> simp

@[simp]
theorem count_heading_endpointLine (p : Peer) : (endpointLine p).count (.heading name) = 0 := by
  unfold endpointLine
  split <;> simp

theorem count_heading_optionalLines (hlines : optionalLines p = .ok lines)
    : lines.count (.heading name) = 0 := by
  rw [List.count_eq_zero]
  intro hheading
  obtain ⟨_, -, _, -, hline⟩ := directive_of_mem_optionalLines hlines hheading
  cases hline

theorem count_heading_header (settings : Settings) (n : Network)
    : (header settings n).count (.heading name) = 0 := by
  unfold header
  simp

theorem count_heading_interfaceSection (hlines : interfaceSection settings p stripped = .ok lines)
    : lines.count (.heading name) = if "Interface" = name then 1 else 0 := by
  cases stripped with
  | true =>
    cases hlines
    simp [peerComment, List.count_cons]
  | false =>
    obtain ⟨address, optional, haddress, hoptional, rfl⟩ :=
      interfaceSection_false_eq_ok_iff.1 hlines
    obtain ⟨length, -, rfl⟩ := addressLine_eq_ok_iff.1 haddress
    simp [peerComment, List.count_cons, count_heading_optionalLines name hoptional]

theorem count_heading_linkSection (hlines : linkSection peerId link = .ok lines)
    : lines.count (.heading name) = if "Peer" = name then 1 else 0 := by
  obtain ⟨keepalive, hkeepalive, rfl⟩ := linkSection_eq_ok_iff.1 hlines
  simp [peerComment, List.count_cons, count_heading_optionalLine name hkeepalive]

end Headings

theorem count_heading_linkSections {links : List Link} {shown : List (List Line)} (name : String)
    (hshown : linkSections peerId links = .ok shown)
    : shown.flatten.count (.heading name) = if "Peer" = name then links.length else 0 := by
  induction links generalizing shown with
  | nil =>
    cases hshown
    simp
  | cons link rest ih =>
    obtain ⟨lines, more, hlines, hmore, rfl⟩ := linkSections_cons_eq_ok_iff.1 hshown
    rw [List.flatten_cons, List.count_append]
    rw [count_heading_linkSection name hlines, ih hmore]
    split
    . rw [List.length_cons, Nat.add_comm]
    . rfl

/--
The text has no carriage return. Cutting it at its line feeds gives the lines of the sections, an
empty one between two sections and one after the last line feed; cutting those at the empty ones
gives the sections; and every line of a section has something on it and reads back as what was
written.
-/
structure CutsBack (config : Config) : Prop where
  carriageReturn_notMem : '\r' ∉ config.text.toList
  lines_text : Text.lines config.text = config.rows ++ [""]
  splitOn_rows : config.rows.splitOn "" = config.sections.map (List.map Line.text)
  ofText?_text : ∀ lines ∈ config.sections, lines ≠ [] ∧ ∀ line ∈ lines,
    line.text ≠ "" ∧ Line.ofText? line.text = some line

theorem Plain.cutsBack {config : Config} (h : config.Plain) : config.CutsBack where
  carriageReturn_notMem := h.carriageReturn_notMem_text
  lines_text := h.lines_text
  splitOn_rows := h.splitOn_rows
  ofText?_text := by
    intro lines hlines
    refine ⟨h.section_ne_nil lines hlines, ?_⟩
    intro line hline
    exact ⟨line.text_ne_empty, (h.plain lines hlines line hline).ofText?_text⟩

end Config

namespace Network

variable {n : Network} {settings : Settings} {peerId : String} {sorted stripped : Bool}
  {config : Config}

theorem plain_of_clearedFor (hconfig : n.config settings peerId sorted stripped = .ok config)
    (hname : OneLine settings.generatorName) (hversion : OneLine settings.generatorVersion)
    (hcleared : n.ClearedFor peerId) : config.Plain := by
  obtain ⟨hne, hsection⟩ := sections_ne_nil hconfig
  obtain ⟨p, own, links, shown, hself, hown, hlinks, hshown, hsections⟩ := config_eq_ok_iff.1 hconfig
  have hp : p.OneLine := by
    obtain ⟨network, hp⟩ := hcleared.self p hself
    exact Peer.oneLine_of_complaints hp
  have hlink : ∀ link ∈ links, link.connection.OneLine ∧ link.other.OneLine := by
    intro link hmem
    have hentry : (link.id, link.connection) ∈ n.enabledOf peerId := by
      rw [← (perm_enabledOf hlinks).mem_iff]
      exact List.mem_map.2 ⟨link, hmem, rfl⟩
    refine ⟨Connection.oneLine_of_complaints (hcleared.connection _ hentry), ?_⟩
    obtain ⟨key, hother, hkey⟩ := other_of_mem_links hlinks hmem
    obtain ⟨network, hq⟩ := hcleared.other _ hentry key link.other hother hkey
    exact Peer.oneLine_of_complaints hq
  have hid := hcleared.identifier.oneLine_text
  refine ⟨hne, hsection, ?_⟩
  rw [hsections]
  simp only [List.forall_mem_cons]
  refine ⟨Config.plain_header hname hversion hid, Config.plain_interfaceSection hp hown, ?_⟩
  intro lines hlines
  obtain ⟨link, hmem, hlines⟩ := Config.exists_link_of_mem_linkSections hshown hlines
  exact Config.plain_linkSection (hlink link hmem).1 (hlink link hmem).2 hlines

theorem count_heading_sections (hconfig : n.config settings peerId sorted stripped = .ok config)
    (name : String)
    : config.sections.flatten.count (.heading name)
        =
      (if "Interface" = name then 1 else 0)
        + if "Peer" = name then (n.enabledOf peerId).length else 0 := by
  obtain ⟨p, own, links, shown, -, hown, hlinks, hshown, hsections⟩ := config_eq_ok_iff.1 hconfig
  rw [hsections]
  simp only [List.flatten_cons, List.count_append]
  rw [Config.count_heading_header, Config.count_heading_interfaceSection name hown]
  rw [Config.count_heading_linkSections name hshown]
  rw [Nat.zero_add]
  rw [← (perm_enabledOf hlinks).length_eq, List.length_map]

theorem config_cutsBack (hconfig : n.config settings peerId sorted stripped = .ok config)
    (hname : OneLine settings.generatorName) (hversion : OneLine settings.generatorVersion)
    (hcleared : n.ClearedFor peerId)
    : ∃ (p : Peer) (own : List Line) (links : List Link) (shown : List (List Line)),
        n.peers.get? peerId = some p
        ∧ Config.interfaceSection settings p stripped = .ok own
        ∧ n.links peerId sorted = .ok links
        ∧ (links.map fun link => (link.id, link.connection)).Perm (n.enabledOf peerId)
        ∧ links.map (Config.linkSection peerId) = shown.map .ok
        ∧ config.sections = Config.header settings n :: own :: shown
        ∧ (Config.header settings n).length = 2
        ∧ config.CutsBack
        ∧ (Text.lines config.text).count "[Interface]" = 1
        ∧ (Text.lines config.text).count "[Peer]" = (n.enabledOf peerId).length := by
  have hplain := plain_of_clearedFor hconfig hname hversion hcleared
  have hcount : ∀ name, OneLine name → (Text.lines config.text).count ("[" ++ name ++ "]")
      = (if "Interface" = name then 1 else 0)
        + if "Peer" = name then (n.enabledOf peerId).length else 0 := by
    intro name hone
    have hrows : config.rows.count (Line.heading name).text
        = config.sections.flatten.count (Line.heading name) :=
      hplain.count_rows hone
    rw [hplain.lines_text]
    rw [List.count_append]
    rw [← count_heading_sections hconfig name]
    rw [← hrows]
    simp [Line.text]
  obtain ⟨p, own, links, shown, hself, hown, hlinks, hshown, hsections⟩ := config_eq_ok_iff.1 hconfig
  refine ⟨p, own, links, shown, hself, hown, hlinks, perm_enabledOf hlinks,
    Config.linkSections_eq_ok_iff.1 hshown, hsections, rfl, hplain.cutsBack, ?_, ?_⟩
  . exact hcount "Interface" (by decide)
  . simpa using hcount "Peer" (by decide)

def disguisedPeer : Peer where
  id := "b0000000-0000-4000-8000-000000000000"
  name := "[Peer]"
  address := "10.0.0.1"
  mobility := .static
  endpoint := "vpn.example.com:51820"
  privateKey := "[Interface]"
  publicKey := "[Peer]"
  dns := ⟨true, .text "1.1.1.1, 8.8.8.8"⟩
  mtu := ⟨true, .number 1420⟩
  persistentKeepalive := .off
  hooks := { Hooks.none with preUp := ⟨true, .text "# [Peer];"⟩ }
  id_ne_empty := by decide

def disguisedOther : Peer :=
  { disguisedPeer with
    id := "a0000000-0000-4000-8000-000000000000"
    mobility := .roaming
    id_ne_empty := by decide }

def disguised : Network where
  identifier := "# network"
  subnet := "10.0.0.0/24"
  peers := ⟨[(disguisedPeer.id, disguisedPeer), (disguisedOther.id, disguisedOther)], by decide⟩
  connections :=
    ⟨[(⟨disguisedPeer.id, disguisedOther.id, by decide, by decide, by decide⟩,
       ⟨true, "[Interface]", "10.0.0.2/32", "10.0.0.1/32", ⟨true, .text "25"⟩⟩)], by decide⟩

theorem clearedFor_disguised : disguised.ClearedFor disguisedPeer.id where
  identifier := ⟨_, rfl⟩
  self := by
    intro p hp
    cases hp
    exact ⟨none, rfl⟩
  connection := by
    change ∀ entry ∈ [_], _
    rw [List.forall_mem_singleton]
    rfl
  other := by
    change ∀ entry ∈ [_], _
    rw [List.forall_mem_singleton]
    intro key p hkey hp
    cases hkey
    cases hp
    exact ⟨none, rfl⟩

theorem config_cutsBack_disguised
    : ∃ config, disguised.config .default disguisedPeer.id true false = .ok config
        ∧ OneLine Settings.default.generatorName ∧ OneLine Settings.default.generatorVersion
        ∧ disguised.ClearedFor disguisedPeer.id
        ∧ config.CutsBack
        ∧ (Text.lines config.text).count "[Interface]" = 1
        ∧ (Text.lines config.text).count "[Peer]" = 1 := by
  have hname : OneLine Settings.default.generatorName := by decide
  have hversion : OneLine Settings.default.generatorVersion := by decide
  obtain ⟨config, hconfig⟩ :
      ∃ config, disguised.config .default disguisedPeer.id true false = .ok config :=
    exists_config_true rfl
  obtain ⟨_, _, _, _, -, -, -, -, -, -, -, hback, hinterface, hpeer⟩ :=
    config_cutsBack hconfig hname hversion clearedFor_disguised
  exact ⟨config, hconfig, hname, hversion, clearedFor_disguised, hback, hinterface, hpeer⟩

end Network

end WireMesh
