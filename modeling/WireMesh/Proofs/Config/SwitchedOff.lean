import WireMesh.Proofs.Commit.Patch
import WireMesh.Proofs.Config.Reordered

/-!
This module contains what switching a connection off does to configurations. The section of the
connection goes, together with the empty line before it, and everything else stays as it was and
where it was, sorted or not. A configuration that has no such section does not change.
-/

namespace WireMesh

namespace Network

def switchOff (n : Network) (id : ConnectionId) : Network :=
  { n with connections := n.connections.mapValues fun key c =>
      if key = id then { c with enabled := false } else c }

variable {n : Network} {id : ConnectionId} {c : Connection} {peerId : String} {sorted : Bool}
  {links : List Link}

theorem switchOff_eq_insert (h : n.connections.get? id = some c)
    : n.switchOff id = { n with connections := n.connections.insert id { c with enabled := false } }
    := by
  have hconnections : (n.switchOff id).connections
      = n.connections.insert id { c with enabled := false } := by
    apply OrderedMap.ext_get?
    . rw [OrderedMap.keys_insert, if_pos (OrderedMap.mem_keys_of_get?_eq_some h)]
      exact n.connections.keys_mapValues _
    . intro key
      unfold switchOff
      rw [OrderedMap.get?_mapValues, OrderedMap.get?_insert]
      split
      . next hkey =>
        subst hkey
        rw [h, Option.map_some, if_pos rfl]
      . next hkey =>
        rw [if_neg (Ne.symm hkey)]
        exact Option.map_id'
  rw [← hconnections]
  rfl

theorem commitConnection_eq_switchOff {cs : ChangeSet} (h : n.connections.get? id = some c)
    (herrors : cs.hasErrors = false) (hpending : cs.pending.entries = [("enabled", .bool false)])
    : n.commitConnection id cs = .ok (n.switchOff id) := by
  refine commitConnection_eq_ok_iff.2
    ⟨herrors, c, { c with enabled := false }, h, ?_, switchOff_eq_insert h⟩
  rw [hpending]
  exact Commit.patch_eq_ok_iff.2 ⟨_, rfl, Connection.ofMembers_members { c with enabled := false }⟩

theorem linkTargets_switchOff (n : Network) (id : ConnectionId) (peerId : String)
    : (n.switchOff id).linkTargets peerId
        =
      (n.linkTargets peerId).filter fun target => target.1 ≠ id := by
  unfold linkTargets
  rw [List.filter_filterMap]
  change List.filterMap _ (n.connections.entries.map _) = _
  rw [List.filterMap_map]
  congr 1
  funext ⟨key, c⟩
  by_cases hid : key = id
  . subst hid
    cases c.enabled <;> cases key.other? peerId <;> simp [Option.filter_some]
  . cases henabled : c.enabled <;> cases hother : key.other? peerId <;>
      simp [hid, henabled, hother, Option.filter_some]

theorem resolveLinks_switchOff (n : Network) (id : ConnectionId)
    (targets : List (ConnectionId × Connection × String))
    : (n.switchOff id).resolveLinks targets = n.resolveLinks targets := by
  induction targets with
  | nil => rfl
  | cons target rest ih =>
    unfold resolveLinks
    rw [ih]
    rfl

theorem links_switchOff (id : ConnectionId) (h : n.links peerId sorted = .ok links)
    : (n.switchOff id).links peerId sorted = .ok (links.filter fun link => link.id ≠ id) := by
  have hunsorted : ∀ links, n.links peerId false = .ok links
      → (n.switchOff id).links peerId false = .ok (links.filter fun link => link.id ≠ id) := by
    intro links hlinks
    rw [links_false, resolveLinks_eq_ok_iff_forall₂] at hlinks ⊢
    rw [linkTargets_switchOff]
    refine List.rel_filter ?_ hlinks
    intro target link hresolves
    have hid : target.1 = link.id := congrArg Prod.fst hresolves
    dsimp only
    rw [hid]
  cases sorted with
  | false => exact hunsorted links h
  | true =>
    rw [links_true_eq_ok_iff] at h ⊢
    obtain ⟨unsorted, hlinks, rfl⟩ := h
    exact ⟨_, hunsorted unsorted hlinks,
      Text.mergeSort_filter (fun link : Link => link.other.id) _ unsorted⟩

theorem linkTargets_switchOff_of_unlinked (hc : n.connections.get? id = some c)
    (h : id.contains peerId = false ∨ c.enabled = false)
    : (n.switchOff id).linkTargets peerId = n.linkTargets peerId := by
  rw [linkTargets_switchOff, List.filter_eq_self]
  intro target htarget
  have hentry := List.mem_map_of_mem (f := fun target => (target.1, target.2.1)) htarget
  rw [map_linkTargets, mem_enabledOf_iff] at hentry
  obtain ⟨hget, hcontains, henabled⟩ := hentry
  rw [decide_eq_true_eq]
  rintro rfl
  cases hget.symm.trans hc
  obtain hother | hoff := h
  . rw [hother] at hcontains
    cases hcontains
  . rw [hoff] at henabled
    cases henabled

theorem config_switchOff_of_unlinked {settings : Settings} {stripped : Bool}
    (hc : n.connections.get? id = some c) (h : id.contains peerId = false ∨ c.enabled = false)
    : (n.switchOff id).config settings peerId sorted stripped
        =
      n.config settings peerId sorted stripped := by
  have hlinks : (n.switchOff id).links peerId sorted = n.links peerId sorted := by
    unfold links
    rw [linkTargets_switchOff_of_unlinked hc h, resolveLinks_switchOff]
  unfold config
  rw [hlinks]
  rfl

theorem exists_links_around (hlinks : n.links peerId sorted = .ok links)
    (hc : n.connections.get? id = some c) (hcontains : id.contains peerId = true)
    (henabled : c.enabled = true)
    : ∃ before link after, links = before ++ link :: after ∧ link.id = id ∧ link.connection = c
        ∧ (links.filter fun link => link.id ≠ id) = before ++ after := by
  have hentry : (id, c) ∈ links.map fun link => (link.id, link.connection) := by
    rw [(perm_enabledOf hlinks).mem_iff, mem_enabledOf_iff]
    exact ⟨hc, hcontains, henabled⟩
  obtain ⟨link, hlink, heq⟩ := List.mem_map.1 hentry
  cases heq
  obtain ⟨before, after, rfl⟩ := List.append_of_mem hlink
  have hne := pairwise_id_ne hlinks
  rw [List.pairwise_append, List.pairwise_cons] at hne
  obtain ⟨-, ⟨hafter, -⟩, hbefore⟩ := hne
  refine ⟨before, link, after, rfl, rfl, rfl, ?_⟩
  rw [List.filter_append, List.filter_cons_of_neg (by simp)]
  rw [List.filter_eq_self.2, List.filter_eq_self.2]
  . intro other hother
    exact decide_eq_true (hafter other hother).symm
  . intro other hother
    exact decide_eq_true (hbefore other hother link List.mem_cons_self)

theorem config_switchOff {settings : Settings} {stripped : Bool}
    (hc : n.connections.get? id = some c)
    : (id.contains peerId = false ∨ c.enabled = false
          → (n.switchOff id).config settings peerId sorted stripped
            = n.config settings peerId sorted stripped)
      ∧ (∀ config, n.config settings peerId sorted stripped = .ok config
          → id.contains peerId = true → c.enabled = true
          → ∃ before link after, n.links peerId sorted = .ok (before ++ link :: after)
              ∧ link.id = id ∧ link.connection = c ∧ (∀ other ∈ before ++ after, other.id ≠ id)
              ∧ ∃ p own earlier lines below, n.peers.get? peerId = some p
                ∧ Config.interfaceSection settings p stripped = .ok own
                ∧ Config.linkSections peerId before = .ok earlier
                ∧ Config.linkSection peerId link = .ok lines
                ∧ Config.linkSections peerId after = .ok below
                ∧ ∃ above, above = Config.header settings n :: own :: earlier
                  ∧ config = ⟨above ++ lines :: below⟩
                  ∧ (n.switchOff id).config settings peerId sorted stripped = .ok ⟨above ++ below⟩
                  ∧ ∃ head tail, config.text
                        = head ++ "\n\n" ++ Config.sectionText lines ++ "\n" ++ tail
                      ∧ Config.text ⟨above ++ below⟩ = head ++ "\n" ++ tail) := by
  refine ⟨config_switchOff_of_unlinked hc, ?_⟩
  intro config hconfig hcontains henabled
  obtain ⟨p, own, links, shown, hp, hown, hlinks, hshown, hsections⟩ := config_eq_ok_iff.1 hconfig
  have hoff := links_switchOff id hlinks
  obtain ⟨before, link, after, rfl, hid, hconnection, hfilter⟩ :=
    exists_links_around hlinks hc hcontains henabled
  rw [hfilter] at hoff
  have hothers : ∀ other ∈ before ++ after, other.id ≠ id := by
    rw [← hfilter]
    intro other hother
    exact of_decide_eq_true (List.mem_filter.1 hother).2
  obtain ⟨earlier, _, hearlier, hrest, rfl⟩ := Config.linkSections_append_eq_ok_iff.1 hshown
  obtain ⟨lines, below, hlines, hbelow, rfl⟩ := Config.linkSections_cons_eq_ok_iff.1 hrest
  cases config
  cases hsections
  obtain ⟨head, tail, htext, htextOff⟩ := Config.exists_text_around
    (List.cons_ne_nil (Config.header settings n) (own :: earlier)) below
  refine ⟨before, link, after, hlinks, hid, hconnection, hothers, p, own, earlier, lines, below,
    hp, hown, hearlier, hlines, hbelow, _, rfl, rfl, ?_, head, tail, htext _, htextOff⟩
  exact config_eq_ok_iff.2 ⟨p, own, _, _, hp, hown, hoff,
    Config.linkSections_append_eq_ok_iff.2 ⟨_, _, hearlier, hbelow, rfl⟩, rfl⟩

def twinPeer (name : String) : Peer :=
  { cabinPeer with id := "twin", name := name, id_ne_empty := by decide }

def twinLeft : ConnectionId :=
  ⟨"wharf", "left", by decide, by decide, by decide⟩

def twinSide : ConnectionId :=
  ⟨"right", "left", by decide, by decide, by decide⟩

def twinMesh : Network where
  identifier := "mesh"
  subnet := "10.0.0.0/24"
  peers := ⟨[("wharf", hubPeer), ("left", twinPeer "left"), ("right", twinPeer "right")], by decide⟩
  connections :=
    ⟨[(⟨"wharf", "right", by decide, by decide, by decide⟩, ⟨true, "", "", "", .off⟩),
      (twinLeft, ⟨true, "", "", "", .off⟩), (twinSide, ⟨true, "", "", "", .off⟩)], by decide⟩

theorem config_switchOff_twinMesh
    : ∃ config, twinMesh.config .default "wharf" true false = .ok config
        ∧ (twinMesh.switchOff twinSide).config .default "wharf" true false = .ok config
        ∧ ∃ link lines above below head tail, link.id = twinLeft
          ∧ Config.linkSection "wharf" link = .ok lines
          ∧ config = ⟨above ++ lines :: below⟩
          ∧ (twinMesh.switchOff twinLeft).config .default "wharf" true false = .ok ⟨above ++ below⟩
          ∧ config.text = head ++ "\n\n" ++ Config.sectionText lines ++ "\n" ++ tail
          ∧ Config.text ⟨above ++ below⟩ = head ++ "\n" ++ tail := by
  obtain ⟨config, hconfig⟩ :
      ∃ config, twinMesh.config .default "wharf" true false = .ok config := exists_config_true rfl
  have hside : twinMesh.connections.get? twinSide = some ⟨true, "", "", "", .off⟩ := rfl
  have hleft : twinMesh.connections.get? twinLeft = some ⟨true, "", "", "", .off⟩ := rfl
  obtain ⟨_, link, _, -, hid, -, -, _, _, _, lines, below, -, -, -, hlines, -, above, -, hsections,
    hoff, head, tail, htext, htextOff⟩ := (config_switchOff hleft).2 config hconfig rfl rfl
  exact ⟨config, hconfig, ((config_switchOff hside).1 (.inl rfl)).trans hconfig, link, lines, above,
    below, head, tail, hid, hlines, hsections, hoff, htext, htextOff⟩

end Network

end WireMesh
