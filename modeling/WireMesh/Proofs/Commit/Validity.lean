import WireMesh.Proofs.ChangeSet.Run
import WireMesh.Proofs.Commit.Patch
import WireMesh.Proofs.Field.Vetted

/-!
This module contains what editing does to the checks of a network. What is committed was accepted
when it was edited, and is accepted again as a part of the peer or connection that it was read into.
The endpoint is the exception: it is not checked while the peer cannot be dialled, and it may have
been switched off.
-/

namespace WireMesh

open Commit

def Commit.Reported (context : Option Context) (changes : List (String × Value)) : Prop :=
  ∀ change ∈ changes, ∃ v, v.isPlain = true
    ∧ validate change.1 v context = .ok (.accepted change.2)

namespace Commit.Reported

variable {context : Option Context} {changes : List (String × Value)}

theorem of_run {edits : List Edit} (hplain : ∀ e ∈ edits, e.value.isPlain = true)
    : Reported context (ChangeSet.run context edits).pending.entries := by
  intro change hmem
  have hget := OrderedMap.get?_eq_some_iff.2 hmem
  obtain ⟨e, he, -, haccepted⟩ := ChangeSet.reported_of_get?_pending_run hget
  exact ⟨e.value, hplain e he, haccepted⟩

variable (h : Reported context changes)

include h

theorem of_get? {field : String} {v : Value} (hget : Entries.get? changes field = some v)
    : ∃ payload, payload.isPlain = true
        ∧ validate field payload context = .ok (.accepted v) :=
  h _ (Entries.mem_of_get?_eq_some hget)

theorem setsHooks : ∀ change ∈ changes, SetsHooks change := by
  rintro ⟨field, v⟩ hmem
  obtain ⟨payload, hplain, haccepted⟩ := h _ hmem
  apply setsHooks_of_reported haccepted
  intro members hgroup
  exact (Field.isPlain_group hplain hgroup).1

theorem accepts_text {field old new : String} {rule : TextRule}
    (hrule : Rule.ofField? field = some (.text rule)) (hold : Accepts field (.text old) context)
    (hread : ((Entries.get? changes field).getD (.text old)).readText = .ok new)
    : Accepts field (.text new) context := by
  cases hget : Entries.get? changes field with
  | none =>
    rw [hget] at hread
    cases hread
    exact hold
  | some v =>
    obtain ⟨payload, -, haccepted⟩ := h.of_get? hget
    obtain ⟨s, rfl, hs⟩ := reported_text hrule haccepted
    rw [hget] at hread
    cases hread
    exact hs

theorem accepts_override {field : String} {old new : Override} {rule : ToggleRule}
    (hrule : Rule.ofField? field = some (.toggle rule))
    (hold : Accepts field (.override old) context)
    (hread : Override.ofValue ((Entries.get? changes field).getD old.toValue) = .ok new)
    : Accepts field (.override new) context := by
  cases hget : Entries.get? changes field with
  | none =>
    rw [hget] at hread
    rw [← Override.ofValue_toValue_eq_ok_iff.1 hread]
    exact hold
  | some v =>
    obtain ⟨payload, hplain, haccepted⟩ := h.of_get? hget
    rw [hget] at hread
    exact accepts_override_of_reported hrule hplain haccepted hread

theorem of_hookValue? {hook : Hook} {change : String × Value} {v : Value} (hmem : change ∈ changes)
    (hv : hookValue? hook change = some v)
    : ∃ payload, payload.isPlain = true
        ∧ validate hook.key payload context = .ok (.accepted v) := by
  obtain ⟨payload, hplain, haccepted⟩ := h _ hmem
  unfold hookValue? at hv
  split at hv
  . next hfield =>
    cases hv
    rw [hfield] at haccepted
    exact ⟨payload, hplain, haccepted⟩
  . split at hv
    . next hfield =>
      rw [hfield] at haccepted
      obtain ⟨members, hgroup, hreported, hall⟩ := reported_group haccepted
      obtain ⟨w, hw, hwaccepted⟩ := hall hook
      rw [hreported] at hv
      rw [Option.filter_eq_some_iff] at hv
      have hget : Entries.get? (Value.plainMembers members) hook.key = some v := hv.1
      rw [Value.get?_plainMembers, hw] at hget
      cases hget
      exact ⟨w, Value.isPlain_of_get? (Field.isPlain_group hplain hgroup).2 hw, hwaccepted⟩
    . cases hv

theorem accepts_hook {hook : Hook} {old new : Override}
    (hold : Accepts hook.key (.override old) context)
    (hread : Override.ofValue ((changes.reverse.findSome? (hookValue? hook)).getD old.toValue)
      = .ok new)
    : Accepts hook.key (.override new) context := by
  cases hfind : changes.reverse.findSome? (hookValue? hook) with
  | none =>
    rw [hfind] at hread
    rw [← Override.ofValue_toValue_eq_ok_iff.1 hread]
    exact hold
  | some v =>
    obtain ⟨change, hmem, hv⟩ := List.exists_of_findSome?_eq_some hfind
    obtain ⟨payload, hplain, haccepted⟩ := h.of_hookValue? (List.mem_reverse.1 hmem) hv
    rw [hfind] at hread
    exact accepts_override_of_reported (Rule.ofField?_key hook) hplain haccepted hread

end Commit.Reported

theorem Peer.PatchedBy.vetted {changes : List (String × Value)} {p p' : Peer}
    {context : Option Context} (hpatched : PatchedBy changes p p') (h : Reported context changes)
    (hp : p.Vetted context) : p'.Vetted context where
  id := by
    rw [hpatched.id]
    exact hp.id
  name := h.accepts_text rfl hp.name hpatched.name
  address := h.accepts_text rfl hp.address hpatched.address
  privateKey := h.accepts_text rfl hp.privateKey hpatched.privateKey
  publicKey := h.accepts_text rfl hp.publicKey hpatched.publicKey
  dns := h.accepts_override rfl hp.dns hpatched.dns
  mtu := h.accepts_override rfl hp.mtu hpatched.mtu
  persistentKeepalive :=
    h.accepts_override rfl hp.persistentKeepalive hpatched.persistentKeepalive
  hook := fun hook => h.accepts_hook (hp.hook hook) (hpatched.hook hook)

theorem Connection.PatchedBy.vetted {changes : List (String × Value)} {c c' : Connection}
    (hpatched : PatchedBy changes c c') (h : Reported none changes) (hc : c.Vetted)
    : c'.Vetted where
  preSharedKey := h.accepts_text rfl hc.preSharedKey hpatched.preSharedKey
  allowedGreaterToLesser :=
    h.accepts_text rfl hc.allowedGreaterToLesser hpatched.allowedGreaterToLesser
  allowedLesserToGreater :=
    h.accepts_text rfl hc.allowedLesserToGreater hpatched.allowedLesserToGreater
  persistentKeepalive :=
    h.accepts_override rfl hc.persistentKeepalive hpatched.persistentKeepalive

namespace Network

variable {n : Network} {key : String} {p : Peer}

theorem vetted_insert (h : p.Vetted (some ⟨n, some key⟩))
    : p.Vetted (some ⟨{ n with peers := n.peers.insert key p }, some key⟩) := by
  apply h.address_congr
  . rfl
  . exact TextRule.holder?_insert h.address.holder?_eq_none p

theorem complaints_insert_other {other : String} {q : Peer}
    (h : p.Vetted (some ⟨n, some key⟩)) (hne : other ≠ key) (hq : n.peers.get? other = some q)
    (hclean : q.complaints (some n) = .ok [])
    : q.complaints (some { n with peers := n.peers.insert key p }) = .ok [] := by
  have hid := Peer.key_eq_id hq hclean
  rw [Peer.complaints_eq_nil_iff] at hclean ⊢
  obtain ⟨hvetted, hendpoint⟩ := hclean
  have hholder : TextRule.holder?
      ⟨{ n with peers := n.peers.insert key p }, some q.id⟩ q.address = none := by
    rw [TextRule.holder?_eq_none_iff]
    intro k r hr
    rw [OrderedMap.get?_insert] at hr
    split at hr
    . cases hr
      right
      have hfree := TextRule.holder?_eq_none_iff.1 h.address.holder?_eq_none other q hq
      simp only [Option.some.injEq, hne, false_or] at hfree
      exact hfree.symm
    . exact TextRule.holder?_eq_none_iff.1 hvetted.address.holder?_eq_none k r hr
  exact ⟨hvetted.address_congr _ rfl hholder, hendpoint⟩

end Network

def Edit.SwitchesOff (e : Edit) : Prop :=
  e.field = "endpoint" ∧ ∃ value, Field.ofValue? e.value = some (.toggle (.bool false) value)

theorem Peer.PatchedBy.endpoint_cases {context : Option Context} {edits : List Edit} {p p' : Peer}
    (hpatched : PatchedBy (ChangeSet.run context edits).pending.entries p p')
    (hplain : ∀ e ∈ edits, e.value.isPlain = true)
    : p'.endpoint = p.endpoint ∨ Accepts "endpoint" (.text p'.endpoint) none
        ∨ (p'.endpoint = "" ∧ ∃ e ∈ edits, e.SwitchesOff) := by
  have hread := hpatched.endpoint
  cases hget : Entries.get? (ChangeSet.run context edits).pending.entries "endpoint" with
  | none =>
    rw [hget] at hread
    left
    exact (Option.some.inj (Value.readText_eq_ok_iff.1 hread)).symm
  | some v =>
    obtain ⟨e, he, hfield, haccepted⟩ := ChangeSet.reported_of_get?_pending_run hget
    obtain ⟨s, rfl, hs⟩ := reported_endpoint haccepted
    rw [hget] at hread
    rw [← Option.some.inj (Value.readText_eq_ok_iff.1 hread)]
    right
    obtain hs | ⟨rfl, flag, value, hf, hflag⟩ := hs
    . left
      rw [accepts_congr (by decide) _ context]
      exact hs
    . right
      refine ⟨rfl, e, he, hfield, value, ?_⟩
      obtain ⟨b, rfl⟩ := Field.flag_of_isPlain (hplain e he) hf
      cases b with
      | true => cases hflag
      | false => exact hf

theorem Peer.PatchedBy.endpoint_eq_error_iff {context : Option Context} {edits : List Edit}
    {p p' : Peer} {e : Decimal.TooManyDigits}
    (hpatched : PatchedBy (ChangeSet.run context edits).pending.entries p p')
    (hplain : ∀ e ∈ edits, e.value.isPlain = true)
    (hendpoint : p.isStatic = true → Accepts "endpoint" (.text p.endpoint) none)
    : (p'.isStatic = true ∧ validate "endpoint" (.text p'.endpoint) none = .error e)
        ↔
      p.isStatic = false ∧ p'.isStatic = true ∧ p'.endpoint = p.endpoint
        ∧ validate "endpoint" (.text p.endpoint) none = .error e := by
  constructor
  . rintro ⟨hstatic', herror⟩
    obtain hkept | ⟨_, haccepted⟩ | ⟨hoff, -⟩ := hpatched.endpoint_cases hplain
    . rw [hkept] at herror
      refine ⟨?_, hstatic', hkept, herror⟩
      apply eq_false_of_ne_true
      intro hstatic
      obtain ⟨_, haccepted⟩ := hendpoint hstatic
      rw [haccepted] at herror
      cases herror
    . rw [haccepted] at herror
      cases herror
    . rw [hoff] at herror
      cases herror
  . rintro ⟨-, hstatic', hkept, herror⟩
    rw [hkept]
    exact ⟨hstatic', herror⟩

/--
What a commit of edits to the peer `p` under `key`, which has become `p'`, leaves of the checks of
the peers, if `p` had no complaint.
-/
structure Network.KeepsChecks (n n' : Network) (key : String) (edits : List Edit) (p p' : Peer)
    : Prop where
  eq_endpoint : ∀ found, p'.complaints (some n') = .ok found
    → ∀ entry ∈ found, entry.1 = "endpoint"
  static : p.isStatic = true → (∀ e ∈ edits, ¬ e.SwitchesOff) → p'.complaints (some n') = .ok []
  /--
  The check fails only on the endpoint of a peer that could not be dialled and now can, if the
  endpoint is still the old one.
  -/
  error_iff : ∀ e, p'.complaints (some n') = .error e
      ↔
    p.isStatic = false ∧ p'.isStatic = true ∧ p'.endpoint = p.endpoint
      ∧ validate "endpoint" (.text p.endpoint) none = .error e
  other : ∀ k q, k ≠ key → n.peers.get? k = some q → q.complaints (some n) = .ok []
    → n'.peers.get? k = some q ∧ q.complaints (some n') = .ok []

namespace Network

variable {n n' : Network} {key : String} {p : Peer} {edits : List Edit}

theorem keepsChecks_commitPeer (hp : n.peers.get? key = some p)
    (hclean : p.complaints (some n) = .ok []) (hplain : ∀ e ∈ edits, e.value.isPlain = true)
    (hcommit : n.commitPeer key (ChangeSet.run (some ⟨n, some key⟩) edits) = .ok n')
    : ∃ p', n'.peers.get? key = some p' ∧ KeepsChecks n n' key edits p p' := by
  rw [commitPeer_eq_ok_iff] at hcommit
  obtain ⟨-, _, p', hp', hpatch, rfl⟩ := hcommit
  rw [hp] at hp'
  cases hp'
  have hreported : Commit.Reported (some ⟨n, some key⟩) _ := .of_run hplain
  have hpatched := Peer.patchedBy_of_patch hpatch (OrderedMap.nodup _) hreported.setsHooks
  have hid : key = p.id := Peer.key_eq_id hp hclean
  obtain ⟨hvetted, hendpoint⟩ := Peer.complaints_eq_nil_iff.1 hclean
  have hold : p'.Vetted (some ⟨n, some key⟩) := by
    apply hpatched.vetted hreported
    rw [hid]
    exact hvetted
  have hcomplaints : p'.complaints (some { n with peers := n.peers.insert key p' })
      = complaints p'.checkedEndpoint
          (some ⟨{ n with peers := n.peers.insert key p' }, some p'.id⟩) := by
    apply Peer.complaints_of_vetted
    rw [hpatched.id]
    rw [← hid]
    exact vetted_insert hold
  refine ⟨p', OrderedMap.get?_insert_self .., ?_, ?_, ?_, ?_⟩
  -- The endpoint is the only field left to be complained about.
  . intro found hfound entry hentry
    rw [hcomplaints] at hfound
    have hkey := mem_keys_of_complaints hfound entry hentry
    unfold Peer.checkedEndpoint at hkey
    split at hkey
    . exact List.mem_singleton.1 hkey
    . cases hkey
  . intro hstatic hoff
    rw [hcomplaints]
    rw [Peer.complaints_checkedEndpoint_eq_nil_iff]
    intro _
    obtain hkept | haccepted | ⟨-, e, he, hswitch⟩ := hpatched.endpoint_cases hplain
    . rw [hkept]
      exact hendpoint hstatic
    . exact haccepted
    . exact (hoff e he hswitch).elim
  . intro e
    rw [hcomplaints]
    rw [Peer.complaints_checkedEndpoint_eq_error_iff]
    exact hpatched.endpoint_eq_error_iff hplain hendpoint
  . intro other q hne hq hcleanq
    refine ⟨?_, complaints_insert_other hold hne hq hcleanq⟩
    rw [OrderedMap.get?_insert_of_ne _ _ hne.symm]
    exact hq

theorem complaints_commitConnection {id : ConnectionId} {c : Connection}
    (hc : n.connections.get? id = some c) (hclean : c.complaints = .ok [])
    (hplain : ∀ e ∈ edits, e.value.isPlain = true)
    (hcommit : n.commitConnection id (ChangeSet.run none edits) = .ok n')
    : ∃ c', n'.connections.get? id = some c' ∧ c'.complaints = .ok [] := by
  rw [commitConnection_eq_ok_iff] at hcommit
  obtain ⟨-, _, c', hc', hpatch, rfl⟩ := hcommit
  rw [hc] at hc'
  cases hc'
  have hpatched := Connection.patchedBy_of_patch hpatch (OrderedMap.nodup _)
  refine ⟨c', OrderedMap.get?_insert_self .., ?_⟩
  rw [Connection.complaints_eq_nil_iff] at hclean ⊢
  exact hpatched.vetted (.of_run hplain) hclean

theorem commit_keepsChecks (n : Network)
    : (∀ (n' : Network) (key : String) (p : Peer) (edits : List Edit),
        n.peers.get? key = some p → p.complaints (some n) = .ok []
        → (∀ e ∈ edits, e.value.isPlain = true)
        → n.commitPeer key (ChangeSet.run (some ⟨n, some key⟩) edits) = .ok n'
        → ∃ p', n'.peers.get? key = some p' ∧ KeepsChecks n n' key edits p p')
      ∧ ∀ (n' : Network) (id : ConnectionId) (c : Connection) (edits : List Edit),
        n.connections.get? id = some c → c.complaints = .ok []
        → (∀ e ∈ edits, e.value.isPlain = true)
        → n.commitConnection id (ChangeSet.run none edits) = .ok n'
        → ∃ c', n'.connections.get? id = some c' ∧ c'.complaints = .ok [] := by
  constructor
  . intro n' key p edits hp hclean hplain hcommit
    exact keepsChecks_commitPeer hp hclean hplain hcommit
  . intro n' id c edits hc hclean hplain hcommit
    exact complaints_commitConnection hc hclean hplain hcommit

def roamerId : String := "a0000000-0000-4000-8000-000000000000"

def roamer (endpoint : String) : Peer where
  id := roamerId
  name := "laptop"
  address := "10.0.0.2"
  mobility := .roaming
  endpoint := endpoint
  privateKey := "private"
  publicKey := "public"
  dns := .off
  mtu := .off
  persistentKeepalive := .off
  hooks := .none
  id_ne_empty := by decide

def roamerLink : ConnectionId :=
  ⟨"b0000000-0000-4000-8000-000000000000", roamerId, by decide, by decide, by decide⟩

def roaming (endpoint : String) : Network where
  identifier := "office"
  subnet := "10.0.0.0/24"
  peers := ⟨[(roamerId, roamer endpoint)], by simp [Entries.keys]⟩
  connections :=
    ⟨[(roamerLink, ⟨true, "shared", "10.0.0.2/32", "10.0.0.1/32", .off⟩)], by decide⟩

def settle : Edit := ⟨"mobility", .text "static", .text "roaming"⟩

def widen : Edit := ⟨"allowed_ips_a_to_b", .text "10.0.0.0/24", .text "10.0.0.2/32"⟩

theorem commitPeer_settle (endpoint : String)
    : (roaming endpoint).commitPeer roamerId
        (ChangeSet.run (some ⟨roaming endpoint, some roamerId⟩) [settle])
      = .ok { roaming endpoint with
          peers := (roaming endpoint).peers.insert roamerId
            { roamer endpoint with mobility := .static } } := by
  rfl

theorem commit_keepsChecks_roaming
    : ∃ n₁ n₂ p' c',
        (roaming "vpn.example.com:51820").commitPeer roamerId (ChangeSet.run
          (some ⟨roaming "vpn.example.com:51820", some roamerId⟩) [settle]) = .ok n₁
        ∧ n₁.peers.get? roamerId = some p'
        ∧ KeepsChecks (roaming "vpn.example.com:51820") n₁ roamerId [settle]
            (roamer "vpn.example.com:51820") p'
        ∧ (roaming "").commitConnection roamerLink (ChangeSet.run none [widen]) = .ok n₂
        ∧ n₂.connections.get? roamerLink = some c'
        ∧ c'.complaints = .ok [] := by
  have hwiden : ∃ n₂, (roaming "").commitConnection roamerLink (ChangeSet.run none [widen])
      = .ok n₂ := ⟨_, rfl⟩
  obtain ⟨n₂, hconnection⟩ := hwiden
  obtain ⟨p', hp', hkeeps⟩ := (commit_keepsChecks (roaming "vpn.example.com:51820")).1
    _ roamerId _ [settle] rfl rfl (by decide) (commitPeer_settle "vpn.example.com:51820")
  obtain ⟨c', hc', hclean⟩ := (commit_keepsChecks (roaming "")).2
    _ roamerLink _ [widen] rfl rfl (by decide) hconnection
  exact ⟨_, n₂, p', c', commitPeer_settle _, hp', hkeeps, hconnection, hc', hclean⟩

def unreadable : String :=
  String.ofList ('h' :: ':' :: List.replicate (Decimal.digitLimit + 1) '1')

theorem validate_unreadable
    : validate "endpoint" (.text unreadable) none = .error ⟨Decimal.digitLimit + 1⟩ := by
  rw [validate_endpoint_eq_error_iff]
  rw [← Text.any_isLineBreak_eq_false_iff]
  unfold unreadable
  rw [String.toList_ofList]
  refine ⟨?_, ['h'], List.replicate (Decimal.digitLimit + 1) '1', ?_, ?_, ?_, ?_⟩
  . simp [List.any_replicate, Value.isLineBreak]
  . rw [Text.splitLast_eq_some_iff]
    refine ⟨rfl, ?_⟩
    rw [List.mem_replicate]
    simp
  . simp [Decimal.isNumeral, List.all_replicate]
  . simp
  . simp

theorem not_checked_unreadable
    : (roaming unreadable).peers.get? roamerId = some (roamer unreadable)
        ∧ (roamer unreadable).complaints (some (roaming unreadable)) = .ok []
        ∧ settle.value.isPlain = true
        ∧ ∃ n' p', (roaming unreadable).commitPeer roamerId
              (ChangeSet.run (some ⟨roaming unreadable, some roamerId⟩) [settle]) = .ok n'
            ∧ n'.peers.get? roamerId = some p'
            ∧ ¬ ∃ found, p'.complaints (some n') = .ok found
                ∧ ∀ entry ∈ found, entry.1 = "endpoint" := by
  refine ⟨rfl, rfl, rfl, _, _, commitPeer_settle unreadable, rfl, ?_⟩
  rintro ⟨found, hfound, -⟩
  have hplain : ∀ e ∈ [settle], e.value.isPlain = true := by decide
  obtain ⟨p', hp', hkeeps⟩ := keepsChecks_commitPeer rfl rfl hplain (commitPeer_settle unreadable)
  cases hp'
  have herror := (hkeeps.error_iff _).2 ⟨rfl, rfl, rfl, validate_unreadable⟩
  rw [herror] at hfound
  cases hfound

end Network

end WireMesh
