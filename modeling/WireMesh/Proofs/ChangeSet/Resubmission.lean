import WireMesh.Proofs.Field.Failure
import WireMesh.Proofs.Field.PlainForm
import WireMesh.Proofs.Field.Vetted
import WireMesh.Proofs.Network.RoundTrip
import WireMesh.Proofs.Value.Same
import WireMesh.Session

/-!
This module contains what becomes of an edit that submits the committed value of a field once more.
An accepted value is reported in its plain form, which is that of the committed one, so nothing is
changed. The exception are the two settings that are numbers: one that is committed as a numeral is
reported as the number it stands for, and that is a change.
-/

namespace WireMesh

inductive Value.Held : Value → Prop where
  | text (s : String) : Held (.text s)
  | mobility (m : Mobility) : Held (.mobility m)
  | override (o : Override) : Held (.override o)
  | hooks (h : Hooks) : Held (.hooks h)

theorem Value.Held.same_toPlain {v : Value} (h : v.Held)
    : v.toPlain.untagged.same v.untagged = true := by
  cases h with
  | text s => exact same_self rfl
  | mobility m => exact same_self rfl
  | override o => exact same_self o.isPlain_toValue
  | hooks h => exact same_self h.isPlain_toValue

def Rule.numberFields : List String := ["mtu", "persistent_keepalive"]

theorem Rule.mem_numberFields_iff {field : String} {rule : ToggleRule}
    (h : ofField? field = some (.toggle rule))
    : field ∈ numberFields ↔ rule = .mtu ∨ rule = .keepalive := by
  have hnumber := @ofField?_eq_number_iff field
  rw [h] at hnumber
  simpa [numberFields] using hnumber.symm

def SpelledOut (field : String) (committed : Value) : Prop :=
  field ∈ Rule.numberFields ∧ ∃ s, committed = .override ⟨true, .text s⟩

namespace ChangeSet

variable {field : String} {v committed reported : Value} {context : Option Context}

def cleared (cs : ChangeSet) (field : String) : ChangeSet :=
  ⟨cs.errors.insert field none, cs.changed.insert field .null⟩

theorem track_of_same (cs : ChangeSet) (h : validate field v context = .ok (.accepted reported))
    (hsame : reported.untagged.same committed.untagged = true)
    : cs.track field field v committed context = .ok (.unchanged, cs.cleared field) := by
  unfold track
  rw [h]
  dsimp only
  unfold record Ruling.verdict
  rw [if_pos rfl, if_pos hsame]
  rfl

theorem track_of_not_same (cs : ChangeSet) (h : validate field v context = .ok (.accepted reported))
    (hsame : reported.untagged.same committed.untagged = false)
    : cs.track field field v committed context
        =
      .ok (.changed, ⟨cs.errors.insert field none, cs.changed.insert field reported⟩) := by
  unfold track
  rw [h]
  dsimp only
  unfold record Ruling.verdict
  rw [if_pos rfl, if_neg (ne_true_of_eq_false hsame)]

structure Resubmission (field : String) (committed : Value) (context : Option Context) : Prop where
  unchanged : ¬ SpelledOut field committed
    → ∀ cs : ChangeSet, cs.track field field committed committed context
      = .ok (.unchanged, cs.cleared field)
  changed : field ∈ Rule.numberFields → ∀ s, committed = .override ⟨true, .text s⟩
    → ∃ n, ToggleRule.readInt (.text s) = .ok (some n)
      ∧ ∀ cs : ChangeSet, cs.track field field committed committed context
        = .ok (.changed,
            ⟨cs.errors.insert field none, cs.changed.insert field (.pair (.bool true) (.int n))⟩)

theorem resubmission_of_same (h : validate field committed context = .ok (.accepted reported))
    (hsame : reported.untagged.same committed.untagged = true)
    (hspelled : ¬ SpelledOut field committed) : Resubmission field committed context where
  unchanged := fun _ cs => track_of_same cs h hsame
  changed := fun hfield s hs => (hspelled ⟨hfield, s, hs⟩).elim

theorem resubmission_of_normal {o : Override}
    (h : validate field (.override o) context = .ok (.accepted o.toValue))
    (hspelled : ¬ SpelledOut field (.override o)) : Resubmission field (.override o) context :=
  resubmission_of_same h (Value.same_self o.isPlain_toValue) hspelled

theorem not_same_spelled (n : Int) (s : String)
    : (Value.pair (.bool true) (.int n)).untagged.same
        (Value.override ⟨true, .text s⟩).untagged = false := by
  apply eq_false_of_ne_true
  intro hsame
  obtain ⟨w, hw, hvalue⟩ := (Value.same_object_iff.1 hsame).2 ("value", .int n) (by simp)
  cases hw
  cases hvalue

theorem resubmission_override {o : Override} (hfield : field ≠ "endpoint")
    (h : validate field (.override o) context = .ok (.accepted reported))
    : Resubmission field (.override o) context := by
  obtain ⟨rule, _, hrule, ⟨⟩, -, happly⟩ := validate_eq_accepted_iff.1 h
  obtain rfl | ⟨rule, rfl⟩ := Rule.exists_toggle_of_apply happly
  . exact (hfield (Rule.eq_endpoint_of_ofField? hrule)).elim
  rw [Rule.apply_toggle] at happly
  obtain ⟨flag, value, hf, hreported⟩ := ToggleRule.apply_eq_accepted_iff.1 happly
  cases hf
  have hnumber := Rule.mem_numberFields_iff hrule
  obtain ⟨enabled, content⟩ := o
  cases enabled with
  | false =>
    simp only [Value.isTruthy, Bool.false_eq_true, if_false] at hreported
    subst hreported
    apply resubmission_of_normal h
    rintro ⟨-, s, ⟨⟩⟩
  | true =>
    simp only [Value.isTruthy, if_true] at hreported
    obtain ⟨normal, haccept, rfl⟩ := hreported
    cases content with
    | number n =>
      cases ToggleRule.eq_of_accept?_int haccept
      apply resubmission_of_normal h
      rintro ⟨-, s, ⟨⟩⟩
    | text s =>
      have hnormal := ToggleRule.eq_of_accept? haccept
      split at hnormal
      . next hrule =>
        obtain ⟨n, hread, rfl⟩ := hnormal
        refine ⟨fun hspelled => (hspelled ⟨hnumber.2 hrule, s, rfl⟩).elim, ?_⟩
        rintro - _ ⟨⟩
        exact ⟨n, hread, fun cs => track_of_not_same cs h (not_same_spelled n s)⟩
      . next hrule =>
        cases hnormal
        apply resubmission_of_normal h
        rintro ⟨hspelled, -⟩
        exact hrule (hnumber.1 hspelled)

theorem resubmission_of_accepts (hheld : committed.Held)
    (hendpoint : field = "endpoint" → ∃ s, committed = .text s)
    (h : Accepts field committed context) : Resubmission field committed context := by
  obtain ⟨reported, h⟩ := h
  have hsame := hheld.same_toPlain
  cases hheld with
  | override o =>
    apply resubmission_override _ h
    intro hfield
    obtain ⟨s, ⟨⟩⟩ := hendpoint hfield
  | text s | mobility m | hooks hs =>
    obtain ⟨rule, f, -, hf, -, happly⟩ := validate_eq_accepted_iff.1 h
    have hreported : reported = f.toPlain := by
      apply Rule.eq_toPlain_of_apply happly
      rintro flag value rfl
      cases hf
    rw [← Value.toPlain_of_ofValue? hf] at hreported
    subst hreported
    apply resubmission_of_same h hsame
    rintro ⟨-, s, ⟨⟩⟩

end ChangeSet

structure Value.HeldAs (committed : Value) (field : String) (checked : Value) : Prop where
  held : committed.Held
  ofValue?_eq : Field.ofValue? committed = Field.ofValue? checked
  endpoint : field = "endpoint" → ∃ s, committed = .text s

theorem Value.HeldAs.resubmission {committed checked : Value} {field : String}
    {context : Option Context} (h : committed.HeldAs field checked)
    (haccepts : Accepts field checked context)
    : ChangeSet.Resubmission field committed context :=
  ChangeSet.resubmission_of_accepts h.held h.endpoint (haccepts.of_ofValue?_eq h.ofValue?_eq)

theorem Value.HeldAs.text (field s : String) : HeldAs (.text s) field (.text s) :=
  ⟨.text s, rfl, fun _ => ⟨s, rfl⟩⟩

theorem Value.HeldAs.of_ne {committed checked : Value} {field : String} (hheld : committed.Held)
    (heq : Field.ofValue? committed = Field.ofValue? checked) (hfield : field ≠ "endpoint")
    : committed.HeldAs field checked :=
  ⟨hheld, heq, fun h => (hfield h).elim⟩

theorem Peer.exists_heldAs (p : Peer)
    : ∀ entry ∈ p.checkedFields, ∃ committed, p.field? entry.1 = some committed
        ∧ committed.HeldAs entry.1 entry.2 := by
  unfold checkedFields
  simp only [List.forall_mem_append, List.forall_mem_cons]
  refine ⟨⟨⟨_, rfl, .text _ _⟩, ⟨_, rfl, .text _ _⟩, ⟨_, rfl, .text _ _⟩,
    ⟨_, rfl, .of_ne (.mobility _) rfl (by decide)⟩, ⟨_, rfl, .text _ _⟩, ⟨_, rfl, .text _ _⟩,
    ⟨_, rfl, .of_ne (.override _) rfl (by decide)⟩, ⟨_, rfl, .of_ne (.override _) rfl (by decide)⟩,
    ⟨_, rfl, .of_ne (.override _) rfl (by decide)⟩, ⟨_, rfl, .of_ne (.hooks _) rfl (by decide)⟩,
    List.forall_mem_nil _⟩, ?_⟩
  split
  . rw [List.forall_mem_singleton]
    exact ⟨_, rfl, .text _ _⟩
  . exact List.forall_mem_nil _

theorem Connection.exists_heldAs (c : Connection)
    : ∀ entry ∈ c.checkedFields, ∃ committed, c.field? entry.1 = some committed
        ∧ committed.HeldAs entry.1 entry.2 := by
  unfold checkedFields
  simp only [List.forall_mem_cons]
  exact ⟨⟨_, rfl, .text _ _⟩, ⟨_, rfl, .text _ _⟩, ⟨_, rfl, .text _ _⟩,
    ⟨_, rfl, .of_ne (.override _) rfl (by decide)⟩, List.forall_mem_nil _⟩

namespace Network

variable {n : Network}

theorem field?_peer {key : String} {p : Peer} (h : n.peers.get? key = some p) (field : String)
    : n.field? (.peer key) field = p.field? field := by
  change (n.peers.get? key).bind _ = _
  rw [h]
  rfl

theorem field?_connection {id : ConnectionId} {c : Connection} (h : n.connections.get? id = some c)
    (field : String) : n.field? (.connection id) field = c.field? field := by
  change (n.connections.get? id).bind _ = _
  rw [h]
  rfl

theorem track_committed (n : Network)
    : (∀ key p, n.peers.get? key = some p → p.complaints (some n) = .ok []
        → ∀ field ∈ Entries.keys p.checkedFields, ∃ committed,
            n.field? (.peer key) field = some committed
              ∧ ChangeSet.Resubmission field committed (some (n.contextOf (.peer key))))
      ∧ ∀ id c, n.connections.get? id = some c → c.complaints = .ok []
        → ∀ field ∈ Entries.keys c.checkedFields, ∃ committed,
            n.field? (.connection id) field = some committed
              ∧ ∀ context, ChangeSet.Resubmission field committed context := by
  constructor
  . intro key p hp hclean field hfield
    have hid := Peer.key_eq_id hp hclean
    unfold Peer.complaints at hclean
    rw [Option.map_some, ← hid] at hclean
    obtain ⟨entry, hentry, rfl⟩ := List.mem_map.1 hfield
    obtain ⟨committed, hcommitted, hheld⟩ := p.exists_heldAs entry hentry
    rw [field?_peer hp]
    exact ⟨committed, hcommitted,
      hheld.resubmission (complaints_eq_nil_iff.1 hclean entry hentry)⟩
  . intro id c hc hclean field hfield
    obtain ⟨entry, hentry, rfl⟩ := List.mem_map.1 hfield
    obtain ⟨committed, hcommitted, hheld⟩ := c.exists_heldAs entry hentry
    have haddress : ∀ field ∈ Entries.keys c.checkedFields, field ≠ "address" := by
      change ∀ field ∈ ["pre_shared_key", "allowed_ips_a_to_b", "allowed_ips_b_to_a",
        "persistent_keepalive"], _
      decide
    rw [field?_connection hc]
    refine ⟨committed, hcommitted, ?_⟩
    intro context
    apply hheld.resubmission
    rw [accepts_congr (haddress _ hfield) context none]
    exact complaints_eq_nil_iff.1 hclean entry hentry

def spelledPeer : Peer where
  id := "c0000000-0000-4000-8000-000000001420"
  name := "desk"
  address := "10.0.0.3"
  mobility := .static
  endpoint := "vpn.example.com:51820"
  privateKey := "private"
  publicKey := "public"
  dns := ⟨true, .text "10.0.0.1"⟩
  mtu := ⟨true, .text "1420"⟩
  persistentKeepalive := ⟨true, .number 25⟩
  hooks := .none
  id_ne_empty := by decide

def spelledLink : ConnectionId :=
  ⟨spelledPeer.id, "a0000000-0000-4000-8000-000000001420", by decide, by decide, by decide⟩

def spelledNetwork : Network where
  identifier := "office"
  subnet := "10.0.0.0/24"
  peers := ⟨[(spelledPeer.id, spelledPeer)], by decide⟩
  connections :=
    ⟨[(spelledLink, ⟨true, "shared", "10.0.0.2/32", "10.0.0.1/32", ⟨true, .text "25"⟩⟩)], by decide⟩

theorem complaints_spelledPeer : spelledPeer.complaints (some spelledNetwork) = .ok [] := by
  rfl

theorem track_committed_spelled
    : spelledNetwork.peers.get? spelledPeer.id = some spelledPeer
        ∧ spelledPeer.complaints (some spelledNetwork) = .ok []
        ∧ (∃ committed, spelledNetwork.field? (.peer spelledPeer.id) "endpoint" = some committed
            ∧ ¬ SpelledOut "endpoint" committed
            ∧ ∀ cs : ChangeSet, cs.track "endpoint" "endpoint" committed committed
                (some (spelledNetwork.contextOf (.peer spelledPeer.id)))
              = .ok (.unchanged, cs.cleared "endpoint"))
        ∧ ∃ c committed, spelledNetwork.connections.get? spelledLink = some c
            ∧ c.complaints = .ok []
            ∧ spelledNetwork.field? (.connection spelledLink) "allowed_ips_a_to_b" = some committed
            ∧ ¬ SpelledOut "allowed_ips_a_to_b" committed
            ∧ ∀ cs : ChangeSet, cs.track "allowed_ips_a_to_b" "allowed_ips_a_to_b" committed
                committed none
              = .ok (.unchanged, cs.cleared "allowed_ips_a_to_b") := by
  obtain ⟨committed, hcommitted, hpeer⟩ := (track_committed spelledNetwork).1 spelledPeer.id
    spelledPeer rfl complaints_spelledPeer "endpoint" (by decide)
  obtain ⟨committed', hcommitted', hconnection⟩ := (track_committed spelledNetwork).2 spelledLink
    _ rfl rfl "allowed_ips_a_to_b" (by decide)
  have hplain : ∀ field ∈ ["endpoint", "allowed_ips_a_to_b"], ∀ v, ¬ SpelledOut field v := by
    rintro field hfield v ⟨hnumber, -⟩
    have hdisjoint : ∀ field ∈ ["endpoint", "allowed_ips_a_to_b"], field ∉ Rule.numberFields := by
      decide
    exact hdisjoint field hfield hnumber
  have hendpoint := hplain "endpoint" (by decide) committed
  have hallowed := hplain "allowed_ips_a_to_b" (by decide) committed'
  exact ⟨rfl, complaints_spelledPeer,
    ⟨committed, hcommitted, hendpoint, hpeer.unchanged hendpoint⟩, _, committed', rfl, rfl,
    hcommitted', hallowed, (hconnection none).unchanged hallowed⟩

theorem not_unchanged_spelledPeer
    : spelledNetwork.peers.get? spelledPeer.id = some spelledPeer
        ∧ spelledPeer.complaints (some spelledNetwork) = .ok []
        ∧ "mtu" ∈ Entries.keys spelledPeer.checkedFields
        ∧ spelledNetwork.field? (.peer spelledPeer.id) "mtu"
            = some (.override ⟨true, .text "1420"⟩)
        ∧ (∅ : ChangeSet).track "mtu" "mtu" (.override ⟨true, .text "1420"⟩)
              (.override ⟨true, .text "1420"⟩)
              (some (spelledNetwork.contextOf (.peer spelledPeer.id)))
            = .ok (.changed, ⟨OrderedMap.empty.insert "mtu" none,
                OrderedMap.empty.insert "mtu" (.pair (.bool true) (.int 1420))⟩) := by
  exact ⟨rfl, complaints_spelledPeer, by decide, rfl, rfl⟩

end Network

end WireMesh
