import WireMesh.Proofs.Field.AddressUse
import WireMesh.Proofs.Field.HookGroup

/-!
This module contains what the check of a whole peer or connection says about each of its fields.
-/

namespace WireMesh

structure Peer.Vetted (p : Peer) (context : Option Context) : Prop where
  id : Accepts "peerId" (.text p.id) context
  name : Accepts "name" (.text p.name) context
  address : Accepts "address" (.text p.address) context
  privateKey : Accepts "private_key" (.text p.privateKey) context
  publicKey : Accepts "public_key" (.text p.publicKey) context
  dns : Accepts "dns" (.override p.dns) context
  mtu : Accepts "mtu" (.override p.mtu) context
  persistentKeepalive : Accepts "persistent_keepalive" (.override p.persistentKeepalive) context
  hook : ∀ hook : Hook, Accepts hook.key (.override (p.hooks.get hook)) context

structure Connection.Vetted (c : Connection) : Prop where
  preSharedKey : Accepts "pre_shared_key" (.text c.preSharedKey) none
  allowedGreaterToLesser : Accepts "allowed_ips_a_to_b" (.text c.allowedGreaterToLesser) none
  allowedLesserToGreater : Accepts "allowed_ips_b_to_a" (.text c.allowedLesserToGreater) none
  persistentKeepalive : Accepts "persistent_keepalive" (.override c.persistentKeepalive) none

def Peer.checkedEndpoint (p : Peer) : List (String × Value) :=
  if p.isStatic then [("endpoint", .text p.endpoint)] else []

namespace Peer

variable {p : Peer}

theorem complaints_of_vetted {n : Network} (h : p.Vetted (some ⟨n, some p.id⟩))
    : p.complaints (some n)
        =
      WireMesh.complaints p.checkedEndpoint (some ⟨n, some p.id⟩) := by
  unfold complaints checkedFields
  apply complaints_append
  simp only [List.forall_mem_cons]
  exact ⟨h.id, h.name, h.address, accepts_mobility p.mobility _, h.privateKey, h.publicKey, h.dns,
    h.mtu, h.persistentKeepalive, accepts_hooks_iff.2 h.hook, List.forall_mem_nil _⟩

theorem complaints_checkedEndpoint_eq_error_iff {context : Option Context}
    {e : Decimal.TooManyDigits}
    : WireMesh.complaints p.checkedEndpoint context = .error e
        ↔
      p.isStatic = true ∧ validate "endpoint" (.text p.endpoint) none = .error e := by
  unfold checkedEndpoint
  split
  . next hstatic =>
    rw [complaints_singleton_eq_error_iff]
    rw [validate_congr (by decide) _ context none]
    simp [hstatic]
  . next hstatic => simp [hstatic, WireMesh.complaints]

theorem complaints_checkedEndpoint_eq_nil_iff {context : Option Context}
    : WireMesh.complaints p.checkedEndpoint context = .ok []
        ↔
      (p.isStatic = true → Accepts "endpoint" (.text p.endpoint) none) := by
  rw [WireMesh.complaints_eq_nil_iff]
  rw [accepts_congr (by decide) none context]
  unfold checkedEndpoint
  split
  . next hstatic => simp [hstatic]
  . next hstatic => simp [hstatic]

theorem complaints_eq_nil_iff {n : Network}
    : p.complaints (some n) = .ok []
        ↔
      p.Vetted (some ⟨n, some p.id⟩)
        ∧ (p.isStatic = true → Accepts "endpoint" (.text p.endpoint) none) := by
  constructor
  . intro h
    have hall := WireMesh.complaints_eq_nil_iff.1 h
    unfold checkedFields at hall
    simp only [List.forall_mem_append, List.forall_mem_cons] at hall
    obtain ⟨⟨hid, hname, haddress, -, hprivate, hpublic, hdns, hmtu, hkeepalive, hhooks, -⟩, -⟩ :=
      hall
    have hvetted : p.Vetted (some ⟨n, some p.id⟩) :=
      ⟨hid, hname, haddress, hprivate, hpublic, hdns, hmtu, hkeepalive, accepts_hooks_iff.1 hhooks⟩
    rw [complaints_of_vetted hvetted] at h
    exact ⟨hvetted, complaints_checkedEndpoint_eq_nil_iff.1 h⟩
  . rintro ⟨hvetted, hendpoint⟩
    rw [complaints_of_vetted hvetted]
    exact complaints_checkedEndpoint_eq_nil_iff.2 hendpoint

theorem Vetted.address_congr {context : Context} (h : p.Vetted (some context))
    (context' : Context) (hsubnet : context'.network.subnet = context.network.subnet)
    (hholder : TextRule.holder? context' p.address = none) : p.Vetted (some context') where
  id := (accepts_congr (by decide) _ _).1 h.id
  name := (accepts_congr (by decide) _ _).1 h.name
  address := h.address.address_congr hsubnet hholder
  privateKey := (accepts_congr (by decide) _ _).1 h.privateKey
  publicKey := (accepts_congr (by decide) _ _).1 h.publicKey
  dns := (accepts_congr (by decide) _ _).1 h.dns
  mtu := (accepts_congr (by decide) _ _).1 h.mtu
  persistentKeepalive := (accepts_congr (by decide) _ _).1 h.persistentKeepalive
  hook := by
    intro hook
    apply (accepts_congr _ _ _).1 (h.hook hook)
    cases hook <;> decide

theorem key_eq_id {n : Network} {key : String} (hp : n.peers.get? key = some p)
    (h : p.complaints (some n) = .ok []) : key = p.id := by
  -- Only under its own id can a peer of a network be without complaints: elsewhere it is itself
  -- the other peer that has its address.
  have haddress := (complaints_eq_nil_iff.1 h).1.address.holder?_eq_none
  have := TextRule.holder?_eq_none_iff.1 haddress key p hp
  simpa using this

end Peer

theorem Connection.complaints_eq_nil_iff {c : Connection} : c.complaints = .ok [] ↔ c.Vetted := by
  unfold complaints
  rw [WireMesh.complaints_eq_nil_iff]
  simp only [checkedFields, List.forall_mem_cons]
  constructor
  . rintro ⟨hkey, hgreater, hlesser, hkeepalive, -⟩
    exact ⟨hkey, hgreater, hlesser, hkeepalive⟩
  . intro h
    exact ⟨h.preSharedKey, h.allowedGreaterToLesser, h.allowedLesserToGreater,
      h.persistentKeepalive, List.forall_mem_nil _⟩

end WireMesh
