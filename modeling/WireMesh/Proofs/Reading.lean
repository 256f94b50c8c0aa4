import WireMesh.Connection
import WireMesh.Peer

/-!
This module contains what the readers give. A setting, the hooks, a peer or a connection is read if
and only if each of its members is, and what was written as a value is read back as it was.
-/

namespace WireMesh

namespace Members

variable {α : Type} {members : List (String × Value)} {name : String} {read : Value → Checked α}

theorem required_eq_ok_iff {a : α}
    : required members name read = .ok a
        ↔
      ∃ v, Entries.get? members name = some v ∧ read v = .ok a := by
  unfold required
  cases Entries.get? members name with
  | none => simp [Checked.fault]
  | some v => simp

theorem optional_eq_ok_iff {a default : α}
    : optional members name read default = .ok a
        ↔
      (∃ v, Entries.get? members name = some v ∧ read v = .ok a)
        ∨ (Entries.get? members name = none ∧ default = a) := by
  unfold optional
  cases Entries.get? members name with
  | none => simp
  | some v => simp

theorem optional_of_get?_eq_some {v : Value} {default : α}
    (h : Entries.get? members name = some v)
    : optional members name read default = (read v).under name := by
  unfold optional
  rw [h]

end Members

namespace Value

theorem readText_eq_ok_iff {v : Value} {s : String} : v.readText = .ok s ↔ v.text? = some s := by
  unfold readText
  cases v.text? with
  | none => simp [Checked.fault]
  | some t => simp

theorem readNonemptyText_eq_ok_iff {v : Value} {s : { s : String // s ≠ "" }}
    : v.readNonemptyText = .ok s ↔ v.text? = some s.val := by
  unfold readNonemptyText
  cases v.text? with
  | none => simp [Checked.fault]
  | some t =>
    dsimp only
    split
    . next ht =>
      subst ht
      simp [Checked.fault, s.property.symm]
    . simp [Subtype.ext_iff]

theorem text?_of_readContent {v : Value} {content : OverrideValue}
    (h : v.readContent = .ok content) : v.text? = content.toValue.text? := by
  cases v with
  | text t => cases h; rfl
  | mobility m => cases h; rfl
  | bool b => cases h; rfl
  | int n => cases h; rfl
  | real x =>
    unfold readContent at h
    dsimp only at h
    split at h
    . split at h
      . cases h; rfl
      . cases h
    . cases h
  | _ => cases h

theorem readContent_toValue (content : OverrideValue)
    : content.toValue.readContent = .ok content := by
  cases content <;> rfl

theorem text?_of_readMobility {v : Value} {m : Mobility} (h : v.readMobility = .ok m)
    : v.text? = some m.name := by
  unfold readMobility at h
  split at h
  . next m' hname =>
    cases h
    obtain ⟨s, hs, hfind⟩ := Option.bind_eq_some_iff.1 hname
    have heq := List.find?_some hfind
    rw [beq_iff_eq] at heq
    rw [hs, heq]
  . cases h

theorem readMobility_name (m : Mobility) : readMobility (.text m.name) = .ok m := by
  cases m <;> rfl

end Value

namespace Override

theorem ofMembers_pair_eq_ok_iff {flag value : Value} {o : Override}
    : ofMembers [("enabled", flag), ("value", value)] = .ok o
        ↔
      flag.readBool = .ok o.enabled ∧ value.readContent = .ok o.value := by
  unfold ofMembers
  rw [Members.optional_of_get?_eq_some (v := flag) rfl]
  rw [Members.optional_of_get?_eq_some (v := value) rfl]
  simp only [Checked.seq_eq_ok_iff, Checked.map_eq_ok_iff, Checked.under_eq_ok_iff]
  constructor
  . rintro ⟨_, _, ⟨_, hflag, rfl⟩, hvalue, rfl⟩
    exact ⟨hflag, hvalue⟩
  . rintro ⟨hflag, hvalue⟩
    exact ⟨_, _, ⟨_, hflag, rfl⟩, hvalue, rfl⟩

theorem ofValue_toValue (o : Override) : ofValue o.toValue = .ok o :=
  ofMembers_pair_eq_ok_iff.2 ⟨rfl, Value.readContent_toValue o.value⟩

theorem ofValue_toValue_eq_ok_iff {o o' : Override} : ofValue o.toValue = .ok o' ↔ o = o' := by
  rw [ofValue_toValue]
  simp

end Override

namespace Hooks

theorem ofMembers_eq_ok_iff {members : List (String × Value)} {hooks : Hooks}
    : ofMembers members = .ok hooks
        ↔
      ∀ hook : Hook, Members.optional members hook.key Override.ofValue .off
        = .ok (hooks.get hook) := by
  unfold ofMembers
  simp only [Checked.seq_eq_ok_iff, Checked.map_eq_ok_iff]
  constructor
  . rintro ⟨_, _, ⟨_, _, ⟨_, _, ⟨_, hpreUp, rfl⟩, hpostUp, rfl⟩, hpreDown, rfl⟩, hpostDown, rfl⟩
    intro hook
    cases hook with
    | preUp => exact hpreUp
    | postUp => exact hpostUp
    | preDown => exact hpreDown
    | postDown => exact hpostDown
  . intro h
    exact ⟨_, _, ⟨_, _, ⟨_, _, ⟨_, h .preUp, rfl⟩, h .postUp, rfl⟩, h .preDown, rfl⟩,
      h .postDown, rfl⟩

theorem get?_members (hooks : Hooks) (hook : Hook)
    : Entries.get? hooks.members hook.key = some (hooks.get hook).toValue := by
  cases hook <;> rfl

theorem ofMembers_members (hooks : Hooks) : ofMembers hooks.members = .ok hooks := by
  rw [ofMembers_eq_ok_iff]
  intro hook
  rw [Members.optional_of_get?_eq_some (hooks.get?_members hook)]
  rw [Override.ofValue_toValue]
  rfl

theorem ofValue_toValue (hooks : Hooks) : ofValue hooks.toValue = .ok hooks :=
  ofMembers_members hooks

end Hooks

namespace Peer

theorem ofMembers_eq_ok_iff {members : List (String × Value)} {p : Peer}
    : ofMembers members = .ok p
        ↔
      Members.required members "id" Value.readNonemptyText = .ok ⟨p.id, p.id_ne_empty⟩
        ∧ Members.required members "name" Value.readText = .ok p.name
        ∧ Members.required members "address" Value.readText = .ok p.address
        ∧ Members.optional members "mobility" Value.readMobility .roaming = .ok p.mobility
        ∧ Members.optional members "endpoint" Value.readText "" = .ok p.endpoint
        ∧ Members.optional members "private_key" Value.readText "" = .ok p.privateKey
        ∧ Members.optional members "public_key" Value.readText "" = .ok p.publicKey
        ∧ Members.optional members "dns" Override.ofValue .off = .ok p.dns
        ∧ Members.optional members "mtu" Override.ofValue .off = .ok p.mtu
        ∧ Members.optional members "persistent_keepalive" Override.ofValue .off
            = .ok p.persistentKeepalive
        ∧ Members.optional members "scripts" Hooks.ofValue .none = .ok p.hooks := by
  unfold ofMembers
  constructor
  . intro h
    simp only [Checked.seq_eq_ok_iff, Checked.map_eq_ok_iff] at h
    obtain ⟨_, _, ⟨_, _, ⟨_, _, ⟨_, _, ⟨_, _, ⟨_, _, ⟨_, _, ⟨_, _, ⟨_, _, ⟨_, _, ⟨_, hid, rfl⟩,
      hname, rfl⟩, haddress, rfl⟩, hmobility, rfl⟩, hendpoint, rfl⟩, hprivate, rfl⟩, hpublic, rfl⟩,
      hdns, rfl⟩, hmtu, rfl⟩, hkeepalive, rfl⟩, hhooks, rfl⟩ := h
    exact ⟨hid, hname, haddress, hmobility, hendpoint, hprivate, hpublic, hdns, hmtu, hkeepalive,
      hhooks⟩
  . rintro ⟨hid, hname, haddress, hmobility, hendpoint, hprivate, hpublic, hdns, hmtu, hkeepalive,
      hhooks⟩
    rw [hid, hname, haddress, hmobility, hendpoint, hprivate, hpublic, hdns, hmtu, hkeepalive,
      hhooks]
    rfl

theorem ofMembers_members (p : Peer) : ofMembers p.members = .ok p := by
  rw [ofMembers_eq_ok_iff]
  simp only [Members.required_eq_ok_iff, Members.optional_eq_ok_iff]
  refine ⟨⟨_, rfl, ?_⟩, ⟨_, rfl, rfl⟩, ⟨_, rfl, rfl⟩, .inl ⟨_, rfl, ?_⟩, .inl ⟨_, rfl, rfl⟩,
    .inl ⟨_, rfl, rfl⟩, .inl ⟨_, rfl, rfl⟩, .inl ⟨_, rfl, ?_⟩, .inl ⟨_, rfl, ?_⟩, .inl ⟨_, rfl, ?_⟩,
    .inl ⟨_, rfl, ?_⟩⟩
  . exact Value.readNonemptyText_eq_ok_iff.2 rfl
  . exact Value.readMobility_name p.mobility
  . exact Override.ofValue_toValue p.dns
  . exact Override.ofValue_toValue p.mtu
  . exact Override.ofValue_toValue p.persistentKeepalive
  . exact Hooks.ofValue_toValue p.hooks

end Peer

namespace Connection

theorem ofMembers_eq_ok_iff {members : List (String × Value)} {c : Connection}
    : ofMembers members = .ok c
        ↔
      Members.optional members "enabled" Value.readBool true = .ok c.enabled
        ∧ Members.optional members "pre_shared_key" Value.readText "" = .ok c.preSharedKey
        ∧ Members.optional members "allowed_ips_a_to_b" Value.readText ""
            = .ok c.allowedGreaterToLesser
        ∧ Members.optional members "allowed_ips_b_to_a" Value.readText ""
            = .ok c.allowedLesserToGreater
        ∧ Members.optional members "persistent_keepalive" Override.ofValue .off
            = .ok c.persistentKeepalive := by
  unfold ofMembers
  constructor
  . intro h
    simp only [Checked.seq_eq_ok_iff, Checked.map_eq_ok_iff] at h
    obtain ⟨_, _, ⟨_, _, ⟨_, _, ⟨_, _, ⟨_, henabled, rfl⟩, hkey, rfl⟩, hgreater, rfl⟩,
      hlesser, rfl⟩, hkeepalive, rfl⟩ := h
    exact ⟨henabled, hkey, hgreater, hlesser, hkeepalive⟩
  . rintro ⟨henabled, hkey, hgreater, hlesser, hkeepalive⟩
    rw [henabled, hkey, hgreater, hlesser, hkeepalive]
    rfl

theorem ofMembers_members (c : Connection) : ofMembers c.members = .ok c := by
  rw [ofMembers_eq_ok_iff]
  simp only [Members.optional_eq_ok_iff]
  refine ⟨.inl ⟨_, rfl, rfl⟩, .inl ⟨_, rfl, rfl⟩, .inl ⟨_, rfl, rfl⟩, .inl ⟨_, rfl, rfl⟩,
    .inl ⟨_, rfl, ?_⟩⟩
  exact Override.ofValue_toValue c.persistentKeepalive

end Connection

end WireMesh
