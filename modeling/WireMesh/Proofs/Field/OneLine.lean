import WireMesh.Proofs.Field.Acceptance

/-!
This module contains the texts that stand on a single line. Every text of a peer or a connection
whose check has no complaint is one of them, whatever the rule of its field is: the check looks for
line breaks before it applies the rule.
-/

namespace WireMesh

namespace Text

def OneLine (s : String) : Prop :=
  '\r' ∉ s.toList ∧ '\n' ∉ s.toList

instance (s : String) : Decidable (OneLine s) :=
  inferInstanceAs (Decidable (_ ∧ _))

theorem oneLine_append_iff {s t : String} : OneLine (s ++ t) ↔ OneLine s ∧ OneLine t := by
  unfold OneLine
  simp only [String.toList_append, List.mem_append, not_or]
  grind

theorem any_isLineBreak_eq_false_iff {s : String}
    : s.toList.any Value.isLineBreak = false ↔ OneLine s := by
  unfold OneLine
  simp only [List.any_eq_false, Value.isLineBreak, Bool.or_eq_true, beq_iff_eq, not_or]
  constructor
  . intro h
    exact ⟨fun hr => (h _ hr).1 rfl, fun hn => (h _ hn).2 rfl⟩
  . intro h c hc
    exact ⟨fun hr => h.1 (hr ▸ hc), fun hn => h.2 (hn ▸ hc)⟩

theorem oneLine_ofNat (n : Nat) : OneLine (Decimal.ofNat n) := by
  rw [← any_isLineBreak_eq_false_iff]
  simp only [List.any_eq_false, Decimal.ofNat, String.toList_ofList]
  intro c hc
  have hdigit := Nat.isDigit_of_mem_toDigits (by decide) (by decide) hc
  rw [Decimal.isDigit_iff_toNat] at hdigit
  simp only [Value.isLineBreak, Bool.or_eq_true, beq_iff_eq, not_or]
  constructor
  . rintro rfl
    simp at hdigit
  . rintro rfl
    simp at hdigit

theorem oneLine_ofInt (n : Int) : OneLine (Decimal.ofInt n) := by
  unfold Decimal.ofInt
  split
  . rw [oneLine_append_iff]
    exact ⟨by decide, oneLine_ofNat _⟩
  . exact oneLine_ofNat _

end Text

open Text

theorem Value.hasLineBreak_text {s : String} : (Value.text s).hasLineBreak = false ↔ OneLine s :=
  any_isLineBreak_eq_false_iff

theorem Field.ofValue?_toValue (o : Override)
    : Field.ofValue? o.toValue = some (.toggle (.bool o.enabled) o.value.toValue) := by
  rfl

def OverrideValue.OneLine (content : OverrideValue) : Prop :=
  ∀ s, content.line = .ok s → Text.OneLine s

theorem OverrideValue.oneLine_of_hasLineBreak {content : OverrideValue}
    (h : content.toValue.hasLineBreak = false) : content.OneLine := by
  intro s hs
  cases content with
  | number n =>
    rw [← (Decimal.write_eq_ok_iff.1 hs).2]
    exact oneLine_ofInt n
  | text content =>
    cases hs
    exact Value.hasLineBreak_text.1 h

namespace Accepts

variable {field : String} {context : Option Context}

theorem hasLineBreak {v : Value} (h : Accepts field v context)
    : ∃ f, Field.ofValue? v = some f ∧ f.hasLineBreak = false := by
  obtain ⟨reported, h⟩ := h
  rw [validate_eq_accepted_iff] at h
  obtain ⟨rule, f, -, hf, hbreak, -⟩ := h
  exact ⟨f, hf, hbreak⟩

theorem oneLine_text {s : String} (h : Accepts field (.text s) context) : OneLine s := by
  obtain ⟨f, hf, hbreak⟩ := h.hasLineBreak
  cases hf
  exact Value.hasLineBreak_text.1 hbreak

theorem oneLine_override {o : Override} (h : Accepts field (.override o) context)
    : o.value.OneLine := by
  obtain ⟨f, hf, hbreak⟩ := h.hasLineBreak
  cases hf
  exact OverrideValue.oneLine_of_hasLineBreak hbreak

theorem oneLine_hooks {hooks : Hooks} (h : Accepts field (.hooks hooks) context) (hook : Hook)
    : (hooks.get hook).value.OneLine := by
  obtain ⟨f, hf, hbreak⟩ := h.hasLineBreak
  cases hf
  apply OverrideValue.oneLine_of_hasLineBreak
  have hmember := List.any_eq_false.1 hbreak (hook.key, (hooks.get hook).toValue)
    (List.mem_map.2 ⟨hook, hook.mem_all, rfl⟩)
  rw [Field.ofValue?_toValue] at hmember
  simpa [Field.content?] using hmember

end Accepts

structure Peer.OneLine (p : Peer) : Prop where
  id : Text.OneLine p.id
  name : Text.OneLine p.name
  address : Text.OneLine p.address
  privateKey : Text.OneLine p.privateKey
  publicKey : Text.OneLine p.publicKey
  dns : p.dns.value.OneLine
  mtu : p.mtu.value.OneLine
  hook : ∀ hook, (p.hooks.get hook).value.OneLine
  endpoint : p.isStatic = true → Text.OneLine p.endpoint

structure Connection.OneLine (c : Connection) : Prop where
  preSharedKey : Text.OneLine c.preSharedKey
  allowedGreaterToLesser : Text.OneLine c.allowedGreaterToLesser
  allowedLesserToGreater : Text.OneLine c.allowedLesserToGreater
  persistentKeepalive : c.persistentKeepalive.value.OneLine

theorem Peer.oneLine_of_complaints {p : Peer} {network : Option Network}
    (h : p.complaints network = .ok []) : p.OneLine := by
  have h := complaints_eq_nil_iff.1 h
  unfold checkedFields at h
  simp only [List.forall_mem_append, List.forall_mem_cons] at h
  obtain ⟨⟨hid, hname, haddress, -, hprivate, hpublic, hdns, hmtu, -, hhooks, -⟩, hendpoint⟩ := h
  refine ⟨hid.oneLine_text, hname.oneLine_text, haddress.oneLine_text, hprivate.oneLine_text,
    hpublic.oneLine_text, hdns.oneLine_override, hmtu.oneLine_override, hhooks.oneLine_hooks, ?_⟩
  intro hstatic
  rw [if_pos hstatic] at hendpoint
  exact (hendpoint _ List.mem_cons_self).oneLine_text

theorem Connection.oneLine_of_complaints {c : Connection} (h : c.complaints = .ok [])
    : c.OneLine := by
  have h := complaints_eq_nil_iff.1 h
  simp only [checkedFields, List.forall_mem_cons] at h
  obtain ⟨hkey, hgreater, hlesser, hkeepalive, -⟩ := h
  exact ⟨hkey.oneLine_text, hgreater.oneLine_text, hlesser.oneLine_text,
    hkeepalive.oneLine_override⟩

end WireMesh
