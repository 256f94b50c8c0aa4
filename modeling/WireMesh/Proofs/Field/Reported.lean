import WireMesh.Proofs.Field.OneLine
import WireMesh.Proofs.Reading

/-!
This module contains what an accepted check reports. A text is reported as it is, a switch as a pair
and a group as an object, and a reported value that is read into a peer or a connection passes the
check of its field once more. The only exception is an endpoint that is switched off: it is reported
as the empty text, which is no endpoint.
-/

namespace WireMesh

open Text

namespace Rule

theorem eq_address_of_ofField? {field : String} (h : ofField? field = some (.text .address))
    : field = "address" := by
  have hmem := Entries.mem_of_get?_eq_some h
  simpa [table] using hmem

theorem ofField?_key (hook : Hook) : ofField? hook.key = some (.toggle .script) := by
  cases hook <;> rfl

theorem apply_congr {rule : Rule} (h : rule ≠ .text .address) (context context' : Option Context)
    (f : Field) : rule.apply context f = rule.apply context' f := by
  cases rule with
  | text rule =>
    cases rule with
    | address => exact (h rfl).elim
    | _ => rfl
  | _ => rfl

end Rule

theorem validate_congr {field : String} (h : field ≠ "address") (v : Value)
    (context context' : Option Context) : validate field v context = validate field v context' := by
  unfold validate
  cases hrule : Rule.ofField? field with
  | none => rfl
  | some rule =>
    cases Field.ofValue? v with
    | none => rfl
    | some f =>
      dsimp only
      rw [Rule.apply_congr _ context context']
      rintro rfl
      exact h (Rule.eq_address_of_ofField? hrule)

theorem accepts_congr {field : String} (h : field ≠ "address") {v : Value}
    (context context' : Option Context) : Accepts field v context ↔ Accepts field v context' := by
  unfold Accepts
  rw [validate_congr h v context context']

section Text

variable {field : String} {context : Option Context}

theorem accepts_text_iff {rule : TextRule} {s : String}
    (hrule : Rule.ofField? field = some (.text rule))
    : Accepts field (.text s) context ↔ OneLine s ∧ rule.check context s = none := by
  rw [accepts_iff hrule rfl]
  apply and_congr
  . exact Value.hasLineBreak_text
  . constructor
    . rintro ⟨reported, happly⟩
      obtain ⟨_, ⟨⟩, hcheck, -⟩ := TextRule.apply_eq_accepted_iff.1 (Except.ok.inj happly)
      exact hcheck
    . intro hcheck
      refine ⟨.text s, congrArg Except.ok ?_⟩
      exact TextRule.apply_eq_accepted_iff.2 ⟨s, rfl, hcheck, rfl⟩

theorem reported_text {rule : TextRule} {v reported : Value}
    (hrule : Rule.ofField? field = some (.text rule))
    (h : validate field v context = .ok (.accepted reported))
    : ∃ s, reported = .text s ∧ Accepts field (.text s) context := by
  obtain ⟨_, f, hrule', -, hbreak, happly⟩ := validate_eq_accepted_iff.1 h
  rw [hrule] at hrule'
  cases hrule'
  obtain ⟨s, rfl, hcheck, rfl⟩ := TextRule.apply_eq_accepted_iff.1 (Except.ok.inj happly)
  refine ⟨s, rfl, ?_⟩
  rw [accepts_text_iff hrule]
  exact ⟨Value.hasLineBreak_text.1 hbreak, hcheck⟩

end Text

theorem accepts_mobility (m : Mobility) (context : Option Context)
    : Accepts "mobility" (.text m.name) context := by
  cases m with
  | static => exact ⟨_, rfl⟩
  | roaming => exact ⟨_, rfl⟩

section Toggle

variable {field : String} {rule : ToggleRule} {context : Option Context}

theorem accepts_override_iff {o : Override} (hrule : Rule.ofField? field = some (.toggle rule))
    : Accepts field (.override o) context
        ↔
      o.value.toValue.hasLineBreak = false
        ∧ (o.enabled = true → ∃ normal, rule.accept? o.value.toValue = .ok (some normal)) := by
  rw [accepts_iff hrule rfl]
  apply and_congr
  . exact Iff.rfl
  . change (∃ reported, rule.apply (.toggle (.bool o.enabled) o.value.toValue)
      = .ok (.accepted reported)) ↔ _
    unfold ToggleRule.apply
    cases o.enabled with
    | true =>
      simp only [Value.isTruthy, if_true, true_implies]
      split
      . next haccept => simp [haccept]
      . next haccept => simp [haccept]
      . next haccept => simp [haccept]
    | false => simp [Value.isTruthy]

theorem ToggleRule.accept?_of_readContent {value normal : Value} {content : OverrideValue}
    (haccept : rule.accept? value = .ok (some normal)) (hread : normal.readContent = .ok content)
    (hbreak : value.hasLineBreak = false)
    : content.toValue.hasLineBreak = false
        ∧ ∃ again, rule.accept? content.toValue = .ok (some again) := by
  have hlist : ∀ p : String → Bool, (if value.text?.any p then some value else none) = some normal
      → content.toValue.hasLineBreak = false ∧ content.toValue.text?.any p := by
    intro p hp
    split at hp
    . next hany =>
      cases hp
      unfold Value.hasLineBreak at hbreak ⊢
      rw [Value.text?_of_readContent hread] at hany hbreak
      exact ⟨hbreak, hany⟩
    . cases hp
  have hnumber : inRange <$> readInt value = .ok (some normal)
      → content.toValue.hasLineBreak = false
        ∧ ∃ again, inRange <$> readInt content.toValue = .ok (some again) := by
    intro hrange
    cases hint : readInt value with
    | error e =>
      rw [hint] at hrange
      cases hrange
    | ok n =>
      rw [hint] at hrange
      have hrange := Except.ok.inj hrange
      unfold inRange at hrange
      split at hrange
      . split at hrange
        . next hbound =>
          cases hrange
          cases hread
          exact ⟨rfl, _, congrArg Except.ok (if_pos hbound)⟩
        . cases hrange
      . cases hrange
  cases rule with
  | dns =>
    obtain ⟨hone, hany⟩ := hlist _ (Except.ok.inj haccept)
    exact ⟨hone, _, congrArg Except.ok (if_pos hany)⟩
  | script =>
    obtain ⟨hone, hany⟩ := hlist _ (Except.ok.inj haccept)
    exact ⟨hone, _, congrArg Except.ok (if_pos hany)⟩
  | mtu => exact hnumber haccept
  | keepalive => exact hnumber haccept

theorem Field.flag_of_isPlain {v flag value : Value} (hplain : v.isPlain = true)
    (h : ofValue? v = some (.toggle flag value)) : ∃ b, flag = .bool b := by
  cases v with
  | object members =>
    unfold ofValue? ofMembers? at h
    dsimp only at h
    split at h
    . next b _ _ =>
      cases h
      exact ⟨b, rfl⟩
    . cases h
    . cases h
  | override o => cases hplain
  | toggleField flag value => cases hplain
  | _ => cases h

theorem accepts_override_of_reported {v reported : Value} {o : Override}
    (hrule : Rule.ofField? field = some (.toggle rule)) (hplain : v.isPlain = true)
    (h : validate field v context = .ok (.accepted reported))
    (hread : Override.ofValue reported = .ok o) : Accepts field (.override o) context := by
  obtain ⟨_, f, hrule', hf, hbreak, happly⟩ := validate_eq_accepted_iff.1 h
  rw [hrule] at hrule'
  cases hrule'
  obtain ⟨flag, value, rfl, hreported⟩ := ToggleRule.apply_eq_accepted_iff.1 happly
  obtain ⟨b, rfl⟩ := Field.flag_of_isPlain hplain hf
  have hvalue : value.hasLineBreak = false := hbreak
  rw [accepts_override_iff hrule]
  cases b with
  | true =>
    simp only [Value.isTruthy, if_true] at hreported
    obtain ⟨normal, haccept, rfl⟩ := hreported
    obtain ⟨-, hcontent⟩ := Override.ofMembers_pair_eq_ok_iff.1 hread
    obtain ⟨hone, hagain⟩ := ToggleRule.accept?_of_readContent haccept hcontent hvalue
    exact ⟨hone, fun _ => hagain⟩
  | false =>
    simp only [Value.isTruthy, Bool.false_eq_true, if_false] at hreported
    subst hreported
    obtain ⟨hflag, hcontent⟩ := Override.ofMembers_pair_eq_ok_iff.1 hread
    refine ⟨?_, ?_⟩
    . unfold Value.hasLineBreak at hvalue ⊢
      rw [Value.text?_of_readContent hcontent] at hvalue
      exact hvalue
    . intro henabled
      cases hflag.trans (congrArg Checked.ok henabled)

end Toggle

section Endpoint

variable {context : Option Context}

theorem accepts_endpoint_iff {s : String}
    : Accepts "endpoint" (.text s) context
        ↔
      OneLine s ∧ Endpoint.isText s.toList = .ok true := by
  rw [@accepts_iff _ _ _ .endpoint _ rfl rfl]
  apply and_congr
  . exact Value.hasLineBreak_text
  . change (∃ reported, Rule.applyEndpoint (.text s) = .ok (.accepted reported)) ↔ _
    unfold Rule.applyEndpoint
    dsimp only
    split
    . next htext => simp [htext]
    . next htext => simp [htext]
    . next htext => simp [htext]

theorem Endpoint.isText_eq_error_iff {cs : List Char} {e : Decimal.TooManyDigits}
    : isText cs = .error e
        ↔
      ∃ host port, Text.splitLast ':' cs = some (host, port) ∧ Decimal.isNumeral port = true
        ∧ Decimal.digitLimit < port.length ∧ e = ⟨port.length⟩ := by
  constructor
  . intro h
    unfold isText at h
    split at h
    . cases h
    . next host port hsplit =>
      split at h
      . next hport =>
        split at h
        . next hread =>
          cases h
          exact ⟨host, port, hsplit, hport, Decimal.read_eq_error_iff.1 hread⟩
        . cases h
      . cases h
  . rintro ⟨host, port, hsplit, hport, hread⟩
    unfold isText
    rw [hsplit]
    dsimp only
    rw [if_pos hport]
    rw [Decimal.read_eq_error_iff.2 hread]

theorem validate_endpoint_eq_error_iff {s : String} {e : Decimal.TooManyDigits}
    : validate "endpoint" (.text s) context = .error e
        ↔
      OneLine s ∧ ∃ host port, Text.splitLast ':' s.toList = some (host, port)
        ∧ Decimal.isNumeral port = true ∧ Decimal.digitLimit < port.length
        ∧ e = ⟨port.length⟩ := by
  rw [← Endpoint.isText_eq_error_iff]
  rw [← any_isLineBreak_eq_false_iff]
  change (if s.toList.any Value.isLineBreak then .ok _ else Rule.applyEndpoint (.text s)) = _ ↔ _
  split
  . next hbreak => simp [hbreak]
  . next hbreak =>
    simp only [hbreak, true_and]
    unfold Rule.applyEndpoint
    dsimp only
    split
    . next htext => simp [htext]
    . next htext => simp [htext]
    . next htext => simp [htext]

theorem applyEndpoint_eq_accepted {f : Field} {reported : Value}
    (h : Rule.applyEndpoint f = .ok (.accepted reported))
    : (∃ v s, f.content? = some v ∧ v.text? = some s ∧ Endpoint.isText s.toList = .ok true
        ∧ reported = .text s)
      ∨ ∃ flag value, f = .toggle flag value ∧ flag.isTruthy = false ∧ reported = .text "" := by
  unfold Rule.applyEndpoint at h
  cases f with
  | text s =>
    dsimp only at h
    split at h
    . cases h
    . next htext =>
      cases h
      exact .inl ⟨.text s, s, rfl, rfl, htext, rfl⟩
    . cases h
  | toggle flag value =>
    dsimp only at h
    split at h
    . split at h
      . cases h
      . next s hs =>
        split at h
        . cases h
        . next htext =>
          cases h
          exact .inl ⟨value, s, rfl, hs, htext, rfl⟩
        . cases h
    . next hflag =>
      cases h
      exact .inr ⟨flag, value, rfl, eq_false_of_ne_true hflag, rfl⟩
  | group members => cases h

theorem reported_endpoint {v reported : Value}
    (h : validate "endpoint" v context = .ok (.accepted reported))
    : ∃ s, reported = .text s
        ∧ (Accepts "endpoint" (.text s) context
          ∨ (s = "" ∧ ∃ flag value, Field.ofValue? v = some (.toggle flag value)
              ∧ flag.isTruthy = false)) := by
  obtain ⟨_, f, ⟨⟩, hf, hbreak, happly⟩ := validate_eq_accepted_iff.1 h
  obtain ⟨w, s, hw, hs, htext, rfl⟩ | ⟨flag, value, rfl, hflag, rfl⟩ :=
    applyEndpoint_eq_accepted happly
  . refine ⟨s, rfl, .inl ?_⟩
    rw [accepts_endpoint_iff]
    refine ⟨?_, htext⟩
    have hbreak : w.hasLineBreak = false := by
      cases f with
      | group members => cases hw
      | text t =>
        cases hw
        exact hbreak
      | toggle flag value =>
        cases hw
        exact hbreak
    unfold Value.hasLineBreak at hbreak
    rw [hs] at hbreak
    exact any_isLineBreak_eq_false_iff.1 hbreak
  . exact ⟨"", rfl, .inr ⟨rfl, flag, value, hf, hflag⟩⟩

end Endpoint

end WireMesh
