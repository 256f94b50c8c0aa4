import WireMesh.Proofs.Field.HookGroup

/-!
This module contains the form in which an accepted value is reported. It is the plain form of the
value, whatever network it is checked in. Only a switch may be reported otherwise: a numeral in it
as the number it stands for, and an endpoint as its text alone.
-/

namespace WireMesh

theorem Accepts.of_ofValue?_eq {field : String} {v w : Value} {context : Option Context}
    (h : Accepts field v context) (heq : Field.ofValue? w = Field.ofValue? v)
    : Accepts field w context := by
  unfold Accepts validate at h ⊢
  rw [heq]
  exact h

namespace Rule

variable {rule : Rule} {context : Option Context} {reported : Value}

theorem eq_endpoint_of_ofField? {field : String} (h : ofField? field = some .endpoint)
    : field = "endpoint" := by
  have hmem := Entries.mem_of_get?_eq_some h
  simpa [table] using hmem

theorem apply_toggle (rule : ToggleRule) (context : Option Context) (f : Field)
    : (toggle rule).apply context f = rule.apply f := rfl

theorem apply_endpoint (context : Option Context) (f : Field)
    : endpoint.apply context f = applyEndpoint f := rfl

theorem eq_toPlain_of_apply {f : Field} (h : rule.apply context f = .ok (.accepted reported))
    (hf : ∀ flag value, f ≠ .toggle flag value) : reported = f.toPlain := by
  cases rule with
  | text rule =>
    obtain ⟨s, rfl, -, rfl⟩ := TextRule.apply_eq_accepted_iff.1 (Except.ok.inj h)
    rfl
  | toggle rule =>
    obtain ⟨flag, value, rfl, -⟩ := ToggleRule.apply_eq_accepted_iff.1 h
    exact (hf flag value rfl).elim
  | endpoint =>
    obtain ⟨v, s, hv, hs, -, rfl⟩ | ⟨flag, value, rfl, -⟩ := applyEndpoint_eq_accepted h
    . cases f with
      | text t =>
        cases hv
        cases hs
        rfl
      | toggle flag value => exact (hf flag value rfl).elim
      | group members => cases hv
    . exact (hf flag value rfl).elim
  | hooks =>
    cases f with
    | text s => cases h
    | toggle flag value => cases h
    | group members => exact (applyHooks_eq_accepted_iff.1 h).2

theorem exists_toggle_of_apply {flag value : Value}
    (h : rule.apply context (.toggle flag value) = .ok (.accepted reported))
    : rule = .endpoint ∨ ∃ toggle, rule = .toggle toggle := by
  cases rule with
  | text rule => cases h
  | toggle rule => exact .inr ⟨rule, rfl⟩
  | endpoint => exact .inl rfl
  | hooks => cases h

end Rule

namespace ToggleRule

variable {rule : ToggleRule} {normal : Value}

theorem exists_pair_of_apply {f : Field} {reported : Value}
    (h : rule.apply f = .ok (.accepted reported))
    : ∃ flag value normal, f = .toggle flag value ∧ reported = .pair flag normal := by
  obtain ⟨flag, value, rfl, hreported⟩ := apply_eq_accepted_iff.1 h
  split at hreported
  . obtain ⟨normal, -, rfl⟩ := hreported
    exact ⟨flag, value, normal, rfl, rfl⟩
  . exact ⟨flag, value, value, rfl, hreported⟩

theorem exists_of_inRange_readInt {v : Value} (h : inRange <$> readInt v = .ok (some normal))
    : ∃ n, readInt v = .ok (some n) ∧ normal = .int n := by
  cases hread : readInt v with
  | error e =>
    rw [hread] at h
    cases h
  | ok n =>
    rw [hread] at h
    have h := Except.ok.inj h
    unfold inRange at h
    split at h
    . split at h
      . cases h
        exact ⟨_, rfl, rfl⟩
      . cases h
    . cases h

theorem eq_of_accept? {value : Value} (h : rule.accept? value = .ok (some normal))
    : if rule = .mtu ∨ rule = .keepalive then
        ∃ n, readInt value = .ok (some n) ∧ normal = .int n
      else
        normal = value := by
  have hlist : ∀ p : Bool, (if p then some value else none) = some normal → normal = value := by
    intro p hp
    split at hp
    . cases hp
      rfl
    . cases hp
  cases rule with
  | dns => exact hlist _ (Except.ok.inj h)
  | script => exact hlist _ (Except.ok.inj h)
  | mtu => exact exists_of_inRange_readInt h
  | keepalive => exact exists_of_inRange_readInt h

theorem eq_of_accept?_int {n : Int} (h : rule.accept? (.int n) = .ok (some normal))
    : normal = .int n := by
  have hnormal := eq_of_accept? h
  split at hnormal
  . obtain ⟨m, hread, rfl⟩ := hnormal
    cases hread
    rfl
  . exact hnormal

end ToggleRule

section Reported

variable {field : String} {v reported : Value} {context context' : Option Context}

theorem validate_of_accepts (h : validate field v context = .ok (.accepted reported))
    (haccepts : Accepts field v context')
    : validate field v context' = .ok (.accepted reported) := by
  by_cases hfield : field = "address"
  . subst hfield
    obtain ⟨again, hagain⟩ := haccepts
    obtain ⟨_, f, ⟨⟩, hf, -, happly⟩ := validate_eq_accepted_iff.1 h
    obtain ⟨_, f', ⟨⟩, hf', -, happly'⟩ := validate_eq_accepted_iff.1 hagain
    obtain ⟨s, rfl, -, rfl⟩ := TextRule.apply_eq_accepted_iff.1 (Except.ok.inj happly)
    obtain ⟨s', rfl, -, rfl⟩ := TextRule.apply_eq_accepted_iff.1 (Except.ok.inj happly')
    rw [hf] at hf'
    cases hf'
    exact hagain
  . rw [validate_congr hfield v context' context]
    exact h

theorem exists_pair_of_reported {rule : ToggleRule}
    (hrule : Rule.ofField? field = some (.toggle rule)) (hplain : v.isPlain = true)
    (h : validate field v context = .ok (.accepted reported))
    : ∃ b value, reported = .pair (.bool b) value := by
  obtain ⟨_, f, hrule', hf, -, happly⟩ := validate_eq_accepted_iff.1 h
  rw [hrule] at hrule'
  cases hrule'
  obtain ⟨flag, value, normal, rfl, rfl⟩ := ToggleRule.exists_pair_of_apply happly
  obtain ⟨b, rfl⟩ := Field.flag_of_isPlain hplain hf
  exact ⟨b, normal, rfl⟩

end Reported

end WireMesh
