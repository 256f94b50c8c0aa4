import WireMesh.Field.Check

/-!
This module contains what it means that the check of a field accepts its value, and that the check
of many fields has no complaint. `validate` accepts if and only if the field has a rule, the value
has a shape, no text in it breaks the line, and the rule accepts.
-/

namespace WireMesh

def Accepts (field : String) (v : Value) (context : Option Context) : Prop :=
  ∃ reported, validate field v context = .ok (.accepted reported)

theorem validate_eq_iff {field : String} {v : Value} {context : Option Context}
    {result : Except Decimal.TooManyDigits Ruling}
    (h : ∀ complaint reported, result ≠ .ok (.rejected complaint reported))
    : validate field v context = result
        ↔
      ∃ rule f, Rule.ofField? field = some rule ∧ Field.ofValue? v = some f
        ∧ f.hasLineBreak = false ∧ rule.apply context f = result := by
  unfold validate
  cases Rule.ofField? field with
  | none => simp [(h _ _).symm]
  | some rule =>
    cases Field.ofValue? v with
    | none => simp [(h _ _).symm]
    | some f => cases hbreak : f.hasLineBreak <;> simp [hbreak, (h _ _).symm]

theorem validate_eq_accepted_iff {field : String} {v reported : Value} {context : Option Context}
    : validate field v context = .ok (.accepted reported)
        ↔
      ∃ rule f, Rule.ofField? field = some rule ∧ Field.ofValue? v = some f
        ∧ f.hasLineBreak = false ∧ rule.apply context f = .ok (.accepted reported) :=
  validate_eq_iff (by simp)

theorem validate_eq_accepted_iff_of_ofValue? {field : String} {v reported : Value}
    {context : Option Context} {f : Field} (hf : Field.ofValue? v = some f)
    : validate field v context = .ok (.accepted reported)
        ↔
      ∃ rule, Rule.ofField? field = some rule ∧ f.hasLineBreak = false
        ∧ rule.apply context f = .ok (.accepted reported) := by
  rw [validate_eq_accepted_iff]
  rw [hf]
  simp

theorem accepts_iff {field : String} {v : Value} {context : Option Context} {rule : Rule}
    {f : Field} (hrule : Rule.ofField? field = some rule) (hf : Field.ofValue? v = some f)
    : Accepts field v context
        ↔
      f.hasLineBreak = false ∧ ∃ reported, rule.apply context f = .ok (.accepted reported) := by
  unfold Accepts
  simp only [validate_eq_accepted_iff]
  rw [hrule]
  rw [hf]
  simp

theorem complaints_append {fields rest : List (String × Value)} {context : Option Context}
    (h : ∀ entry ∈ fields, Accepts entry.1 entry.2 context)
    : complaints (fields ++ rest) context = complaints rest context := by
  induction fields with
  | nil => rfl
  | cons entry fields ih =>
    obtain ⟨field, v⟩ := entry
    obtain ⟨reported, hv⟩ := h (field, v) List.mem_cons_self
    have ih := ih fun entry he => h entry (List.mem_cons_of_mem _ he)
    rw [List.cons_append]
    rw [complaints]
    rw [hv]
    rw [ih]
    cases complaints rest context <;> rfl

theorem complaints_eq_nil_iff {fields : List (String × Value)} {context : Option Context}
    : complaints fields context = .ok []
        ↔
      ∀ entry ∈ fields, Accepts entry.1 entry.2 context := by
  constructor
  . induction fields with
    | nil => simp
    | cons entry fields ih =>
      obtain ⟨field, v⟩ := entry
      intro h
      unfold complaints at h
      split at h
      . cases h
      . next ruling hv =>
        split at h
        . cases h
        . next more hmore =>
          split at h
          . cases h
          . next hruling =>
            cases ruling with
            | rejected complaint reported => cases hruling
            | accepted reported =>
              rw [List.forall_mem_cons]
              exact ⟨⟨reported, hv⟩, ih (by rw [hmore, ← h])⟩
  . intro h
    rw [← List.append_nil fields]
    rw [complaints_append h]
    rfl

theorem accepts_iff_of_validate {field : String} {v : Value} {context : Option Context}
    {ruling : Ruling} (h : validate field v context = .ok ruling)
    : Accepts field v context ↔ ruling.complaint? = none := by
  unfold Accepts
  rw [h]
  cases ruling with
  | accepted reported => simp [Ruling.complaint?]
  | rejected complaint reported => simp [Ruling.complaint?]

theorem exists_complaints_eq_error_iff {fields : List (String × Value)} {context : Option Context}
    : (∃ e, complaints fields context = .error e)
        ↔
      ∃ entry ∈ fields, ∃ e, validate entry.1 entry.2 context = .error e := by
  induction fields with
  | nil => simp [complaints]
  | cons entry rest ih =>
    obtain ⟨field, v⟩ := entry
    rw [complaints]
    simp only [List.mem_cons, or_and_right, exists_or, exists_eq_left]
    rw [← ih]
    cases validate field v context with
    | error e => simp
    | ok ruling =>
      cases complaints rest context with
      | error e => simp
      | ok more =>
        dsimp only
        split
        . simp
        . simp

theorem mem_keys_complaints_iff {fields : List (String × Value)} {context : Option Context}
    {found : List (String × Complaint)} (h : complaints fields context = .ok found)
    {field : String}
    : field ∈ Entries.keys found ↔ ∃ v, (field, v) ∈ fields ∧ ¬ Accepts field v context := by
  induction fields generalizing found with
  | nil =>
    cases h
    simp
  | cons entry rest ih =>
    obtain ⟨first, v⟩ := entry
    unfold complaints at h
    split at h
    . cases h
    . next ruling hv =>
      have haccepts := accepts_iff_of_validate hv
      split at h
      . cases h
      . next more hmore =>
        have ih := ih hmore
        split at h
        . next complaint hcomplaint =>
          cases h
          rw [Entries.keys_cons, List.mem_cons, ih]
          rw [hcomplaint] at haccepts
          constructor
          . rintro (rfl | ⟨w, hw, hnot⟩)
            . exact ⟨v, List.mem_cons_self, by simp [haccepts]⟩
            . exact ⟨w, List.mem_cons_of_mem _ hw, hnot⟩
          . rintro ⟨w, hw, hnot⟩
            obtain heq | hw := List.mem_cons.1 hw
            . cases heq
              exact .inl rfl
            . exact .inr ⟨w, hw, hnot⟩
        . next hcomplaint =>
          cases h
          rw [ih]
          rw [hcomplaint] at haccepts
          constructor
          . rintro ⟨w, hw, hnot⟩
            exact ⟨w, List.mem_cons_of_mem _ hw, hnot⟩
          . rintro ⟨w, hw, hnot⟩
            obtain heq | hw := List.mem_cons.1 hw
            . cases heq
              exact (hnot (haccepts.2 rfl)).elim
            . exact ⟨w, hw, hnot⟩

theorem mem_keys_of_complaints {fields : List (String × Value)} {context : Option Context}
    {found : List (String × Complaint)} (h : complaints fields context = .ok found)
    : ∀ entry ∈ found, entry.1 ∈ Entries.keys fields := by
  intro entry hentry
  obtain ⟨v, hv, -⟩ := (mem_keys_complaints_iff h).1 (List.mem_map_of_mem hentry)
  exact List.mem_map_of_mem hv

theorem complaints_singleton_eq_error_iff {field : String} {v : Value} {context : Option Context}
    {e : Decimal.TooManyDigits}
    : complaints [(field, v)] context = .error e ↔ validate field v context = .error e := by
  unfold complaints
  cases validate field v context with
  | error cause => simp
  | ok ruling =>
    simp only [complaints]
    split
    . simp
    . simp

namespace TextRule

theorem apply_eq_accepted_iff {rule : TextRule} {context : Option Context} {f : Field}
    {reported : Value}
    : rule.apply context f = .accepted reported
        ↔
      ∃ s, f = .text s ∧ rule.check context s = none ∧ reported = .text s := by
  unfold apply
  cases f with
  | text s =>
    simp only [Field.toPlain, Field.text.injEq, exists_eq_left']
    cases rule.check context s with
    | none => simp only [Ruling.accepted.injEq, true_and, eq_comm]
    | some complaint => simp only [reduceCtorEq, false_and]
  | toggle flag value => simp
  | group members => simp

end TextRule

namespace ToggleRule

theorem apply_eq_accepted_iff {rule : ToggleRule} {f : Field} {reported : Value}
    : rule.apply f = .ok (.accepted reported)
        ↔
      ∃ flag value, f = .toggle flag value
        ∧ if flag.isTruthy then
            ∃ normal, rule.accept? value = .ok (some normal) ∧ reported = .pair flag normal
          else
            reported = .pair flag value := by
  unfold apply
  cases f with
  | text s => simp
  | group members => simp
  | toggle flag value =>
    constructor
    . intro h
      refine ⟨flag, value, rfl, ?_⟩
      dsimp only at h
      split at h
      . next hflag =>
        rw [if_pos hflag]
        split at h
        . cases h
        . next normal ha =>
          cases h
          exact ⟨normal, ha, rfl⟩
        . cases h
      . next hflag =>
        rw [if_neg hflag]
        cases h
        rfl
    . rintro ⟨_, _, hf, h⟩
      cases hf
      dsimp only
      split at h
      . next hflag =>
        obtain ⟨normal, ha, rfl⟩ := h
        rw [if_pos hflag, ha]
      . next hflag =>
        rw [if_neg hflag, h]
        rfl

end ToggleRule

end WireMesh
