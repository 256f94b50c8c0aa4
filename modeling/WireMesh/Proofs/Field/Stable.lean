import WireMesh.Proofs.Field.Failure
import WireMesh.Proofs.Field.PlainForm

/-!
This module contains that what an accepted check reports is accepted once more and reported again as
it is. A plain form is its own plain form, tagging it finds the shape of the value that it came from,
and every rule accepts the value that it reports. The only exception is an endpoint that is switched
off.
-/

namespace WireMesh

open Value

namespace Field

def plain : Field → Field
  | .text s => .text s
  | .toggle flag value => .toggle flag value
  | .group members => .group (plainMembers members)

theorem content?_plain (f : Field) : f.plain.content? = f.content? := by
  cases f <;> rfl

variable {members : List (String × Value)}

theorem pair?_plainMembers (members : List (String × Value))
    : pair? (plainMembers members)
        =
      (pair? members).map fun pair => (pair.1.toPlain, pair.2.toPlain) := by
  unfold pair?
  rw [get?_plainMembers, get?_plainMembers, keys_plainMembers]
  cases Entries.get? members "enabled" with
  | none => rfl
  | some flag =>
    cases Entries.get? members "value" with
    | none => rfl
    | some value =>
      dsimp only [Option.map_some]
      split
      . rfl
      . rfl

theorem ofMembers?_eq_some {f : Field} (h : ofMembers? members = some f)
    : (∃ b value, f = .toggle (.bool b) value) ∨ (f = .group members ∧ pair? members = none) := by
  unfold ofMembers? at h
  split at h
  . cases h
    exact .inl ⟨_, _, rfl⟩
  . cases h
  . next hpair =>
    cases h
    exact .inr ⟨rfl, hpair⟩

theorem ofMembers?_plainMembers (h : pair? members = none)
    : ofMembers? (plainMembers members) = some (.group (plainMembers members)) := by
  -- The members of a group keep their keys, so its plain form is no switch.
  unfold ofMembers?
  rw [pair?_plainMembers]
  rw [h]
  rfl

end Field

namespace Value

mutual

theorem toPlain_toPlain {v : Value} (h : v.isPlain = true) : v.toPlain.toPlain = v.toPlain := by
  cases v with
  | object members =>
    rw [isPlain, Bool.and_eq_true] at h
    rw [toPlain]
    cases hmembers : Field.ofMembers? members with
    | none =>
      dsimp only
      rw [toPlain]
      rw [hmembers]
    | some f =>
      obtain ⟨b, value, rfl⟩ | ⟨rfl, hpair⟩ := Field.ofMembers?_eq_some hmembers
      . rfl
      . dsimp only
        rw [toPlain]
        rw [Field.ofMembers?_plainMembers hpair]
        dsimp only
        rw [plainMembers_plainMembers h.2]
  | null => rfl
  | bool b => rfl
  | int n => rfl
  | real x => rfl
  | text s => rfl
  | list items => rfl
  | _ => cases h
termination_by structural v

theorem plainMembers_plainMembers {members : List (String × Value)}
    (h : haveMembersPlain members = true)
    : plainMembers (plainMembers members) = plainMembers members := by
  cases members with
  | nil => rfl
  | cons entry rest =>
    rw [haveMembersPlain, Bool.and_eq_true] at h
    rw [plainMembers, plainMembers]
    rw [toPlain_toPlain h.1]
    rw [plainMembers_plainMembers h.2]
termination_by structural members

end

theorem toPlain_of_ofValue?_eq_none {v : Value} (h : Field.ofValue? v = none)
    : v.toPlain = v := by
  cases v with
  | object members =>
    change Field.ofMembers? members = none at h
    rw [toPlain]
    rw [h]
  | null => rfl
  | bool b => rfl
  | int n => rfl
  | real x => rfl
  | list items => rfl
  | peer p => rfl
  | connection c => rfl
  | _ => cases h

def SwitchesOff (v : Value) : Prop :=
  ∃ members content, v = .object members
    ∧ members.Perm [("enabled", .bool false), ("value", content)]

theorem switchesOff_iff {v : Value} (hplain : v.isPlain = true)
    : v.SwitchesOff ↔ ∃ content, Field.ofValue? v = some (.toggle (.bool false) content) := by
  simp only [Field.ofValue?_eq_toggle_iff hplain]
  exact exists_comm

end Value

namespace Field

theorem ofValue?_toPlain {v : Value} (hplain : v.isPlain = true)
    : ofValue? v.toPlain = (ofValue? v).map plain := by
  cases hf : ofValue? v with
  | none =>
    rw [toPlain_of_ofValue?_eq_none hf]
    exact hf
  | some f =>
    rw [toPlain_of_ofValue? hf]
    cases f with
    | text s => rfl
    | toggle flag value =>
      obtain ⟨b, rfl⟩ := flag_of_isPlain hplain hf
      rfl
    | group members =>
      obtain rfl := eq_object_of_isPlain hplain hf
      obtain ⟨b, value, ⟨⟩⟩ | ⟨-, hpair⟩ := ofMembers?_eq_some hf
      exact ofMembers?_plainMembers hpair

theorem hasLineBreak_plainMembers {members : List (String × Value)}
    (hplain : haveMembersPlain members = true)
    : (group (plainMembers members)).hasLineBreak = (group members).hasLineBreak := by
  induction members with
  | nil => rfl
  | cons entry rest ih =>
    rw [haveMembersPlain, Bool.and_eq_true] at hplain
    specialize ih hplain.2
    unfold hasLineBreak at ih ⊢
    dsimp only at ih ⊢
    rw [plainMembers, List.any_cons, List.any_cons]
    rw [ih]
    rw [ofValue?_toPlain hplain.1]
    rw [Option.bind_map]
    rw [show content? ∘ plain = content? from funext content?_plain]

end Field

theorem ToggleRule.accept?_normal {rule : ToggleRule} {value normal : Value}
    (h : rule.accept? value = .ok (some normal))
    : rule.accept? normal = .ok (some normal)
        ∧ (value.hasLineBreak = false → normal.hasLineBreak = false) := by
  have hnormal := eq_of_accept? h
  split at hnormal
  . next hrule =>
    obtain ⟨n, hread, rfl⟩ := hnormal
    have hsame : rule.accept? value = rule.accept? (.int n) := by
      obtain rfl | rfl := hrule
      . exact congrArg (inRange <$> ·) hread
      . exact congrArg (inRange <$> ·) hread
    rw [← hsame]
    exact ⟨h, fun _ => rfl⟩
  . cases hnormal
    exact ⟨h, id⟩

namespace Rule

variable {context : Option Context} {members : List (String × Value)} {reported : Value}

theorem applyHooks_plainMembers {hooks : List Hook} (hplain : haveMembersPlain members = true)
    (h : applyHooks members hooks = .ok (.accepted reported))
    : applyHooks (plainMembers members) hooks = .ok (.accepted reported) := by
  obtain ⟨hall, rfl⟩ := applyHooks_eq_accepted_iff.1 h
  rw [applyHooks_eq_accepted_iff]
  rw [plainMembers_plainMembers hplain]
  refine ⟨?_, rfl⟩
  intro hook hhook
  obtain ⟨v, f, hv, hf, hscript⟩ := hall hook hhook
  obtain ⟨⟨flag, value, rfl⟩, -⟩ := ToggleRule.script_apply_eq_accepted hscript
  refine ⟨v.toPlain, _, ?_, ?_, hscript⟩
  . rw [get?_plainMembers]
    rw [hv]
    rfl
  . rw [Field.ofValue?_toPlain (isPlain_of_get? hplain hv)]
    rw [hf]
    rfl

end Rule

section Reported

variable {field : String} {v reported : Value} {context : Option Context}

theorem validate_reported_text {s : String} (hf : Field.ofValue? v = some (.text s))
    (h : validate field v context = .ok (.accepted reported))
    : validate field reported context = .ok (.accepted reported) := by
  obtain ⟨rule, hrule, hbreak, happly⟩ := (validate_eq_accepted_iff_of_ofValue? hf).1 h
  obtain rfl := Rule.eq_toPlain_of_apply happly nofun
  exact (validate_eq_accepted_iff_of_ofValue? rfl).2 ⟨rule, hrule, hbreak, happly⟩

theorem validate_reported_group {members : List (String × Value)} (hplain : v.isPlain = true)
    (hf : Field.ofValue? v = some (.group members))
    (h : validate field v context = .ok (.accepted reported))
    : validate field reported context = .ok (.accepted reported) := by
  obtain ⟨rule, hrule, hbreak, happly⟩ := (validate_eq_accepted_iff_of_ofValue? hf).1 h
  obtain ⟨-, hmembers⟩ := Field.isPlain_group hplain hf
  have hagain : Field.ofValue? (.object (plainMembers members))
      = some (.group (plainMembers members)) := by
    have hshape := Field.ofValue?_toPlain hplain
    rw [hf, toPlain_of_ofValue? hf] at hshape
    exact hshape
  cases rule with
  | text rule => cases happly
  | toggle rule => cases happly
  | endpoint => cases happly
  | hooks =>
    have happly' := Rule.applyHooks_plainMembers hmembers happly
    obtain ⟨-, rfl⟩ := Rule.applyHooks_eq_accepted_iff.1 happly
    rw [validate_eq_accepted_iff_of_ofValue? hagain]
    refine ⟨.hooks, hrule, ?_, happly'⟩
    rw [Field.hasLineBreak_plainMembers hmembers]
    exact hbreak

theorem validate_reported_toggle {rule : ToggleRule} {b : Bool} {value : Value}
    (hrule : Rule.ofField? field = some (.toggle rule))
    (hf : Field.ofValue? v = some (.toggle (.bool b) value))
    (h : validate field v context = .ok (.accepted reported))
    : validate field reported context = .ok (.accepted reported) := by
  obtain ⟨_, hrule', hbreak, happly⟩ := (validate_eq_accepted_iff_of_ofValue? hf).1 h
  rw [hrule] at hrule'
  cases hrule'
  rw [Rule.apply_toggle] at happly
  obtain ⟨flag, content, hshape, hreported⟩ := ToggleRule.apply_eq_accepted_iff.1 happly
  cases hshape
  cases b with
  | true =>
    obtain ⟨normal, haccept, rfl⟩ := hreported
    obtain ⟨hagain, hone⟩ := ToggleRule.accept?_normal haccept
    rw [@validate_eq_accepted_iff_of_ofValue? _ _ _ _ (.toggle (.bool true) normal) rfl]
    refine ⟨_, hrule, hone hbreak, ?_⟩
    rw [Rule.apply_toggle]
    rw [ToggleRule.apply_eq_accepted_iff]
    exact ⟨.bool true, normal, rfl, normal, hagain, rfl⟩
  | false =>
    obtain rfl := hreported
    exact (validate_eq_accepted_iff_of_ofValue? rfl).2 ⟨_, hrule, hbreak, happly⟩

theorem eq_empty_of_switchesOff (hplain : v.isPlain = true) (hoff : v.SwitchesOff)
    (h : validate "endpoint" v context = .ok (.accepted reported)) : reported = .text "" := by
  obtain ⟨content, hf⟩ := (switchesOff_iff hplain).1 hoff
  obtain ⟨_, ⟨⟩, -, happly⟩ := (validate_eq_accepted_iff_of_ofValue? hf).1 h
  cases happly
  rfl

theorem validate_reported_endpoint (hplain : v.isPlain = true) (hon : ¬ v.SwitchesOff)
    (h : validate "endpoint" v context = .ok (.accepted reported))
    : validate "endpoint" reported context = .ok (.accepted reported) := by
  obtain ⟨s, rfl, haccepts | ⟨-, flag, value, hf, hflag⟩⟩ := reported_endpoint h
  . obtain ⟨again, hagain⟩ := haccepts
    obtain ⟨_, ⟨⟩, -, happly⟩ := (validate_eq_accepted_iff_of_ofValue? rfl).1 hagain
    obtain rfl := Rule.eq_toPlain_of_apply happly nofun
    exact hagain
  . obtain ⟨b, rfl⟩ := Field.flag_of_isPlain hplain hf
    obtain rfl : b = false := hflag
    exact (hon ((switchesOff_iff hplain).2 ⟨value, hf⟩)).elim

theorem validate_reported (hplain : v.isPlain = true)
    (h : validate field v context = .ok (.accepted reported))
    : (¬ (field = "endpoint" ∧ v.SwitchesOff)
          → validate field reported context = .ok (.accepted reported))
        ∧ (field = "endpoint" ∧ v.SwitchesOff
          → reported = .text ""
            ∧ validate field reported context = .ok (.rejected .notEndpoint (.text ""))) := by
  constructor
  . intro hstable
    obtain ⟨rule, f, hrule, hf, -, happly⟩ := validate_eq_accepted_iff.1 h
    cases f with
    | text s => exact validate_reported_text hf h
    | group members => exact validate_reported_group hplain hf h
    | toggle flag value =>
      obtain ⟨b, rfl⟩ := Field.flag_of_isPlain hplain hf
      obtain rfl | ⟨toggle, rfl⟩ := Rule.exists_toggle_of_apply happly
      . obtain rfl := Rule.eq_endpoint_of_ofField? hrule
        exact validate_reported_endpoint hplain (fun hoff => hstable ⟨rfl, hoff⟩) h
      . exact validate_reported_toggle hrule hf h
  . rintro ⟨rfl, hoff⟩
    obtain rfl := eq_empty_of_switchesOff hplain hoff h
    exact ⟨rfl, rfl⟩

theorem validate_reported_numeral
    : validate "mtu" (.pair (.bool true) (.text " +01420 ")) none
          = .ok (.accepted (.pair (.bool true) (.int 1420)))
        ∧ validate "mtu" (.pair (.bool true) (.int 1420)) none
          = .ok (.accepted (.pair (.bool true) (.int 1420)))
        ∧ validate "endpoint" (.pair (.bool false) (.text "vpn.example.com:51820")) none
          = .ok (.accepted (.text ""))
        ∧ validate "endpoint" (.text "") none = .ok (.rejected .notEndpoint (.text "")) := by
  have hmtu : validate "mtu" (.pair (.bool true) (.text " +01420 ")) none
      = .ok (.accepted (.pair (.bool true) (.int 1420))) := rfl
  have hoff : validate "endpoint" (.pair (.bool false) (.text "vpn.example.com:51820")) none
      = .ok (.accepted (.text "")) := rfl
  refine ⟨hmtu, (validate_reported rfl hmtu).1 ?_, hoff, ((validate_reported rfl hoff).2 ?_).2⟩
  . rintro ⟨hfield, -⟩
    revert hfield
    decide
  . exact ⟨rfl, _, _, rfl, List.Perm.refl _⟩

end Reported

end WireMesh
