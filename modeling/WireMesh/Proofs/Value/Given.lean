import WireMesh.Field
import WireMesh.Proofs.Reading
import WireMesh.Value.Equality

/-!
This module contains what it means that a value gives a setting: the setting is read from the value,
or equals it. A value gives at most one setting, so the two never disagree.
-/

namespace WireMesh

namespace Binary

theorem toRat_of_toInt? {x : Binary} {n : Int} (h : x.toInt? = some n) : x.toRat = n := by
  unfold toInt? at h
  split at h
  . next hden =>
    cases h
    exact Rat.ext rfl hden
  . cases h

end Binary

namespace Value

theorem same_of_sameMembers {members others : List (String × Value)} {key : String} {v w : Value}
    (h : sameMembers members others = true) (hv : Entries.get? members key = some v)
    (hw : Entries.get? others key = some w) : v.same w = true := by
  induction members with
  | nil => cases hv
  | cons entry rest ih =>
    obtain ⟨k, u⟩ := entry
    rw [sameMembers, Bool.and_eq_true] at h
    rw [Entries.get?_cons] at hv
    split at hv
    . next hk =>
      subst hk
      cases hv
      rw [hw] at h
      exact h.1
    . exact ih h.2 hv

theorem number?_eq_of_same {v w : Value} {q : Rat} (h : v.same w = true)
    (hw : w.number? = some q) : v.number? = some q := by
  cases v with
  | bool b => exact (eq_of_beq h).trans hw
  | int n => exact (eq_of_beq h).trans hw
  | real x => exact (eq_of_beq h).trans hw
  | text s =>
    cases w with
    | text t => cases hw
    | mobility m => cases hw
    | _ => cases h
  | mobility m =>
    cases w with
    | text t => cases hw
    | mobility m' => cases hw
    | _ => cases h
  | _ =>
    cases w with
    | bool b => cases h
    | int n => cases h
    | real x => cases h
    | _ => cases hw

theorem number?_of_text? {w : Value} {s : String} (h : w.text? = some s) : w.number? = none := by
  cases w with
  | text t => rfl
  | mobility m => rfl
  | _ => cases h

theorem text?_eq_of_same {v w : Value} {s : String} (h : v.same w = true)
    (hw : w.text? = some s) : v.text? = some s := by
  -- Values of a number are compared by their numbers, and a text has none.
  have hnumber := number?_of_text? hw
  cases v with
  | text t => exact (eq_of_beq h).trans hw
  | mobility m => exact (eq_of_beq h).trans hw
  | bool b => cases (eq_of_beq h).trans hnumber
  | int n => cases (eq_of_beq h).trans hnumber
  | real x => cases (eq_of_beq h).trans hnumber
  | _ =>
    cases w with
    | text t => cases h
    | mobility m => cases h
    | _ => cases hw

theorem number?_of_readBool {v : Value} {b : Bool} {q : Rat} (h : v.readBool = .ok b)
    (hv : v.number? = some q) : q = if b then 1 else 0 := by
  have hint : ∀ n, readBoolInt n = .ok b → (n : Rat) = if b then 1 else 0 := by
    intro n hn
    unfold readBoolInt at hn
    split at hn
    . next hone =>
      cases hn
      rw [hone]
      rfl
    . split at hn
      . next hzero =>
        cases hn
        rw [hzero]
        rfl
      . cases hn
  cases v with
  | bool c =>
    cases h
    cases hv
    rfl
  | int n =>
    cases hv
    unfold readBool at h
    dsimp only at h
    split at h
    . exact hint n h
    . cases h
  | real x =>
    cases hv
    unfold readBool at h
    dsimp only at h
    split at h
    . next n hn =>
      split at h
      . rw [Binary.toRat_of_toInt? hn]
        exact hint n h
      . cases h
    . cases h
  | _ => cases hv

theorem bool_eq_of_given {v : Value} {b b' : Bool}
    (h : v.readBool = .ok b ∨ v.same (.bool b) = true)
    (h' : v.readBool = .ok b' ∨ v.same (.bool b') = true) : b = b' := by
  have hinj : ∀ c d : Bool, (if c then 1 else 0 : Rat) = (if d then 1 else 0) → c = d := by
    decide
  cases h with
  | inl hread =>
    cases h' with
    | inl hread' =>
      cases hread.symm.trans hread'
      rfl
    | inr hsame' =>
      have hnumber' := number?_eq_of_same hsame' rfl
      exact (hinj _ _ (number?_of_readBool hread hnumber')).symm
  | inr hsame =>
    have hnumber := number?_eq_of_same hsame rfl
    cases h' with
    | inl hread' => exact hinj _ _ (number?_of_readBool hread' hnumber)
    | inr hsame' =>
      exact hinj _ _ (Option.some.inj (hnumber.symm.trans (number?_eq_of_same hsame' rfl)))

theorem number?_of_readContent {v : Value} {n : Int} (h : v.readContent = .ok (.number n))
    : v.number? = some (n : Rat) := by
  cases v with
  | bool b =>
    cases h
    cases b with
    | true => rfl
    | false => rfl
  | int m =>
    cases h
    rfl
  | real x =>
    unfold readContent at h
    dsimp only at h
    split at h
    . next m hm =>
      split at h
      . cases h
        exact congrArg some (Binary.toRat_of_toInt? hm)
      . cases h
    . cases h
  | text s => cases h
  | mobility m => cases h
  | _ => cases h

end Value

def Override.GivenBy (o : Override) (v : Value) : Prop :=
  ofValue v = .ok o ∨ v.same o.toValue = true

theorem OverrideValue.number?_or_text? {v : Value} {content : OverrideValue}
    (h : v.readContent = .ok content ∨ v.same content.toValue = true)
    : match content with
      | .number n => v.number? = some (n : Rat)
      | .text s => v.text? = some s := by
  cases content with
  | number n =>
    cases h with
    | inl hread => exact Value.number?_of_readContent hread
    | inr hsame => exact Value.number?_eq_of_same hsame rfl
  | text s =>
    cases h with
    | inl hread => exact Value.text?_of_readContent hread
    | inr hsame => exact Value.text?_eq_of_same hsame rfl

theorem OverrideValue.eq_of_given {v : Value} {content content' : OverrideValue}
    (h : v.readContent = .ok content ∨ v.same content.toValue = true)
    (h' : v.readContent = .ok content' ∨ v.same content'.toValue = true) : content = content' := by
  have hv := number?_or_text? h
  have hv' := number?_or_text? h'
  cases content with
  | number n =>
    cases content' with
    | number m =>
      have heq := Option.some.inj (hv.symm.trans hv')
      rw [Rat.intCast_inj] at heq
      rw [heq]
    | text s => cases (Value.number?_of_text? hv').symm.trans hv
  | text s =>
    cases content' with
    | number m => cases (Value.number?_of_text? hv).symm.trans hv'
    | text t => rw [Option.some.inj (hv.symm.trans hv')]

namespace Override

theorem GivenBy.pair {flag value : Value} {o : Override} (h : o.GivenBy (.pair flag value))
    : (flag.readBool = .ok o.enabled ∨ flag.same (.bool o.enabled) = true)
        ∧ (value.readContent = .ok o.value ∨ value.same o.value.toValue = true) := by
  cases h with
  | inl hread =>
    obtain ⟨hflag, hvalue⟩ := ofMembers_pair_eq_ok_iff.1 hread
    exact ⟨.inl hflag, .inl hvalue⟩
  | inr hsame =>
    have hmembers : Value.sameMembers [("enabled", flag), ("value", value)] o.members = true :=
      (Bool.and_eq_true _ _ ▸ hsame : _ ∧ _).2
    constructor
    . right
      exact @Value.same_of_sameMembers _ _ "enabled" _ _ hmembers rfl rfl
    . right
      exact @Value.same_of_sameMembers _ _ "value" _ _ hmembers rfl rfl

theorem GivenBy.eq {flag value : Value} {o o' : Override} (h : o.GivenBy (.pair flag value))
    (h' : o'.GivenBy (.pair flag value)) : o = o' := by
  obtain ⟨hflag, hvalue⟩ := h.pair
  obtain ⟨hflag', hvalue'⟩ := h'.pair
  cases o
  cases o'
  rw [mk.injEq]
  exact ⟨Value.bool_eq_of_given hflag hflag', OverrideValue.eq_of_given hvalue hvalue'⟩

end Override

end WireMesh
