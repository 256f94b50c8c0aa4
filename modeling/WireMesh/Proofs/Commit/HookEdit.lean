import WireMesh.Proofs.ChangeSet.Run
import WireMesh.Proofs.Commit.Patch
import WireMesh.Proofs.Value.Given

/-!
This module contains the edits of hooks. They are made to two kinds of fields: the one of all hooks
and those of the single ones, so that every hook is set by two fields.
-/

namespace WireMesh

open Commit

/--
A field through which hooks are edited: that of all of them or that of one.
-/
inductive HookField where
  | all
  | one (hook : Hook)
deriving DecidableEq

namespace HookField

def name : HookField → String
  | .all => hooksField
  | .one hook => hook.key

def committed (p : Peer) : HookField → Value
  | .all => .hooks p.hooks
  | .one hook => .override (p.hooks.get hook)

def covers (hook : Hook) : HookField → Bool
  | .all => true
  | .one own => own == hook

def rival (hook : Hook) : HookField → HookField
  | .all => .one hook
  | .one _ => .all

theorem name_injective {f g : HookField} (h : f.name = g.name) : f = g := by
  cases f with
  | all =>
    cases g with
    | all => rfl
    | one hook => exact (key_ne_hooksField hook h.symm).elim
  | one hook =>
    cases g with
    | all => exact (key_ne_hooksField hook h).elim
    | one hook' =>
      cases hook <;> cases hook' <;> first | rfl | exact absurd h (by decide)

theorem covers_rival (hook : Hook) (f : HookField) : (f.rival hook).covers hook = true := by
  cases f with
  | all => exact beq_self_eq_true hook
  | one own => rfl

theorem rival_ne (hook : Hook) (f : HookField) : f ≠ f.rival hook := by
  cases f with
  | all => exact HookField.noConfusion
  | one own => exact HookField.noConfusion

theorem eq_or_eq_rival {hook : Hook} {f g : HookField} (hf : f.covers hook = true)
    (hg : g.covers hook = true) : g = f ∨ g = f.rival hook := by
  cases f with
  | all =>
    cases g with
    | all => exact .inl rfl
    | one own =>
      right
      exact congrArg one (eq_of_beq hg)
  | one own =>
    cases g with
    | all => exact .inr rfl
    | one own' =>
      left
      exact congrArg one ((eq_of_beq hg).trans (eq_of_beq hf).symm)

def sets (hook : Hook) (name : String) : Bool :=
  name == hooksField || name == hook.key

theorem sets_name (hook : Hook) (f : HookField) : sets hook f.name = f.covers hook := by
  cases f with
  | all => rfl
  | one own =>
    cases own <;> cases hook <;> rfl

theorem eq_name_of_sets {hook : Hook} {f : HookField} {key : String} (hf : f.covers hook = true)
    (hkey : sets hook key = true) : key = f.name ∨ key = (f.rival hook).name := by
  unfold sets at hkey
  rw [Bool.or_eq_true, beq_iff_eq, beq_iff_eq] at hkey
  cases f with
  | all => exact hkey
  | one own =>
    cases eq_of_beq hf
    exact hkey.symm

theorem hookValue?_of_not_sets {hook : Hook} {key : String} (v : Value)
    (h : sets hook key = false) : hookValue? hook (key, v) = none := by
  unfold sets at h
  rw [Bool.or_eq_false_iff, beq_eq_false_iff_ne, beq_eq_false_iff_ne] at h
  exact hookValue?_of_ne v h.2 h.1

theorem rival_rival {hook : Hook} {f : HookField} (hf : f.covers hook = true)
    : (f.rival hook).rival hook = f := by
  cases f with
  | all => rfl
  | one own => exact congrArg one (eq_of_beq hf).symm

end HookField

structure HookEdit where
  field : HookField
  value : Value

namespace HookEdit

def toEdit (p : Peer) (e : HookEdit) : Edit :=
  ⟨e.field.name, e.value, e.field.committed p⟩

def given? (e : HookEdit) (hook : Hook) : Option Value :=
  match e.field with
  | .all => e.value.toPlain.members?.bind fun members => Entries.get? members hook.key
  | .one own => if own = hook then some e.value.toPlain else none

def isChange (p : Peer) (e : HookEdit) : Bool :=
  !e.value.toPlain.untagged.same (e.field.committed p).untagged

def DistinctKeys (e : HookEdit) : Prop :=
  ∀ members, Field.ofValue? e.value = some (.group members) → (Entries.keys members).Nodup

def Gives (e : HookEdit) (hook : Hook) (o : Override) : Prop :=
  ∃ v, e.given? hook = some v ∧ o.GivenBy v

variable {e : HookEdit} {p : Peer} {context : Option Context}

theorem validate_of_accepts (h : Accepts e.field.name e.value context)
    : validate e.field.name e.value context = .ok (.accepted e.value.toPlain) := by
  obtain ⟨reported, hreported⟩ := h
  rw [hreported]
  cases hfield : e.field with
  | all =>
    rw [hfield] at hreported
    obtain ⟨members, hgroup, rfl, -⟩ := reported_group hreported
    rw [Value.toPlain_of_ofValue? hgroup]
    rfl
  | one own =>
    rw [hfield] at hreported
    obtain ⟨_, f, hrule, hf, -, happly⟩ := validate_eq_accepted_iff.1 hreported
    have hrule := (Rule.ofField?_key own).symm.trans hrule
    cases hrule
    rw [Value.toPlain_of_ofValue? hf]
    rw [(ToggleRule.script_apply_eq_accepted happly).2]

theorem toPlain_of_accepts_key {v : Value} {hook : Hook} (h : Accepts hook.key v context)
    : ∃ flag value, v.toPlain = .pair flag value := by
  obtain ⟨reported, hreported⟩ := h
  obtain ⟨_, f, hrule, hf, -, happly⟩ := validate_eq_accepted_iff.1 hreported
  have hrule := (Rule.ofField?_key hook).symm.trans hrule
  cases hrule
  obtain ⟨⟨flag, value, rfl⟩, -⟩ := ToggleRule.script_apply_eq_accepted happly
  rw [Value.toPlain_of_ofValue? hf]
  exact ⟨flag, value, rfl⟩

theorem toPlain_of_accepts (h : Accepts e.field.name e.value context)
    : ∃ members, e.value.toPlain = .object members := by
  cases hfield : e.field with
  | all =>
    rw [hfield] at h
    obtain ⟨reported, hreported⟩ := h
    obtain ⟨members, hgroup, -⟩ := reported_group hreported
    rw [Value.toPlain_of_ofValue? hgroup]
    exact ⟨_, rfl⟩
  | one own =>
    rw [hfield] at h
    obtain ⟨flag, value, hpair⟩ := toPlain_of_accepts_key h
    rw [hpair]
    exact ⟨_, rfl⟩

theorem given?_of_accepts (h : Accepts e.field.name e.value context) {hook : Hook}
    (hcovers : e.field.covers hook = true)
    : ∃ flag value, e.given? hook = some (.pair flag value) := by
  unfold given?
  cases hfield : e.field with
  | all =>
    rw [hfield] at h
    obtain ⟨reported, hreported⟩ := h
    obtain ⟨members, hgroup, -, hall⟩ := reported_group hreported
    obtain ⟨w, hw, haccepted⟩ := hall hook
    obtain ⟨flag, value, hpair⟩ := toPlain_of_accepts_key ⟨_, haccepted⟩
    refine ⟨flag, value, ?_⟩
    rw [Value.toPlain_of_ofValue? hgroup]
    change Entries.get? (Value.plainMembers members) hook.key = _
    rw [Value.get?_plainMembers]
    rw [hw]
    exact congrArg some hpair
  | one own =>
    rw [hfield] at h hcovers
    cases eq_of_beq hcovers
    obtain ⟨flag, value, hpair⟩ := toPlain_of_accepts_key h
    refine ⟨flag, value, ?_⟩
    dsimp only
    rw [if_pos rfl]
    exact congrArg some hpair

theorem Gives.eq (h : Accepts e.field.name e.value context) {hook : Hook}
    (hcovers : e.field.covers hook = true) {o o' : Override} (ho : e.Gives hook o)
    (ho' : e.Gives hook o') : o = o' := by
  obtain ⟨flag, value, hgiven⟩ := given?_of_accepts h hcovers
  obtain ⟨v, hv, hgives⟩ := ho
  obtain ⟨v', hv', hgives'⟩ := ho'
  rw [hgiven] at hv hv'
  cases hv
  cases hv'
  exact hgives.eq hgives'

theorem hookValue?_eq_given? (h : Accepts e.field.name e.value context) {hook : Hook}
    (hcovers : e.field.covers hook = true)
    : hookValue? hook (e.field.name, e.value.toPlain) = e.given? hook := by
  obtain ⟨flag, value, hgiven⟩ := given?_of_accepts h hcovers
  unfold given? at hgiven ⊢
  cases hfield : e.field with
  | all =>
    rw [hfield] at hgiven
    dsimp only at hgiven ⊢
    change hookValue? hook (hooksField, _) = _
    rw [hookValue?_hooksField]
    rw [hgiven]
    rfl
  | one own =>
    rw [hfield] at hcovers
    cases eq_of_beq hcovers
    dsimp only
    rw [if_pos rfl]
    exact hookValue?_key hook _

theorem left_toEdit : (e.toEdit p).left e.value.toPlain
    = if e.isChange p then e.value.toPlain else .null := by
  unfold Edit.left isChange toEdit
  dsimp only
  cases e.value.toPlain.untagged.same (e.field.committed p).untagged with
  | true => rfl
  | false => rfl

theorem gives_committed (h : Accepts e.field.name e.value context) {hook : Hook}
    (hcovers : e.field.covers hook = true) (hchange : e.isChange p = false)
    : e.Gives hook (p.hooks.get hook) := by
  obtain ⟨flag, value, hgiven⟩ := given?_of_accepts h hcovers
  refine ⟨_, hgiven, .inr ?_⟩
  obtain ⟨members, hobject⟩ := toPlain_of_accepts h
  unfold isChange at hchange
  rw [Bool.not_eq_false', hobject] at hchange
  unfold given? at hgiven
  rw [hobject] at hgiven
  cases hfield : e.field with
  | all =>
    rw [hfield] at hchange hgiven
    change (_ && Value.sameMembers members p.hooks.members) = true at hchange
    rw [Bool.and_eq_true] at hchange
    exact Value.same_of_sameMembers hchange.2 hgiven (p.hooks.get?_members hook)
  | one own =>
    rw [hfield] at hchange hgiven hcovers
    cases eq_of_beq hcovers
    dsimp only at hgiven
    rw [if_pos rfl] at hgiven
    cases hgiven
    exact hchange

end HookEdit

end WireMesh
