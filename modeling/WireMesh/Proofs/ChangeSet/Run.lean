import WireMesh.ChangeSet
import WireMesh.Proofs.Field.Acceptance

/-!
This module contains what a sequence of edits leaves in a change set. The entry of a field is that
of its last accepted edit, and the fields stand in the order of their first accepted edits.
-/

namespace WireMesh

structure Edit where
  field : String
  value : Value
  committed : Value

namespace Edit

def left (e : Edit) (reported : Value) : Value :=
  if reported.untagged.same e.committed.untagged then .null else reported

def stored? (context : Option Context) (field : String) (e : Edit) : Option Value :=
  if e.field = field then
    match validate e.field e.value context with
    | .ok (.accepted reported) => some (e.left reported)
    | _ => none
  else
    none

theorem stored?_eq_some_iff {context : Option Context} {field : String} {e : Edit} {v : Value}
    : e.stored? context field = some v
        ↔
      e.field = field ∧ ∃ reported, validate field e.value context = .ok (.accepted reported)
        ∧ e.left reported = v := by
  unfold stored?
  split
  . next hfield =>
    subst hfield
    split
    . next reported hv => simp [hv]
    . next hv =>
      simp only [reduceCtorEq, false_iff, not_and, true_and, not_exists]
      intro reported hreported
      exact (hv reported hreported).elim
  . next hfield => simp [hfield]

end Edit

namespace ChangeSet

/--
The change set after an edit. An edit whose check fails leaves it as it was.
-/
def step (context : Option Context) (cs : ChangeSet) (e : Edit) : ChangeSet :=
  match cs.track e.field e.field e.value e.committed context with
  | .error _ => cs
  | .ok (_, cs) => cs

def run (context : Option Context) (edits : List Edit) : ChangeSet :=
  edits.foldl (step context) ∅

variable {context : Option Context}

theorem step_of_accepted {cs : ChangeSet} {e : Edit} {reported : Value}
    (h : validate e.field e.value context = .ok (.accepted reported))
    : cs.step context e
        =
      ⟨cs.errors.insert e.field none, cs.changed.insert e.field (e.left reported)⟩ := by
  unfold step track
  rw [h]
  by_cases hsame : reported.untagged.same e.committed.untagged
  . simp [record, Ruling.verdict, Edit.left, hsame]
  . simp [record, Ruling.verdict, Edit.left, hsame]

theorem changed_step_of_not_accepts {cs : ChangeSet} {e : Edit}
    (h : ¬ Accepts e.field e.value context) : (cs.step context e).changed = cs.changed := by
  unfold step track
  cases hv : validate e.field e.value context with
  | error cause => rfl
  | ok ruling =>
    cases ruling with
    | accepted reported => exact (h ⟨reported, hv⟩).elim
    | rejected complaint reported => rfl

theorem get?_changed_step (cs : ChangeSet) (e : Edit) (field : String)
    : (cs.step context e).changed.get? field
        =
      (e.stored? context field).or (cs.changed.get? field) := by
  by_cases h : Accepts e.field e.value context
  . obtain ⟨reported, hreported⟩ := h
    rw [step_of_accepted hreported]
    dsimp only
    rw [OrderedMap.get?_insert]
    unfold Edit.stored?
    rw [hreported]
    split <;> rfl
  . rw [changed_step_of_not_accepts h]
    have hstored : e.stored? context field = none := by
      rw [Option.eq_none_iff_forall_not_mem]
      intro v hv
      obtain ⟨rfl, reported, hreported, -⟩ := Edit.stored?_eq_some_iff.1 hv
      exact h ⟨reported, hreported⟩
    rw [hstored]
    rfl

theorem get?_changed_foldl (cs : ChangeSet) (edits : List Edit) (field : String)
    : (edits.foldl (step context) cs).changed.get? field
        =
      (edits.reverse.findSome? (Edit.stored? context field)).or (cs.changed.get? field) := by
  induction edits generalizing cs with
  | nil => rfl
  | cons e rest ih =>
    rw [List.foldl_cons]
    rw [ih]
    rw [get?_changed_step]
    rw [List.reverse_cons]
    rw [List.findSome?_append]
    rw [List.findSome?_singleton]
    rw [Option.or_assoc]

theorem get?_changed_run (edits : List Edit) (field : String)
    : (run context edits).changed.get? field
        =
      edits.reverse.findSome? (Edit.stored? context field) := by
  unfold run
  rw [get?_changed_foldl]
  exact Option.or_none

theorem reported_of_get?_pending_run {edits : List Edit} {field : String} {v : Value}
    (h : (run context edits).pending.get? field = some v)
    : ∃ e ∈ edits, e.field = field ∧ validate field e.value context = .ok (.accepted v) := by
  unfold pending at h
  rw [OrderedMap.get?_filter] at h
  rw [Option.filter_eq_some_iff] at h
  obtain ⟨hchanged, hnull⟩ := h
  rw [get?_changed_run] at hchanged
  obtain ⟨e, he, hstored⟩ := List.exists_of_findSome?_eq_some hchanged
  rw [Edit.stored?_eq_some_iff] at hstored
  obtain ⟨hfield, reported, hreported, hleft⟩ := hstored
  unfold Edit.left at hleft
  split at hleft
  . subst hleft
    cases hnull
  . subst hleft
    exact ⟨e, List.mem_reverse.1 he, hfield, hreported⟩

theorem find?_keys_changed_foldl (cs : ChangeSet) {edits : List Edit}
    (h : ∀ e ∈ edits, Accepts e.field e.value context) (p : String → Bool)
    : (edits.foldl (step context) cs).changed.keys.find? p
        =
      (cs.changed.keys.find? p).or ((edits.map Edit.field).find? p) := by
  induction edits generalizing cs with
  | nil => exact Option.or_none.symm
  | cons e rest ih =>
    obtain ⟨reported, hreported⟩ := h e List.mem_cons_self
    have hrest := ih (cs.step context e) fun e he => h e (List.mem_cons_of_mem _ he)
    rw [List.foldl_cons]
    rw [hrest]
    rw [step_of_accepted hreported]
    rw [OrderedMap.keys_insert]
    rw [List.map_cons]
    rw [List.find?_cons]
    split
    . next hmem =>
      split
      . next hp =>
        -- The field is there already, so the search does not get as far as this edit.
        obtain ⟨key, hkey⟩ := Option.isSome_iff_exists.1 (List.find?_isSome.2 ⟨_, hmem, hp⟩)
        rw [hkey]
        rfl
      . rfl
    . rw [List.find?_append]
      rw [List.find?_singleton]
      rw [Option.or_assoc]
      cases p e.field <;> rfl

theorem find?_keys_changed_run {edits : List Edit}
    (h : ∀ e ∈ edits, Accepts e.field e.value context) (p : String → Bool)
    : (run context edits).changed.keys.find? p = (edits.map Edit.field).find? p := by
  unfold run
  rw [find?_keys_changed_foldl _ h]
  rfl

end ChangeSet

end WireMesh
