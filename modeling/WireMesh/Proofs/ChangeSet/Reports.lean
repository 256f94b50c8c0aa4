import WireMesh.Proofs.ChangeSet.Run

/-!
This module contains what a sequence of verdicts makes of a change set, whatever the checks are that
gave them. Both mappings are logs: the messages of all edits are stored one after the other, and so
are the values of the accepted ones. What stands under a field is therefore decided by the last of
its own edits, and the fields stand in the order in which they were first stored.
-/

namespace WireMesh

structure Report extends Edit where
  verdict : Verdict

namespace Report

def left (r : Report) : Value :=
  r.toEdit.left r.verdict.value

def lastMessage? (reports : List Report) (field : String) : Option (Option String) :=
  (reports.filter fun r => r.field = field).getLast?.map fun r => r.verdict.error?

def lastLeft? (reports : List Report) (field : String) : Option Value :=
  ((reports.filter fun r => r.field = field).filter fun r => r.verdict.accepted).getLast?.map left

end Report

inductive Interleaving {α : Type} : List α → List α → List α → Prop where
  | nil : Interleaving [] [] []
  | left {x : α} {xs ys zs : List α} (h : Interleaving xs ys zs)
      : Interleaving (x :: xs) ys (x :: zs)
  | right {y : α} {xs ys zs : List α} (h : Interleaving xs ys zs)
      : Interleaving xs (y :: ys) (y :: zs)

namespace Interleaving

variable {α : Type} {xs ys zs : List α}

theorem symm (h : Interleaving xs ys zs) : Interleaving ys xs zs := by
  induction h with
  | nil => exact .nil
  | left _ ih => exact .right ih
  | right _ ih => exact .left ih

theorem filter_eq_left (h : Interleaving xs ys zs) {p : α → Bool} (hp : ∀ y ∈ ys, p y = false)
    : zs.filter p = xs.filter p := by
  induction h with
  | nil => rfl
  | left _ ih =>
    rw [List.filter_cons, List.filter_cons]
    rw [ih hp]
  | right _ ih =>
    rw [List.forall_mem_cons] at hp
    rw [List.filter_cons]
    rw [hp.1]
    exact ih hp.2

end Interleaving

theorem Report.filter_field_congr {xs ys zs zs' : List Report} (h : Interleaving xs ys zs)
    (h' : Interleaving xs ys zs') (hdisjoint : ∀ r ∈ xs, ∀ s ∈ ys, r.field ≠ s.field)
    (field : String)
    : (zs.filter fun r => r.field = field) = zs'.filter fun r => r.field = field := by
  by_cases hxs : ∃ r ∈ xs, r.field = field
  . obtain ⟨r, hr, rfl⟩ := hxs
    have hys : ∀ s ∈ ys, decide (s.field = r.field) = false := by
      intro s hs
      exact decide_eq_false (hdisjoint r hr s hs).symm
    rw [h.filter_eq_left hys]
    rw [h'.filter_eq_left hys]
  . have hxs : ∀ r ∈ xs, decide (r.field = field) = false := by
      intro r hr
      apply decide_eq_false
      intro hfield
      exact hxs ⟨r, hr, hfield⟩
    rw [h.symm.filter_eq_left hxs]
    rw [h'.symm.filter_eq_left hxs]

namespace ChangeSet

def receive (cs : ChangeSet) (r : Report) : ChangeSet :=
  (cs.record r.field r.verdict r.committed).2

def receiveAll (cs : ChangeSet) (reports : List Report) : ChangeSet :=
  reports.foldl receive cs

theorem errors_receive (cs : ChangeSet) (r : Report)
    : (cs.receive r).errors = cs.errors.insert r.field r.verdict.error? := by
  unfold receive record Verdict.error?
  split
  . split
    . rfl
    . rfl
  . rfl

theorem changed_receive (cs : ChangeSet) (r : Report)
    : (cs.receive r).changed
        =
      if r.verdict.accepted then cs.changed.insert r.field r.left else cs.changed := by
  unfold receive record Report.left Edit.left
  split
  . split
    . rfl
    . rfl
  . rfl

theorem entries_errors_receiveAll (cs : ChangeSet) (reports : List Report)
    : (cs.receiveAll reports).errors.entries
        =
      Entries.putAll cs.errors.entries (reports.map fun r => (r.field, r.verdict.error?)) := by
  induction reports generalizing cs with
  | nil => rfl
  | cons r rest ih =>
    change ((cs.receive r).receiveAll rest).errors.entries = _
    rw [ih]
    rw [errors_receive]
    rfl

theorem entries_changed_receiveAll (cs : ChangeSet) (reports : List Report)
    : (cs.receiveAll reports).changed.entries
        =
      Entries.putAll cs.changed.entries
        ((reports.filter fun r => r.verdict.accepted).map fun r => (r.field, r.left)) := by
  induction reports generalizing cs with
  | nil => rfl
  | cons r rest ih =>
    change ((cs.receive r).receiveAll rest).changed.entries = _
    rw [ih]
    rw [changed_receive]
    rw [List.filter_cons]
    split
    . rfl
    . rfl

theorem get?_errors_receiveAll (cs : ChangeSet) (reports : List Report) (field : String)
    : (cs.receiveAll reports).errors.get? field
        =
      (Report.lastMessage? reports field).or (cs.errors.get? field) := by
  unfold OrderedMap.get? Report.lastMessage?
  rw [entries_errors_receiveAll]
  rw [Entries.get?_putAll_reverse]
  rw [← List.map_reverse]
  rw [Entries.get?_map]
  rw [← List.head?_filter]
  rw [List.filter_reverse]
  rw [List.head?_reverse]

theorem get?_changed_receiveAll (cs : ChangeSet) (reports : List Report) (field : String)
    : (cs.receiveAll reports).changed.get? field
        =
      (Report.lastLeft? reports field).or (cs.changed.get? field) := by
  unfold OrderedMap.get? Report.lastLeft?
  rw [entries_changed_receiveAll]
  rw [Entries.get?_putAll_reverse]
  rw [← List.map_reverse]
  rw [Entries.get?_map]
  rw [← List.head?_filter]
  rw [List.filter_reverse]
  rw [List.head?_reverse]
  rw [List.filter_filter, List.filter_filter]
  simp only [Bool.and_comm]

theorem hasErrors_iff {cs : ChangeSet}
    : cs.hasErrors = true ↔ ∃ field message, cs.errors.get? field = some (some message) := by
  unfold hasErrors OrderedMap.values
  rw [List.any_map]
  rw [List.any_eq_true]
  constructor
  . rintro ⟨⟨field, message⟩, hmem, hsome⟩
    obtain ⟨message, rfl⟩ := Option.isSome_iff_exists.1 hsome
    exact ⟨field, message, OrderedMap.get?_eq_some_iff.2 hmem⟩
  . rintro ⟨field, message, hget⟩
    exact ⟨(field, some message), OrderedMap.get?_eq_some_iff.1 hget, rfl⟩

theorem record_record (cs : ChangeSet) (field : String) (verdict : Verdict) (committed : Value)
    : (cs.record field verdict committed).2.record field verdict committed
        =
      cs.record field verdict committed := by
  have hinsert : ∀ {β : Type} (m : OrderedMap String β) (v : β),
      (m.insert field v).insert field v = m.insert field v :=
    fun m v => OrderedMap.insert_of_get?_eq_some (m.get?_insert_self field v)
  unfold record
  split
  . split
    . simp only [hinsert]
    . simp only [hinsert]
  . simp only [hinsert]

theorem receiveAll_ownEdits (cs : ChangeSet) (reports : List Report)
    : (∀ field, (cs.receiveAll reports).errors.get? field
          = (Report.lastMessage? reports field).or (cs.errors.get? field))
      ∧ (∀ field, (cs.receiveAll reports).changed.get? field
          = (Report.lastLeft? reports field).or (cs.changed.get? field))
      ∧ (cs.receiveAll reports).errors.keys
          = cs.errors.keys
            ++ ((reports.map fun r => r.field).filter fun field => field ∉ cs.errors.keys).eraseDups
      ∧ (cs.receiveAll reports).changed.keys
          = cs.changed.keys
            ++ (((reports.filter fun r => r.verdict.accepted).map fun r => r.field).filter
                fun field => field ∉ cs.changed.keys).eraseDups
      ∧ ((cs.receiveAll reports).hasErrors = true
          ↔
        ∃ field message, (Report.lastMessage? reports field).or (cs.errors.get? field)
          = some (some message))
      ∧ (∀ r : Report,
          ((cs.receiveAll reports).record r.field r.verdict r.committed).2.record
              r.field r.verdict r.committed
            = (cs.receiveAll reports).record r.field r.verdict r.committed)
      ∧ ∀ others merged merged' : List Report,
          Interleaving reports others merged → Interleaving reports others merged'
          → (∀ r ∈ reports, ∀ s ∈ others, r.field ≠ s.field)
          → ∀ field, (cs.receiveAll merged).errors.get? field
                = (cs.receiveAll merged').errors.get? field
              ∧ (cs.receiveAll merged).changed.get? field
                = (cs.receiveAll merged').changed.get? field := by
  refine ⟨get?_errors_receiveAll cs reports, get?_changed_receiveAll cs reports, ?_, ?_, ?_, ?_, ?_⟩
  . unfold OrderedMap.keys
    rw [entries_errors_receiveAll]
    rw [Entries.keys_putAll]
    unfold Entries.keys
    rw [List.map_map]
    rfl
  . unfold OrderedMap.keys
    rw [entries_changed_receiveAll]
    rw [Entries.keys_putAll]
    unfold Entries.keys
    rw [List.map_map]
    rfl
  . rw [hasErrors_iff]
    simp only [get?_errors_receiveAll]
  . intro r
    exact record_record ..
  . intro others merged merged' hmerged hmerged' hdisjoint field
    have hown := Report.filter_field_congr hmerged hmerged' hdisjoint field
    simp only [get?_errors_receiveAll, get?_changed_receiveAll]
    unfold Report.lastMessage? Report.lastLeft?
    rw [hown]
    exact ⟨rfl, rfl⟩

def nameEdits : List Report :=
  [⟨⟨"name", .text "phone", .text "laptop"⟩, ⟨true, "", .text "phone"⟩⟩,
   ⟨⟨"name", .text "", .text "laptop"⟩, ⟨false, "name cannot be empty", .text ""⟩⟩]

def mtuEdits : List Report :=
  [⟨⟨"mtu", .pair (.bool true) (.text "+1420"), .override ⟨true, .number 1420⟩⟩,
    ⟨true, "", .pair (.bool true) (.int 1420)⟩⟩]

theorem receiveAll_ownEdits_renaming
    : ∃ merged merged',
        Interleaving nameEdits mtuEdits merged ∧ Interleaving nameEdits mtuEdits merged'
          ∧ merged.map (fun r => r.field) = ["name", "mtu", "name"]
          ∧ merged'.map (fun r => r.field) = ["mtu", "name", "name"]
          ∧ (∀ r ∈ nameEdits, ∀ s ∈ mtuEdits, r.field ≠ s.field)
          ∧ (∀ field, ((∅ : ChangeSet).receiveAll merged).errors.get? field
              = ((∅ : ChangeSet).receiveAll merged').errors.get? field)
          ∧ ((∅ : ChangeSet).receiveAll nameEdits).errors.get? "name"
              = some (some "name cannot be empty")
          ∧ ((∅ : ChangeSet).receiveAll nameEdits).changed.get? "name" = some (.text "phone")
          ∧ ((∅ : ChangeSet).receiveAll mtuEdits).changed.get? "mtu" = some .null := by
  have hdisjoint : ∀ r ∈ nameEdits, ∀ s ∈ mtuEdits, r.field ≠ s.field := by decide
  have hmerged : Interleaving nameEdits mtuEdits
      (nameEdits.take 1 ++ mtuEdits ++ nameEdits.drop 1) :=
    .left (.right (.left .nil))
  have hmerged' : Interleaving nameEdits mtuEdits (mtuEdits ++ nameEdits) :=
    .right (.left (.left .nil))
  obtain ⟨herrors, hchanged, -, -, -, -, hsame⟩ := receiveAll_ownEdits ∅ nameEdits
  refine ⟨_, _, hmerged, hmerged', rfl, rfl, hdisjoint, ?_, herrors _, hchanged _, ?_⟩
  . intro field
    exact (hsame _ _ _ hmerged hmerged' hdisjoint field).1
  . exact (receiveAll_ownEdits ∅ mtuEdits).2.1 _

end ChangeSet

end WireMesh
