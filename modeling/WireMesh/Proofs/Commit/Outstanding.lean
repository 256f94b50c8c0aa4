import WireMesh.Proofs.Ascending
import WireMesh.Proofs.ChangeSet.Reports
import WireMesh.Proofs.Commit.Refusal
import WireMesh.Proofs.Field.Failure
import WireMesh.Session

/-!
This module contains when a commit is refused for edits that were rejected, and which fields the
refusal names. It is refused if and only if the last edit of some field was rejected. Of these
fields, those are named whose rejection has a message, so a rejection without one is passed over in
silence. The checks of this library always have a message.
-/

namespace WireMesh

open Commit

namespace Report

variable {reports : List Report} {field : String}

def last? (reports : List Report) (field : String) : Option Report :=
  (reports.filter fun r => r.field = field).getLast?

def LastRejected (reports : List Report) (field : String) : Prop :=
  ∃ r, last? reports field = some r ∧ r.verdict.accepted = false

theorem mem_of_last? {r : Report} (h : last? reports field = some r) : r ∈ reports :=
  (List.mem_filter.1 (List.mem_of_getLast? h)).1

theorem lastMessage?_eq_some_iff {message : String}
    : lastMessage? reports field = some (some message)
        ↔
      ∃ r, last? reports field = some r ∧ r.verdict.accepted = false
        ∧ r.verdict.message = message := by
  change (last? reports field).map (fun r => r.verdict.error?) = _ ↔ _
  rw [Option.map_eq_some_iff]
  apply exists_congr
  intro r
  apply and_congr_right
  intro _
  unfold Verdict.error?
  cases r.verdict.accepted with
  | true => simp
  | false => simp

end Report

namespace ChangeSet

variable {cs : ChangeSet} {reports : List Report} {field : String}

theorem mem_failing_iff
    : field ∈ cs.failing
        ↔
      ∃ message, cs.errors.get? field = some (some message) ∧ message ≠ "" := by
  unfold failing
  rw [List.mem_mergeSort]
  rw [List.mem_filterMap]
  constructor
  . rintro ⟨⟨key, message⟩, hmem, hkey⟩
    split at hkey
    . next hany =>
      cases hkey
      obtain ⟨text, rfl, htext⟩ := (Option.any_eq_true _ _).1 hany
      exact ⟨text, OrderedMap.get?_eq_some_iff.2 hmem, bne_iff_ne.1 htext⟩
    . cases hkey
  . rintro ⟨message, hget, hmessage⟩
    refine ⟨(field, some message), OrderedMap.get?_eq_some_iff.1 hget, ?_⟩
    rw [if_pos]
    exact bne_iff_ne.2 hmessage

theorem pairwise_failing (cs : ChangeSet)
    : cs.failing.Pairwise fun field other => field < other := by
  apply Text.pairwise_lt_mergeSort fun field : String => field
  rw [List.map_id']
  have hkeys : cs.errors.entries.Pairwise fun entry other => entry.1 ≠ other.1 :=
    List.pairwise_map.1 cs.errors.nodup
  apply hkeys.filterMap
  intro entry other hne field hfield other' hother
  split at hfield
  . cases hfield
    split at hother
    . cases hother
      exact hne
    . cases hother
  . cases hfield

theorem get?_errors_receiveAll_empty
    : ((∅ : ChangeSet).receiveAll reports).errors.get? field
        =
      Report.lastMessage? reports field := by
  rw [get?_errors_receiveAll]
  exact Option.or_none

theorem hasErrors_receiveAll_iff
    : ((∅ : ChangeSet).receiveAll reports).hasErrors = true
        ↔
      ∃ field, Report.LastRejected reports field := by
  rw [hasErrors_iff]
  apply exists_congr
  intro field
  simp only [get?_errors_receiveAll_empty, Report.lastMessage?_eq_some_iff]
  constructor
  . rintro ⟨message, r, hlast, hrejected, -⟩
    exact ⟨r, hlast, hrejected⟩
  . rintro ⟨r, hlast, hrejected⟩
    exact ⟨_, r, hlast, hrejected, rfl⟩

theorem mem_failing_receiveAll_iff
    : field ∈ ((∅ : ChangeSet).receiveAll reports).failing
        ↔
      ∃ r, Report.last? reports field = some r ∧ r.verdict.accepted = false
        ∧ r.verdict.message ≠ "" := by
  rw [mem_failing_iff]
  simp only [get?_errors_receiveAll_empty, Report.lastMessage?_eq_some_iff]
  constructor
  . rintro ⟨message, ⟨r, hlast, hrejected, rfl⟩, hmessage⟩
    exact ⟨r, hlast, hrejected, hmessage⟩
  . rintro ⟨r, hlast, hrejected, hmessage⟩
    exact ⟨_, ⟨r, hlast, hrejected, rfl⟩, hmessage⟩

theorem failing_eq_lastRejected_iff
    : (∀ field, field ∈ ((∅ : ChangeSet).receiveAll reports).failing
          ↔ Report.LastRejected reports field)
        ↔
      ∀ field r, Report.last? reports field = some r → r.verdict.accepted = false
        → r.verdict.message ≠ "" := by
  simp only [mem_failing_receiveAll_iff]
  constructor
  . intro hall field r hlast hrejected
    obtain ⟨r', hlast', -, hmessage⟩ := (hall field).2 ⟨r, hlast, hrejected⟩
    rw [hlast] at hlast'
    cases hlast'
    exact hmessage
  . intro hall field
    constructor
    . rintro ⟨r, hlast, hrejected, -⟩
      exact ⟨r, hlast, hrejected⟩
    . rintro ⟨r, hlast, hrejected⟩
      exact ⟨r, hlast, hrejected, hall field r hlast hrejected⟩

end ChangeSet

namespace Commit

variable {model : Model} {members changes : List (String × Value)} {field : String} {v : Value}
  {target : Target} {fields : List String}

theorem mergeField_ne_outstanding
    : mergeField model members field v ≠ .error (.outstanding target fields) := by
  intro h
  unfold mergeField setHook mergeHooks setMember at h
  grind

theorem merge_ne_outstanding
    : merge model members changes ≠ .error (.outstanding target fields) := by
  induction changes generalizing members with
  | nil => nofun
  | cons change rest ih =>
    rw [merge]
    split
    . next hfield =>
      rw [← hfield]
      exact mergeField_ne_outstanding
    . exact ih

theorem patch_ne_outstanding {α : Type} {read : Value → Checked α}
    : patch model read members changes ≠ .error (.outstanding target fields) := by
  unfold patch
  split
  . next e hmerge =>
    rintro ⟨⟩
    exact merge_ne_outstanding hmerge
  . split
    . nofun
    . nofun

theorem commitTo_eq_outstanding_iff {α : Type} {n : Network} {cs : ChangeSet} {named : Target}
    {found : Option α} {patch : α → List (String × Value) → Except CommitError α}
    {store : α → Network}
    (hpatch : ∀ a changes target fields, patch a changes ≠ .error (.outstanding target fields))
    : commitTo n cs target found patch store = .error (.outstanding named fields)
        ↔
      (∃ a, found = some a) ∧ cs.hasErrors = true ∧ named = target ∧ fields = cs.failing := by
  unfold commitTo
  cases found with
  | none => simp
  | some a =>
    cases cs.hasErrors with
    | true => simp [eq_comm]
    | false =>
      simp only [Bool.false_eq_true, if_false, false_and, and_false, iff_false]
      split
      . nofun
      . split
        . next e he =>
          rintro ⟨⟩
          exact hpatch _ _ _ _ he
        . nofun

end Commit

namespace Network

def commit (n : Network) (target : Target) (cs : ChangeSet) : Except CommitError Network :=
  match target with
  | .peer peerId => n.commitPeer peerId cs
  | .connection id => n.commitConnection id cs

theorem commit_of_session (s : Session) (slot : String) (target : Target)
    : s.commit slot target
        =
      match s.network.commit target (s.slot slot) with
      | .error e => .error (.commit e)
      | .ok n => .ok ({ s with network := n }.reset slot) := by
  cases target with
  | peer peerId => rfl
  | connection id => rfl

def Holds (n : Network) (target : Target) : Prop :=
  match target with
  | .peer peerId => ∃ p, n.peers.get? peerId = some p
  | .connection id => ∃ c, n.connections.get? id = some c

variable {n : Network} {target named : Target} {fields : List String}

theorem commit_eq_outstanding_iff {cs : ChangeSet} (h : n.Holds target)
    : n.commit target cs = .error (.outstanding named fields)
        ↔
      cs.hasErrors = true ∧ named = target ∧ fields = cs.failing := by
  cases target with
  | peer peerId =>
    change n.commitPeer peerId cs = _ ↔ _
    have hpatch : ∀ (p : Peer) changes target fields,
        p.patch changes ≠ .error (.outstanding target fields) :=
      fun _ _ _ _ => patch_ne_outstanding
    rw [commitPeer_eq_commitTo]
    rw [commitTo_eq_outstanding_iff hpatch]
    exact and_iff_right h
  | connection id =>
    change n.commitConnection id cs = _ ↔ _
    have hpatch : ∀ (c : Connection) changes target fields,
        c.patch changes ≠ .error (.outstanding target fields) :=
      fun _ _ _ _ => patch_ne_outstanding
    rw [commitConnection_eq_commitTo]
    rw [commitTo_eq_outstanding_iff hpatch]
    exact and_iff_right h

theorem commit_outstanding_lastRejected (n : Network) (target : Target) (reports : List Report)
    (h : n.Holds target)
    : ((∃ named fields, n.commit target ((∅ : ChangeSet).receiveAll reports)
          = .error (.outstanding named fields))
          ↔
        ∃ field, Report.LastRejected reports field)
      ∧ ∀ named fields, n.commit target ((∅ : ChangeSet).receiveAll reports)
            = .error (.outstanding named fields)
          → (CommitError.outstanding named fields).message
              = "change-set for " ++ target.text ++ " has invalid fields: "
                ++ ", ".intercalate fields
            ∧ (fields.Pairwise fun field other => field < other)
            ∧ (∀ field, field ∈ fields ↔ ∃ r, Report.last? reports field = some r
                ∧ r.verdict.accepted = false ∧ r.verdict.message ≠ "")
            ∧ ((∀ field, field ∈ fields ↔ Report.LastRejected reports field)
                ↔
              ∀ field r, Report.last? reports field = some r → r.verdict.accepted = false
                → r.verdict.message ≠ "")
            ∧ ((∀ r ∈ reports, ∃ ruling : Ruling, r.verdict = ruling.verdict)
                → ∀ field, field ∈ fields ↔ Report.LastRejected reports field) := by
  constructor
  . simp only [commit_eq_outstanding_iff h]
    rw [← ChangeSet.hasErrors_receiveAll_iff]
    simp
  . intro named fields hrefused
    obtain ⟨-, rfl, rfl⟩ := (commit_eq_outstanding_iff h).1 hrefused
    refine ⟨rfl, ChangeSet.pairwise_failing _, fun _ => ChangeSet.mem_failing_receiveAll_iff,
      ChangeSet.failing_eq_lastRejected_iff, ?_⟩
    -- The verdict of a check of this library has a message for every complaint.
    intro hrulings
    rw [ChangeSet.failing_eq_lastRejected_iff]
    intro field r hlast hrejected
    obtain ⟨ruling, hruling⟩ := hrulings r (Report.mem_of_last? hlast)
    rw [hruling] at hrejected ⊢
    cases ruling with
    | accepted reported => cases hrejected
    | rejected complaint reported => exact complaint.message_ne_empty

def rejectedEdits : List Report :=
  [⟨⟨"mtu", .pair (.bool true) (.int 0), .override .off⟩,
    ⟨false, "MTU is invalid", .pair (.bool true) (.int 0)⟩⟩,
   ⟨⟨"name", .text "", .text "gateway"⟩, ⟨false, "name cannot be empty", .text ""⟩⟩,
   ⟨⟨"address", .text "10", .text "10.0.0.1"⟩, ⟨false, "address is not IPv4", .text "10"⟩⟩,
   ⟨⟨"mtu", .pair (.bool false) (.int 0), .override .off⟩,
    ⟨true, "", .pair (.bool false) (.int 0)⟩⟩]

def silentEdit : Report :=
  ⟨⟨"name", .text "", .text "gateway"⟩, ⟨false, "", .text ""⟩⟩

theorem commit_outstanding_lastRejected_gateway
    : gatewayNetwork.Holds (.peer gateway.id)
        ∧ gatewayNetwork.Holds (.connection gatewayLink)
        ∧ gatewayNetwork.commit (.peer gateway.id) ((∅ : ChangeSet).receiveAll rejectedEdits)
            = .error (.outstanding (.peer gateway.id) ["address", "name"])
        ∧ (∀ r ∈ rejectedEdits, ∃ ruling : Ruling, r.verdict = ruling.verdict)
        ∧ (∀ field, field ∈ ["address", "name"] ↔ Report.LastRejected rejectedEdits field)
        ∧ ∃ named fields, gatewayNetwork.commit (.connection gatewayLink)
            ((∅ : ChangeSet).receiveAll [silentEdit]) = .error (.outstanding named fields) := by
  have hpeer : gatewayNetwork.Holds (.peer gateway.id) := ⟨_, rfl⟩
  have hconnection : gatewayNetwork.Holds (.connection gatewayLink) := ⟨_, rfl⟩
  have hrefused : gatewayNetwork.commit (.peer gateway.id)
      ((∅ : ChangeSet).receiveAll rejectedEdits)
      = .error (.outstanding (.peer gateway.id) ["address", "name"]) := by
    rw [commit_eq_outstanding_iff hpeer]
    refine ⟨rfl, rfl, ?_⟩
    change _ = ["name", "address"].mergeSort fun a b => decide (a ≤ b)
    simp [List.mergeSort, List.MergeSort.Internal.splitInTwo]
  have hrulings : ∀ r ∈ rejectedEdits, ∃ ruling : Ruling, r.verdict = ruling.verdict := by
    unfold rejectedEdits
    simp only [List.forall_mem_cons]
    exact ⟨⟨.rejected .notMtu _, rfl⟩, ⟨.rejected (.empty "name") _, rfl⟩,
      ⟨.rejected .notAddress _, rfl⟩, ⟨.accepted _, rfl⟩, List.forall_mem_nil _⟩
  obtain ⟨-, -, -, -, hexact⟩ :=
    (commit_outstanding_lastRejected gatewayNetwork _ rejectedEdits hpeer).2 _ _ hrefused
  refine ⟨hpeer, hconnection, hrefused, hrulings, hexact hrulings, ?_⟩
  rw [(commit_outstanding_lastRejected gatewayNetwork _ [silentEdit] hconnection).1]
  exact ⟨"name", silentEdit, rfl, rfl⟩

theorem not_named_silentEdit
    : gatewayNetwork.Holds (.peer gateway.id)
        ∧ Report.LastRejected [silentEdit] "name"
        ∧ gatewayNetwork.commit (.peer gateway.id) ((∅ : ChangeSet).receiveAll [silentEdit])
            = .error (.outstanding (.peer gateway.id) [])
        ∧ (CommitError.outstanding (.peer gateway.id) []).message
            = "change-set for peer d0000000-0000-4000-8000-000000000000 has invalid fields: "
        ∧ ¬ ∀ named fields, gatewayNetwork.commit (.peer gateway.id)
              ((∅ : ChangeSet).receiveAll [silentEdit]) = .error (.outstanding named fields)
            → ∀ field, field ∈ fields ↔ Report.LastRejected [silentEdit] field := by
  have hrejected : Report.LastRejected [silentEdit] "name" := ⟨silentEdit, rfl, rfl⟩
  have hpeer : gatewayNetwork.Holds (.peer gateway.id) := ⟨_, rfl⟩
  have hrefused : gatewayNetwork.commit (.peer gateway.id)
      ((∅ : ChangeSet).receiveAll [silentEdit]) = .error (.outstanding (.peer gateway.id) []) := by
    rw [commit_eq_outstanding_iff hpeer]
    exact ⟨rfl, rfl, List.mergeSort_nil.symm⟩
  refine ⟨hpeer, hrejected, hrefused, by decide, ?_⟩
  intro hall
  cases (hall _ _ hrefused "name").2 hrejected

end Network

end WireMesh
