import WireMesh.Proofs.Commit.HookEdit

/-!
This module contains what is committed when a hook is edited through both of the fields that set it.
It is committed as the field left it that was edited first the later, whichever of the two was
edited last. The last edit of a hook is therefore lost if it is overtaken: if the last edit of the
other field is a change, and the last edit is none or its own field was edited before the other one.
-/

namespace WireMesh

open Commit

namespace Entries

variable {α β γ : Type}

theorem findSome?_reverse_filter (entries : List (α × β)) (dropped : α × β → Bool)
    (val : α × β → Option γ)
    : (entries.filter fun entry => !dropped entry).reverse.findSome? val
        =
      entries.reverse.findSome? fun entry => if dropped entry then none else val entry := by
  rw [← List.filter_reverse]
  generalize entries.reverse = l
  induction l with
  | nil => rfl
  | cons entry rest ih =>
    rw [List.filter_cons]
    rw [List.findSome?_cons]
    cases dropped entry with
    | true => exact ih
    | false =>
      change List.findSome? val (entry :: _) = _
      rw [List.findSome?_cons]
      rw [ih]
      rfl

variable [DecidableEq α] {entries : List (α × β)} {val : α × β → Option γ} {f g : α}

theorem findSome?_reverse_of_forall_ne (hnodup : (keys entries).Nodup)
    (hval : ∀ entry ∈ entries, entry.1 ≠ g → val entry = none)
    : entries.reverse.findSome? val = (get? entries g).bind fun v => val (g, v) := by
  induction entries with
  | nil => rfl
  | cons entry rest ih =>
    obtain ⟨k, v⟩ := entry
    rw [keys_cons, List.nodup_cons] at hnodup
    rw [List.forall_mem_cons] at hval
    rw [List.reverse_cons]
    rw [List.findSome?_append]
    rw [List.findSome?_singleton]
    rw [ih hnodup.2 hval.2]
    rw [get?_cons]
    split
    . next hk =>
      subst hk
      rw [get?_eq_none_iff.2 hnodup.1]
      rfl
    . next hk =>
      rw [hval.1 hk]
      exact Option.or_none

theorem findSome?_reverse_of_find? {p : α → Bool} (hnodup : (keys entries).Nodup)
    (hfind : (keys entries).find? p = some f) (hg : p g = true)
    (hp : ∀ k, p k = true → k = f ∨ k = g) (hval : ∀ k v, p k = false → val (k, v) = none)
    (hne : f ≠ g)
    : entries.reverse.findSome? val
        =
      ((get? entries g).bind fun v => val (g, v)).or ((get? entries f).bind fun v => val (f, v))
    := by
  induction entries with
  | nil => cases hfind
  | cons entry rest ih =>
    obtain ⟨k, v⟩ := entry
    rw [keys_cons, List.nodup_cons] at hnodup
    rw [keys_cons, List.find?_cons] at hfind
    rw [List.reverse_cons]
    rw [List.findSome?_append]
    rw [List.findSome?_singleton]
    rw [get?_cons, get?_cons]
    split at hfind
    . cases hfind
      have hother : ∀ entry ∈ rest, entry.1 ≠ g → val entry = none := by
        rintro ⟨k, v⟩ hmem hk
        apply hval
        apply eq_false_of_ne_true
        intro hpk
        obtain rfl | rfl := hp k hpk
        . exact hnodup.1 (List.mem_map_of_mem hmem)
        . exact hk rfl
      rw [findSome?_reverse_of_forall_ne hnodup.2 hother]
      rw [if_pos rfl]
      rw [if_neg hne]
      rfl
    . next hpk =>
      have hpf : p f = true := List.find?_some hfind
      rw [ih hnodup.2 hfind]
      rw [hval k v hpk]
      rw [Option.or_none]
      rw [if_neg, if_neg]
      . rintro rfl
        rw [hpf] at hpk
        cases hpk
      . rintro rfl
        rw [hg] at hpk
        cases hpk

end Entries

def lastEditOf? (edits : List HookEdit) (field : HookField) : Option HookEdit :=
  edits.reverse.find? fun e => e.field = field

def lastEdit? (edits : List HookEdit) (hook : Hook) : Option HookEdit :=
  edits.reverse.find? fun e => e.field.covers hook

def firstEdit? (edits : List HookEdit) (hook : Hook) : Option HookEdit :=
  edits.find? fun e => e.field.covers hook

/--
The edit that overtakes `last`, the last edit of a hook: that of the other field, if it is a change
and `last` is none or was made to the field that was edited first.
-/
def overtaking? (p : Peer) (edits : List HookEdit) (hook : Hook) (last : HookEdit)
    : Option HookEdit :=
  (lastEditOf? edits (last.field.rival hook)).filter fun other =>
    other.isChange p
      && (!last.isChange p || (firstEdit? edits hook).any fun first => first.field = last.field)

section Pending

variable {p : Peer} {context : Option Context} {edits : List HookEdit}

theorem lastEditOf?_eq_some {field : HookField} {e : HookEdit}
    (h : lastEditOf? edits field = some e) : e ∈ edits ∧ e.field = field := by
  unfold lastEditOf? at h
  have hfield := List.find?_some h
  exact ⟨List.mem_reverse.1 (List.mem_of_find?_eq_some h), of_decide_eq_true hfield⟩

theorem lastEdit?_eq_some {hook : Hook} {e : HookEdit} (h : lastEdit? edits hook = some e)
    : e ∈ edits ∧ e.field.covers hook = true := by
  unfold lastEdit? at h
  have hcovers := List.find?_some h
  exact ⟨List.mem_reverse.1 (List.mem_of_find?_eq_some h), hcovers⟩

theorem firstEdit?_eq_some {hook : Hook} {e : HookEdit} (h : firstEdit? edits hook = some e)
    : e ∈ edits ∧ e.field.covers hook = true := by
  unfold firstEdit? at h
  have hcovers := List.find?_some h
  exact ⟨List.mem_of_find?_eq_some h, hcovers⟩

def pendingValue? (p : Peer) (edits : List HookEdit) (hook : Hook) (field : HookField)
    : Option Value :=
  ((lastEditOf? edits field).filter fun e => e.isChange p).bind fun e => e.given? hook

theorem get?_changed_run_hooks (haccepted : ∀ e ∈ edits, Accepts e.field.name e.value context)
    (field : HookField)
    : (ChangeSet.run context (edits.map (HookEdit.toEdit p))).changed.get? field.name
        =
      (lastEditOf? edits field).map fun e => if e.isChange p then e.value.toPlain else .null := by
  rw [ChangeSet.get?_changed_run]
  rw [← List.map_reverse]
  rw [List.findSome?_map]
  unfold lastEditOf?
  have haccepted : ∀ e ∈ edits.reverse, Accepts e.field.name e.value context := by
    intro e he
    exact haccepted e (List.mem_reverse.1 he)
  generalize edits.reverse = l at haccepted ⊢
  induction l with
  | nil => rfl
  | cons e rest ih =>
    rw [List.forall_mem_cons] at haccepted
    rw [List.findSome?_cons]
    rw [List.find?_cons]
    by_cases hfield : e.field = field
    . subst hfield
      have hstored : Edit.stored? context e.field.name (e.toEdit p)
          = some (if e.isChange p then e.value.toPlain else .null) := by
        rw [Edit.stored?_eq_some_iff]
        exact ⟨rfl, _, HookEdit.validate_of_accepts haccepted.1, HookEdit.left_toEdit⟩
      simp [hstored]
    . have hstored : Edit.stored? context field.name (e.toEdit p) = none :=
        if_neg fun hname => hfield (HookField.name_injective hname)
      simp [hstored, hfield, ih haccepted.2]

theorem find?_keys_changed_run_hooks
    (haccepted : ∀ e ∈ edits, Accepts e.field.name e.value context) (hook : Hook)
    : (ChangeSet.run context (edits.map (HookEdit.toEdit p))).changed.keys.find?
          (HookField.sets hook)
        =
      (firstEdit? edits hook).map fun e => e.field.name := by
  rw [ChangeSet.find?_keys_changed_run]
  . rw [List.map_map]
    rw [List.find?_map]
    unfold firstEdit?
    congr 2
    funext e
    exact HookField.sets_name hook e.field
  . intro edit hmem
    obtain ⟨e, he, rfl⟩ := List.mem_map.1 hmem
    exact haccepted e he

theorem bind_get?_changed_run_hooks
    (haccepted : ∀ e ∈ edits, Accepts e.field.name e.value context) {hook : Hook}
    {field : HookField} (hcovers : field.covers hook = true)
    : ((ChangeSet.run context (edits.map (HookEdit.toEdit p))).changed.get? field.name).bind
          (fun v => if v.isNull then none else hookValue? hook (field.name, v))
        =
      pendingValue? p edits hook field := by
  rw [get?_changed_run_hooks haccepted]
  unfold pendingValue?
  cases hlast : lastEditOf? edits field with
  | none => rfl
  | some e =>
    obtain ⟨hmem, hfield⟩ := lastEditOf?_eq_some hlast
    subst hfield
    cases hchange : e.isChange p with
    | false => simp [hchange, Value.isNull, Option.filter]
    | true =>
      obtain ⟨members, hobject⟩ := HookEdit.toPlain_of_accepts (haccepted e hmem)
      have hvalue := HookEdit.hookValue?_eq_given? (haccepted e hmem) hcovers
      rw [hobject] at hvalue
      simp [hchange, hobject, Value.isNull, hvalue, Option.filter]

theorem findSome?_pending_run_hooks
    (haccepted : ∀ e ∈ edits, Accepts e.field.name e.value context) (hook : Hook)
    : (ChangeSet.run context (edits.map (HookEdit.toEdit p))).pending.entries.reverse.findSome?
          (hookValue? hook)
        =
      (firstEdit? edits hook).bind fun first =>
        (pendingValue? p edits hook (first.field.rival hook)).or
          (pendingValue? p edits hook first.field) := by
  have hfind := @find?_keys_changed_run_hooks p _ _ haccepted hook
  have hdropped := Entries.findSome?_reverse_filter
    (ChangeSet.run context (edits.map (HookEdit.toEdit p))).changed.entries
    (fun entry => entry.2.isNull) (hookValue? hook)
  refine hdropped.trans ?_
  -- A null entry keeps its place among the keys, so the order is that of all entries.
  cases hfirst : firstEdit? edits hook with
  | none =>
    rw [hfirst] at hfind
    rw [Option.bind_none]
    rw [List.findSome?_eq_none_iff]
    rintro ⟨key, v⟩ hmem
    have hkey := List.find?_eq_none.1 hfind key (List.mem_map_of_mem (List.mem_reverse.1 hmem))
    dsimp only
    rw [HookField.hookValue?_of_not_sets v (eq_false_of_ne_true hkey)]
    split
    . rfl
    . rfl
  | some first =>
    rw [hfirst] at hfind
    have hcovers := (firstEdit?_eq_some hfirst).2
    rw [Entries.findSome?_reverse_of_find? (OrderedMap.nodup _) hfind]
    . rw [Option.bind_some]
      congr 1
      . exact bind_get?_changed_run_hooks haccepted (HookField.covers_rival hook _)
      . exact bind_get?_changed_run_hooks haccepted hcovers
    . rw [HookField.sets_name]
      exact HookField.covers_rival hook _
    . intro key hkey
      exact HookField.eq_name_of_sets hcovers hkey
    . intro key v hkey
      dsimp only
      rw [HookField.hookValue?_of_not_sets v hkey]
      split
      . rfl
      . rfl
    . intro hname
      exact HookField.rival_ne hook _ (HookField.name_injective hname)

theorem setsHooks_pending_run_hooks (hdistinct : ∀ e ∈ edits, e.DistinctKeys)
    : ∀ change ∈ (ChangeSet.run context (edits.map (HookEdit.toEdit p))).pending.entries,
        SetsHooks change := by
  intro change hmem
  have hget := OrderedMap.get?_eq_some_iff.2 hmem
  obtain ⟨edit, hedit, -, haccepted⟩ := ChangeSet.reported_of_get?_pending_run hget
  obtain ⟨e, he, rfl⟩ := List.mem_map.1 hedit
  exact setsHooks_of_reported haccepted (hdistinct e he)

theorem pendingValue?_of_isChange {hook : Hook} {e : HookEdit}
    (hlast : lastEditOf? edits e.field = some e) (hchange : e.isChange p = true)
    : pendingValue? p edits hook e.field = e.given? hook := by
  unfold pendingValue?
  rw [hlast]
  simp [hchange, Option.filter]

theorem pendingValue?_of_not_isChange {hook : Hook} {e : HookEdit}
    (hlast : lastEditOf? edits e.field = some e) (hchange : e.isChange p = false)
    : pendingValue? p edits hook e.field = none := by
  unfold pendingValue?
  rw [hlast]
  simp [hchange, Option.filter]

theorem pendingValue?_eq_some {hook : Hook} {e : HookEdit}
    (haccepted : Accepts e.field.name e.value context) (hcovers : e.field.covers hook = true)
    (hlast : lastEditOf? edits e.field = some e) (hchange : e.isChange p = true)
    : ∃ v, pendingValue? p edits hook e.field = some v := by
  rw [pendingValue?_of_isChange hlast hchange]
  obtain ⟨flag, value, hgiven⟩ := HookEdit.given?_of_accepts haccepted hcovers
  exact ⟨_, hgiven⟩

theorem gives_of_pendingValue? {hook : Hook} {e : HookEdit} {o : Override}
    (haccepted : Accepts e.field.name e.value context) (hcovers : e.field.covers hook = true)
    (hlast : lastEditOf? edits e.field = some e)
    (hread : Override.ofValue
      ((pendingValue? p edits hook e.field).getD (p.hooks.get hook).toValue) = .ok o)
    : e.Gives hook o := by
  cases hchange : e.isChange p with
  | true =>
    rw [pendingValue?_of_isChange hlast hchange] at hread
    obtain ⟨flag, value, hgiven⟩ := HookEdit.given?_of_accepts haccepted hcovers
    rw [hgiven] at hread
    exact ⟨_, hgiven, .inl hread⟩
  | false =>
    rw [pendingValue?_of_not_isChange hlast hchange] at hread
    rw [← Override.ofValue_toValue_eq_ok_iff.1 hread]
    exact HookEdit.gives_committed haccepted hcovers hchange

theorem lastEditOf?_of_lastEdit? {hook : Hook} {last : HookEdit}
    (h : lastEdit? edits hook = some last) : lastEditOf? edits last.field = some last := by
  have hcovers := (lastEdit?_eq_some h).2
  unfold lastEdit? at h
  unfold lastEditOf?
  rw [List.find?_eq_some_iff_append] at h ⊢
  obtain ⟨-, before, after, hsplit, hbefore⟩ := h
  refine ⟨decide_eq_true rfl, before, after, hsplit, ?_⟩
  intro e he
  rw [Bool.not_eq_true', decide_eq_false_iff_not]
  intro hfield
  have := hbefore e he
  rw [hfield, hcovers] at this
  cases this

theorem exists_firstEdit? {hook : Hook} {last : HookEdit} (h : lastEdit? edits hook = some last)
    : ∃ first, firstEdit? edits hook = some first := by
  obtain ⟨hmem, hcovers⟩ := lastEdit?_eq_some h
  rw [← Option.isSome_iff_exists]
  unfold firstEdit?
  rw [List.find?_isSome]
  exact ⟨last, hmem, hcovers⟩

theorem findSome?_pending_run_hooks_of_firstEdit?
    (haccepted : ∀ e ∈ edits, Accepts e.field.name e.value context) {hook : Hook} {first : HookEdit}
    (hfirst : firstEdit? edits hook = some first) {field : HookField}
    (hcovers : field.covers hook = true)
    : (ChangeSet.run context (edits.map (HookEdit.toEdit p))).pending.entries.reverse.findSome?
          (hookValue? hook)
        =
      if first.field = field then
        (pendingValue? p edits hook (field.rival hook)).or (pendingValue? p edits hook field)
      else
        (pendingValue? p edits hook field).or (pendingValue? p edits hook (field.rival hook))
    := by
  -- The field that was edited first stands first, so that the other one decides if both give
  -- something.
  rw [findSome?_pending_run_hooks haccepted]
  rw [hfirst]
  rw [Option.bind_some]
  obtain hfield | hfield := HookField.eq_or_eq_rival hcovers (firstEdit?_eq_some hfirst).2
  . rw [hfield]
    rw [if_pos rfl]
  . rw [hfield]
    rw [HookField.rival_rival hcovers]
    rw [if_neg (HookField.rival_ne hook field).symm]

theorem overtaking?_eq_some {hook : Hook} {last first other : HookEdit}
    (hfirst : firstEdit? edits hook = some first)
    (h : overtaking? p edits hook last = some other)
    : lastEditOf? edits (last.field.rival hook) = some other ∧ other.isChange p = true
        ∧ (last.isChange p = true → first.field = last.field) := by
  unfold overtaking? at h
  rw [hfirst] at h
  rw [Option.filter_eq_some_iff] at h
  obtain ⟨hother, hovertakes⟩ := h
  rw [Option.any_some, Bool.and_eq_true] at hovertakes
  refine ⟨hother, hovertakes.1, ?_⟩
  intro hchange
  simpa [hchange] using hovertakes.2

theorem pendingValue?_rival_of_overtaking?_eq_none {hook : Hook} {last first : HookEdit}
    (hfirst : firstEdit? edits hook = some first) (h : overtaking? p edits hook last = none)
    : pendingValue? p edits hook (last.field.rival hook) = none
        ∨ (last.isChange p = true ∧ first.field ≠ last.field) := by
  unfold overtaking? at h
  rw [hfirst] at h
  unfold pendingValue?
  cases hother : lastEditOf? edits (last.field.rival hook) with
  | none =>
    left
    rfl
  | some other =>
    rw [hother] at h
    cases hchange : other.isChange p with
    | true =>
      right
      simpa [Option.filter, hchange] using h
    | false =>
      left
      simp [Option.filter, hchange]

theorem findSome?_pending_run_hooks_of_lastEdit?
    (haccepted : ∀ e ∈ edits, Accepts e.field.name e.value context) {hook : Hook} {last : HookEdit}
    (hlast : lastEdit? edits hook = some last)
    : (ChangeSet.run context (edits.map (HookEdit.toEdit p))).pending.entries.reverse.findSome?
          (hookValue? hook)
        =
      pendingValue? p edits hook ((overtaking? p edits hook last).getD last).field := by
  obtain ⟨hmem, hcovers⟩ := lastEdit?_eq_some hlast
  obtain ⟨first, hfirst⟩ := exists_firstEdit? hlast
  have hown := lastEditOf?_of_lastEdit? hlast
  rw [findSome?_pending_run_hooks_of_firstEdit? haccepted hfirst hcovers]
  -- The overtaking edit gives something; the last edit does so only if it is a change.
  cases hover : overtaking? p edits hook last with
  | some other =>
    obtain ⟨hother, hchange, horder⟩ := overtaking?_eq_some hfirst hover
    obtain ⟨hmemOther, hrival⟩ := lastEditOf?_eq_some hother
    have hcoversOther : other.field.covers hook = true := by
      rw [hrival]
      exact HookField.covers_rival hook _
    rw [← hrival] at hother ⊢
    obtain ⟨v, hv⟩ :=
      pendingValue?_eq_some (haccepted other hmemOther) hcoversOther hother hchange
    change _ = pendingValue? p edits hook other.field
    rw [hv]
    split
    . rfl
    . next hne =>
      have hchangeLast : last.isChange p = false :=
        eq_false_of_ne_true fun hchange => hne (horder hchange)
      rw [pendingValue?_of_not_isChange hown hchangeLast]
      rfl
  | none =>
    change _ = pendingValue? p edits hook last.field
    obtain hnone | ⟨hchange, hne⟩ := pendingValue?_rival_of_overtaking?_eq_none hfirst hover
    . rw [hnone]
      split
      . rfl
      . exact Option.or_none
    . rw [if_neg hne]
      obtain ⟨v, hv⟩ := pendingValue?_eq_some (haccepted last hmem) hcovers hown hchange
      rw [hv]
      rfl

end Pending

namespace Network

theorem hooks_commitPeer {n n' : Network} {peerId : String} {p : Peer} {context : Option Context}
    {edits : List HookEdit} (hp : n.peers.get? peerId = some p)
    (hdistinct : ∀ e ∈ edits, e.DistinctKeys)
    (haccepted : ∀ e ∈ edits, Accepts e.field.name e.value context)
    (hcommit : n.commitPeer peerId (ChangeSet.run context (edits.map (HookEdit.toEdit p))) = .ok n')
    : ∃ p', n'.peers.get? peerId = some p' ∧ ∀ hook : Hook,
        match lastEdit? edits hook with
        | none => p'.hooks.get hook = p.hooks.get hook
        | some last =>
          match overtaking? p edits hook last with
          | none => last.Gives hook (p'.hooks.get hook)
          | some other => other.Gives hook (p'.hooks.get hook) := by
  rw [commitPeer_eq_ok_iff] at hcommit
  obtain ⟨-, _, p', hp', hpatch, rfl⟩ := hcommit
  rw [hp] at hp'
  cases hp'
  refine ⟨p', OrderedMap.get?_insert_self .., ?_⟩
  intro hook
  have hpatched := Peer.patchedBy_of_patch hpatch (OrderedMap.nodup _)
    (setsHooks_pending_run_hooks hdistinct)
  have hread := hpatched.hook hook
  cases hlast : lastEdit? edits hook with
  | none =>
    have hfirst : firstEdit? edits hook = none := by
      unfold lastEdit? at hlast
      unfold firstEdit?
      rw [List.find?_eq_none] at hlast ⊢
      intro e he
      exact hlast e (List.mem_reverse.2 he)
    rw [findSome?_pending_run_hooks haccepted] at hread
    rw [hfirst] at hread
    exact (Override.ofValue_toValue_eq_ok_iff.1 hread).symm
  | some last =>
    obtain ⟨hmem, hcovers⟩ := lastEdit?_eq_some hlast
    rw [findSome?_pending_run_hooks_of_lastEdit? haccepted hlast] at hread
    dsimp only
    cases hover : overtaking? p edits hook last with
    | none =>
      rw [hover] at hread
      exact gives_of_pendingValue? (haccepted last hmem) hcovers (lastEditOf?_of_lastEdit? hlast)
        hread
    | some other =>
      rw [hover] at hread
      have hother := (Option.filter_eq_some_iff.1 hover).1
      obtain ⟨hmemOther, hfield⟩ := lastEditOf?_eq_some hother
      rw [← hfield] at hother
      apply gives_of_pendingValue? (haccepted other hmemOther) _ hother hread
      rw [hfield]
      exact HookField.covers_rival hook _

def echo (word : String) : Value :=
  .pair (.bool true) (.text ("echo " ++ word ++ ";"))

def echoAll (word : String) : HookEdit :=
  let off := Value.pair (.bool false) (.text "")
  ⟨.all, .object [("pre_up", echo word), ("post_up", off), ("pre_down", off), ("post_down", off)]⟩

def echoFirst (word : String) : HookEdit :=
  ⟨.one .preUp, echo word⟩

def echoing : Peer where
  id := "c0000000-0000-4000-8000-000000000000"
  name := "laptop"
  address := "10.0.0.2"
  mobility := .roaming
  endpoint := ""
  privateKey := "private"
  publicKey := "public"
  dns := .off
  mtu := .off
  persistentKeepalive := .off
  hooks := { Hooks.none with preUp := ⟨true, .text "echo committed;"⟩ }
  id_ne_empty := by decide

def echoingNetwork : Network where
  identifier := "office"
  subnet := "10.0.0.0/24"
  peers := ⟨[(echoing.id, echoing)], by decide⟩
  connections := ∅

theorem distinctKeys_echoAll (word : String) : (echoAll word).DistinctKeys := by
  intro members h
  cases h
  change ["pre_up", "post_up", "pre_down", "post_down"].Nodup
  decide

theorem distinctKeys_echoFirst (word : String) : (echoFirst word).DistinctKeys := by
  intro members h
  cases h

theorem hooks_commitPeer_again
    : ∃ n' p', echoingNetwork.commitPeer echoing.id (ChangeSet.run none
          ([echoAll "one", echoFirst "two", echoAll "three"].map (HookEdit.toEdit echoing)))
        = .ok n'
        ∧ n'.peers.get? echoing.id = some p'
        ∧ (echoFirst "two").Gives .preUp (p'.hooks.get .preUp)
        ∧ (echoAll "three").Gives .postUp (p'.hooks.get .postUp) := by
  have hdistinct : ∀ e ∈ [echoAll "one", echoFirst "two", echoAll "three"], e.DistinctKeys := by
    simp only [List.forall_mem_cons]
    exact ⟨distinctKeys_echoAll _, distinctKeys_echoFirst _, distinctKeys_echoAll _,
      List.forall_mem_nil _⟩
  have haccepted : ∀ e ∈ [echoAll "one", echoFirst "two", echoAll "three"],
      Accepts e.field.name e.value none := by
    simp only [List.forall_mem_cons]
    exact ⟨⟨_, rfl⟩, ⟨_, rfl⟩, ⟨_, rfl⟩, List.forall_mem_nil _⟩
  obtain ⟨n', hcommit⟩ : ∃ n', echoingNetwork.commitPeer echoing.id (ChangeSet.run none
      ([echoAll "one", echoFirst "two", echoAll "three"].map (HookEdit.toEdit echoing)))
    = .ok n' := ⟨_, rfl⟩
  obtain ⟨p', hp', hhooks⟩ := hooks_commitPeer rfl hdistinct haccepted hcommit
  exact ⟨n', p', hcommit, hp', hhooks .preUp, hhooks .postUp⟩

theorem not_gives_lastEdit?
    : echoingNetwork.peers.get? echoing.id = some echoing
        ∧ (∀ e ∈ [echoAll "one", echoFirst "committed"], e.DistinctKeys)
        ∧ (∀ e ∈ [echoAll "one", echoFirst "committed"], Accepts e.field.name e.value none)
        ∧ lastEdit? [echoAll "one", echoFirst "committed"] .preUp = some (echoFirst "committed")
        ∧ ∃ n' p', echoingNetwork.commitPeer echoing.id (ChangeSet.run none
              ([echoAll "one", echoFirst "committed"].map (HookEdit.toEdit echoing))) = .ok n'
            ∧ n'.peers.get? echoing.id = some p'
            ∧ ¬ (echoFirst "committed").Gives .preUp (p'.hooks.get .preUp) := by
  have haccepted : Accepts (echoFirst "committed").field.name (echoFirst "committed").value none :=
    ⟨_, rfl⟩
  refine ⟨rfl, ?_, ?_, rfl, _, _, rfl, rfl, ?_⟩
  . simp only [List.forall_mem_cons]
    exact ⟨distinctKeys_echoAll _, distinctKeys_echoFirst _, List.forall_mem_nil _⟩
  . simp only [List.forall_mem_cons]
    exact ⟨⟨_, rfl⟩, haccepted, List.forall_mem_nil _⟩
  . intro hgives
    have hcommitted : (echoFirst "committed").Gives .preUp ⟨true, .text "echo committed;"⟩ :=
      ⟨_, rfl, .inl rfl⟩
    have hsame := HookEdit.Gives.eq haccepted rfl hgives hcommitted
    revert hsame
    decide

end Network

end WireMesh
