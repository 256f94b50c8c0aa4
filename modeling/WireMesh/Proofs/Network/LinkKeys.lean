import Mathlib.Data.List.Forall2
import Mathlib.Data.List.Induction
import WireMesh.Network
import WireMesh.Proofs.ConnectionId.Ends

/-!
This module contains what becomes of the keys of connections when a network is read. The first key
that names no two peers, or the two peers of an earlier key, is all that is reported; without such a
key every entry becomes one connection, in its place and under the id of the two peers it names.
-/

namespace WireMesh

theorem Members.readEach_eq_ok_iff {α β : Type} {name : β → String} {read : Value → Checked α}
    {entries : List (β × Value)} {items : List (β × α)}
    : readEach name read entries = .ok items
        ↔
      List.Forall₂ (fun entry item => entry.1 = item.1 ∧ read entry.2 = .ok item.2) entries items
    := by
  induction entries generalizing items with
  | nil =>
    rw [List.forall₂_nil_left_iff]
    simp [readEach, eq_comm]
  | cons entry rest ih =>
    obtain ⟨key, v⟩ := entry
    rw [List.forall₂_cons_left_iff]
    simp only [readEach, Checked.seq_eq_ok_iff, Checked.map_eq_ok_iff, Checked.under_eq_ok_iff]
    constructor
    . rintro ⟨_, more, ⟨a, ha, rfl⟩, hmore, rfl⟩
      exact ⟨(key, a), more, ⟨rfl, ha⟩, ih.1 hmore, rfl⟩
    . rintro ⟨⟨key', a⟩, more, ⟨rfl, ha⟩, hmore, rfl⟩
      exact ⟨_, more, ⟨a, ha, rfl⟩, ih.2 hmore, rfl⟩

theorem Members.keys_of_readEach {α β : Type} {name : β → String} {read : Value → Checked α}
    {entries : List (β × Value)} {items : List (β × α)}
    (h : readEach name read entries = .ok items) : Entries.keys items = Entries.keys entries := by
  rw [readEach_eq_ok_iff] at h
  induction h with
  | nil => rfl
  | cons hentry _ ih =>
    unfold Entries.keys at ih ⊢
    rw [List.map_cons, List.map_cons]
    rw [hentry.1]
    rw [ih]

theorem forall₂_comp {α β γ : Type} {R : α → β → Prop} {S : β → γ → Prop} {T : α → γ → Prop}
    (h : ∀ a b c, R a b → S b c → T a c) {as : List α} {bs : List β} {cs : List γ}
    (hR : List.Forall₂ R as bs) (hS : List.Forall₂ S bs cs) : List.Forall₂ T as cs := by
  induction hR generalizing cs with
  | nil =>
    cases hS
    exact .nil
  | cons hab _ ih =>
    cases hS with
    | cons hbc hrest => exact .cons (h _ _ _ hab hbc) (ih hrest)

namespace LinkKey

inductive Names : LinkKey → Sym2 String → Prop where
  | wire {text a b : String} (h : text = ConnectionId.join a b) (ha : '*' ∉ a.toList)
      (hb : '*' ∉ b.toList) : Names (.wire text) s(a, b)
  | made (id : ConnectionId) : Names (.made id) id.ends

variable {key : LinkKey} {ends : Sym2 String} {id : ConnectionId} {text : String}

theorem names_wire_iff
    : (wire text).Names ends
        ↔
      ∃ a b, text = ConnectionId.join a b ∧ '*' ∉ a.toList ∧ '*' ∉ b.toList ∧ ends = s(a, b) := by
  constructor
  . intro h
    generalize hkey : LinkKey.wire text = key at h
    cases h with
    | wire h ha hb =>
      cases hkey
      exact ⟨_, _, h, ha, hb, rfl⟩
    | made id => cases hkey
  . rintro ⟨a, b, h, ha, hb, rfl⟩
    exact .wire h ha hb

theorem names_made_iff : (made id).Names ends ↔ ends = id.ends := by
  constructor
  . intro h
    generalize hkey : LinkKey.made id = key at h
    cases h with
    | wire h ha hb => cases hkey
    | made id =>
      cases hkey
      rfl
  . rintro rfl
    exact .made id

theorem make_eq_ok_iff : key.make = .ok id ↔ key.Names id.ends := by
  cases key with
  | wire text =>
    rw [names_wire_iff]
    unfold make
    dsimp only
    rw [ConnectionId.ofWire_eq_ok_iff]
    simp only [ConnectionId.ofPeers_eq_ok_iff_ends]
  | made other =>
    rw [names_made_iff]
    rw [ConnectionId.ends_injective.eq_iff]
    unfold make
    simp [eq_comm]

theorem make_of_count (h : text.toList.count '*' ≠ 1)
    : (wire text).make = .error .notOneSeparator := by
  unfold make
  dsimp only
  unfold ConnectionId.ofWire
  split
  . next a b hsplit =>
    obtain ⟨hjoin, ha, hb⟩ := ConnectionId.splitWire?_eq_some_iff.1 hsplit
    exact absurd (ConnectionId.exists_join_iff.1 ⟨a, b, hjoin, ha, hb⟩) h
  . rfl

theorem make_cases (key : LinkKey)
    : (∃ id, key.make = .ok id) ∨ ∃ text, key = .wire text ∧ text.toList.count '*' ≠ 1 := by
  cases key with
  | made id => exact .inl ⟨id, rfl⟩
  | wire text =>
    by_cases hcount : text.toList.count '*' = 1
    . obtain ⟨a, b, hjoin, ha, hb⟩ := ConnectionId.exists_join_iff.2 hcount
      obtain ⟨id, hid⟩ := ConnectionId.exists_ofPeers ha hb
      exact .inl ⟨id, ConnectionId.ofWire_eq_ok_iff.2 ⟨a, b, hjoin, hid⟩⟩
    . exact .inr ⟨text, rfl, hcount⟩

/--
Whether a key cannot be taken after some others, and why: it is a text without exactly one
separator, or it names the same two peers as one of the others.
-/
inductive Offends (earlier : List LinkKey) : LinkKey → Cause → Prop where
  | malformed {text : String} (h : text.toList.count '*' ≠ 1)
      : Offends earlier (.wire text) (.badConnectionId .notOneSeparator)
  | repeated {key other : LinkKey} {id : ConnectionId} (h : key.Names id.ends)
      (hmem : other ∈ earlier) (hother : other.Names id.ends)
      : Offends earlier key (.duplicateConnection id)

def Admissible (keys : List LinkKey) : Prop :=
  ∀ earlier key later, keys = earlier ++ key :: later → ∀ cause, ¬ key.Offends earlier cause

def FirstOffence (keys : List LinkKey) (cause : Cause) : Prop :=
  ∃ earlier key later, keys = earlier ++ key :: later ∧ Admissible earlier
    ∧ key.Offends earlier cause

theorem admissible_nil : Admissible [] := by
  intro earlier key later h
  cases earlier <;> cases h

theorem admissible_append_singleton_iff {keys : List LinkKey}
    : Admissible (keys ++ [key]) ↔ Admissible keys ∧ ∀ cause, ¬ key.Offends keys cause := by
  constructor
  . intro h
    refine ⟨?_, h keys key [] rfl⟩
    intro earlier k later hkeys
    apply h earlier k (later ++ [key])
    rw [hkeys, List.append_assoc, List.cons_append]
  . rintro ⟨hkeys, hkey⟩ earlier k later heq
    -- The split is before the last key or at it.
    rcases List.eq_nil_or_concat later with rfl | ⟨later, last, rfl⟩
    . obtain ⟨rfl, hk⟩ := List.append_inj' heq rfl
      cases hk
      exact hkey
    . apply hkeys earlier k later
      rw [List.concat_eq_append, ← List.cons_append, ← List.append_assoc] at heq
      exact (List.append_inj' heq rfl).1

theorem admissible_or_firstOffence (keys : List LinkKey)
    : Admissible keys ∨ ∃ cause, FirstOffence keys cause := by
  induction keys using List.reverseRecOn with
  | nil => exact .inl admissible_nil
  | append_singleton keys key ih =>
    obtain hkeys | ⟨cause, earlier, k, later, hsplit, hearlier, hk⟩ := ih
    . by_cases hkey : ∃ cause, key.Offends keys cause
      . obtain ⟨cause, hkey⟩ := hkey
        exact .inr ⟨cause, keys, key, [], rfl, hkeys, hkey⟩
      . rw [not_exists] at hkey
        exact .inl (admissible_append_singleton_iff.2 ⟨hkeys, hkey⟩)
    . refine .inr ⟨cause, earlier, k, later ++ [key], ?_, hearlier, hk⟩
      rw [hsplit, List.append_assoc, List.cons_append]

end LinkKey

namespace Network

variable {members : List (String × Value)} {entries earlier later : List (LinkKey × Value)}
  {made links : List (ConnectionId × Value)} {key : LinkKey} {v : Value} {id : ConnectionId}
  {cause : Cause}

theorem makeLinks_append (made : List (ConnectionId × Value))
    (earlier later : List (LinkKey × Value))
    : makeLinks made (earlier ++ later)
        =
      match makeLinks made earlier with
      | .error cause => .error cause
      | .ok links => makeLinks links later := by
  induction earlier generalizing made with
  | nil => rfl
  | cons entry rest ih =>
    obtain ⟨key, v⟩ := entry
    rw [List.cons_append]
    rw [makeLinks, makeLinks]
    cases key.make with
    | error error => rfl
    | ok id =>
      dsimp only
      cases addLink made id v with
      | error cause => rfl
      | ok made => exact ih made

theorem makeLinks_of_make (hmake : key.make = .ok id) (hfresh : id ∉ Entries.keys made)
    : makeLinks made ((key, v) :: later) = makeLinks (made ++ [(id, v)]) later := by
  rw [makeLinks]
  rw [hmake]
  dsimp only
  unfold addLink
  rw [if_neg hfresh]

theorem makeLinks_of_mem (hmake : key.make = .ok id) (hmem : id ∈ Entries.keys made)
    : makeLinks made ((key, v) :: later) = .error (.duplicateConnection id) := by
  rw [makeLinks]
  rw [hmake]
  dsimp only
  unfold addLink
  rw [if_pos hmem]

theorem makeLinks_of_error {error : ConnectionId.Error} (hmake : key.make = .error error)
    : makeLinks made ((key, v) :: later) = .error (.badConnectionId error) := by
  rw [makeLinks]
  rw [hmake]

def TakenOver (entry : LinkKey × Value) (link : ConnectionId × Value) : Prop :=
  entry.1.make = .ok link.1 ∧ entry.2 = link.2

theorem makeLinks_eq_ok_iff (hmade : (Entries.keys made).Nodup)
    : makeLinks made entries = .ok links
        ↔
      ∃ more, links = made ++ more ∧ List.Forall₂ TakenOver entries more
        ∧ (Entries.keys links).Nodup := by
  induction entries generalizing made with
  | nil =>
    simp only [List.forall₂_nil_left_iff]
    constructor
    . intro h
      cases h
      exact ⟨[], (List.append_nil links).symm, rfl, hmade⟩
    . rintro ⟨_, rfl, rfl, -⟩
      rw [List.append_nil]
      rfl
  | cons entry rest ih =>
    obtain ⟨key, v⟩ := entry
    simp only [List.forall₂_cons_left_iff]
    -- The key names peers that are there already, new ones, or none.
    obtain ⟨id, hmake⟩ | ⟨text, rfl, hcount⟩ := key.make_cases
    . by_cases hmem : id ∈ Entries.keys made
      . rw [makeLinks_of_mem hmake hmem]
        constructor
        . intro h
          cases h
        . rintro ⟨_, rfl, ⟨⟨id', v'⟩, more, ⟨hid, -⟩, -, rfl⟩, hnodup⟩
          rw [hmake] at hid
          cases hid
          rw [Entries.keys_append, List.nodup_append] at hnodup
          exact absurd rfl (hnodup.2.2 _ hmem _ List.mem_cons_self)
      . rw [makeLinks_of_make hmake hmem]
        have hnext : (Entries.keys (made ++ [(id, v)])).Nodup := by
          rw [Entries.keys_append]
          rw [Entries.keys_cons, Entries.keys_nil, ← List.concat_eq_append]
          exact hmade.concat hmem
        rw [ih hnext]
        constructor
        . rintro ⟨more, rfl, hmore, hnodup⟩
          refine ⟨(id, v) :: more, by simp, ⟨_, more, ⟨hmake, rfl⟩, hmore, rfl⟩, hnodup⟩
        . rintro ⟨_, rfl, ⟨⟨id', v'⟩, more, ⟨hid, hv⟩, hmore, rfl⟩, hnodup⟩
          rw [hmake] at hid
          cases hid
          cases hv
          exact ⟨more, by simp, hmore, hnodup⟩
    . have herror := LinkKey.make_of_count hcount
      rw [makeLinks_of_error herror]
      constructor
      . intro h
        cases h
      . rintro ⟨_, -, ⟨⟨id', v'⟩, more, ⟨hid, -⟩, -, -⟩, -⟩
        rw [herror] at hid
        cases hid

theorem makeLinks_nil_eq_ok_iff
    : makeLinks [] entries = .ok links
        ↔
      List.Forall₂ TakenOver entries links ∧ (Entries.keys links).Nodup := by
  have hnil : (Entries.keys ([] : List (ConnectionId × Value))).Nodup := List.nodup_nil
  rw [makeLinks_eq_ok_iff hnil]
  simp

theorem mem_keys_iff (h : List.Forall₂ TakenOver entries links)
    : id ∈ Entries.keys links ↔ ∃ other ∈ Entries.keys entries, other.Names id.ends := by
  induction h with
  | nil => simp
  | @cons entry link _ _ hentry _ ih =>
    have hname : entry.1.Names id.ends ↔ id = link.1 := by
      rw [← LinkKey.make_eq_ok_iff]
      rw [hentry.1]
      rw [Except.ok.injEq, eq_comm]
    rw [Entries.keys_cons, Entries.keys_cons]
    rw [List.exists_mem_cons_iff]
    rw [List.mem_cons]
    rw [hname, ih]

theorem makeLinks_of_offends (h : makeLinks [] earlier = .ok links)
    (hkey : key.Offends (Entries.keys earlier) cause)
    : makeLinks [] (earlier ++ (key, v) :: later) = .error cause := by
  rw [makeLinks_append]
  rw [h]
  dsimp only
  cases hkey with
  | malformed hcount => exact makeLinks_of_error (LinkKey.make_of_count hcount)
  | repeated hname hmem hother =>
    apply makeLinks_of_mem (LinkKey.make_eq_ok_iff.2 hname)
    exact (mem_keys_iff (makeLinks_nil_eq_ok_iff.1 h).1).2 ⟨_, hmem, hother⟩

theorem exists_makeLinks (h : LinkKey.Admissible (Entries.keys entries))
    : ∃ links, makeLinks [] entries = .ok links := by
  induction entries using List.reverseRecOn with
  | nil => exact ⟨[], rfl⟩
  | append_singleton entries entry ih =>
    obtain ⟨key, v⟩ := entry
    rw [Entries.keys_append] at h
    obtain ⟨hentries, hkey⟩ := LinkKey.admissible_append_singleton_iff.1 h
    obtain ⟨links, hlinks⟩ := ih hentries
    rw [makeLinks_append]
    rw [hlinks]
    obtain ⟨id, hmake⟩ | ⟨text, rfl, hcount⟩ := key.make_cases
    . have hfresh : id ∉ Entries.keys links := by
        rw [mem_keys_iff (makeLinks_nil_eq_ok_iff.1 hlinks).1]
        rintro ⟨other, hmem, hother⟩
        exact hkey _ (.repeated (LinkKey.make_eq_ok_iff.1 hmake) hmem hother)
      exact ⟨_, makeLinks_of_make hmake hfresh⟩
    . exact absurd (.malformed hcount) (hkey _)

theorem makeLinks_of_firstOffence (h : LinkKey.FirstOffence (Entries.keys entries) cause)
    : makeLinks [] entries = .error cause := by
  obtain ⟨_, key, _, hsplit, hearlier, hkey⟩ := h
  obtain ⟨earlier, rest, rfl, rfl, hrest⟩ := List.map_eq_append_iff.1 hsplit
  obtain ⟨⟨key, v⟩, later, rfl, rfl, rfl⟩ := List.map_eq_cons_iff.1 hrest
  obtain ⟨links, hlinks⟩ := exists_makeLinks hearlier
  exact makeLinks_of_offends hlinks hkey

theorem admissible_of_makeLinks (h : makeLinks [] entries = .ok links)
    : LinkKey.Admissible (Entries.keys entries) := by
  obtain hkeys | ⟨cause, hcause⟩ := LinkKey.admissible_or_firstOffence (Entries.keys entries)
  . exact hkeys
  . rw [makeLinks_of_firstOffence hcause] at h
    cases h

theorem ofFields_eq_ok_iff {connections : Checked (OrderedMap ConnectionId Connection)}
    {n : Network}
    : ofFields members connections = .ok n
        ↔
      Members.required members "identifier" Value.readText = .ok n.identifier
        ∧ Members.required members "subnet" Value.readText = .ok n.subnet
        ∧ Members.optional members "peers" (Members.readTable Peer.ofValue) ∅ = .ok n.peers
        ∧ connections = .ok n.connections := by
  unfold ofFields
  constructor
  . intro h
    simp only [Checked.seq_eq_ok_iff, Checked.map_eq_ok_iff] at h
    obtain ⟨_, _, ⟨_, _, ⟨_, _, ⟨_, hidentifier, rfl⟩, hsubnet, rfl⟩, hpeers, rfl⟩,
      hconnections, rfl⟩ := h
    exact ⟨hidentifier, hsubnet, hpeers, hconnections⟩
  . rintro ⟨hidentifier, hsubnet, hpeers, hconnections⟩
    rw [hidentifier, hsubnet, hpeers, hconnections]
    rfl

theorem connectionsOf_eq_ok_iff (h : (Entries.keys links).Nodup)
    {connections : OrderedMap ConnectionId Connection}
    : connectionsOf links = .ok connections
        ↔
      List.Forall₂ (fun link entry => link.1 = entry.1 ∧ Connection.ofValue link.2 = .ok entry.2)
        links connections.entries := by
  unfold connectionsOf
  rw [Checked.map_eq_ok_iff]
  rw [← @Members.readEach_eq_ok_iff _ _ ConnectionId.wire]
  constructor
  . rintro ⟨items, hitems, rfl⟩
    rw [OrderedMap.entries_ofList]
    . exact hitems
    . rw [Members.keys_of_readEach hitems]
      exact h
  . intro hentries
    exact ⟨_, hentries, connections.ofList_entries⟩

def Becomes (entry : LinkKey × Value) (link : ConnectionId × Connection) : Prop :=
  entry.1.Names link.1.ends ∧ Connection.ofValue entry.2 = .ok link.2

theorem connectionsOf_eq_ok_iff_becomes (h : List.Forall₂ TakenOver entries links)
    (hnodup : (Entries.keys links).Nodup) {connections : OrderedMap ConnectionId Connection}
    : connectionsOf links = .ok connections
        ↔
      List.Forall₂ Becomes entries connections.entries := by
  rw [connectionsOf_eq_ok_iff hnodup]
  constructor
  . apply forall₂_comp _ h
    rintro ⟨key, v⟩ ⟨id, v'⟩ ⟨id', c⟩ ⟨hmake, rfl⟩ ⟨rfl, hread⟩
    exact ⟨LinkKey.make_eq_ok_iff.1 hmake, hread⟩
  . have hflip : List.Forall₂ (flip TakenOver) links entries := List.Forall₂.flip h
    apply forall₂_comp _ hflip
    rintro ⟨id, v'⟩ ⟨key, v⟩ ⟨id', c⟩ ⟨hmake, rfl⟩ ⟨hname, hread⟩
    refine ⟨?_, hread⟩
    rw [← LinkKey.make_eq_ok_iff] at hname
    exact Except.ok.inj (hmake.symm.trans hname)

theorem exists_connectionsOf (h : List.Forall₂ TakenOver entries links)
    (hread : ∀ entry ∈ entries, ∃ c, Connection.ofValue entry.2 = .ok c)
    : ∃ connections, connectionsOf links = .ok connections := by
  have hitems : ∃ items, Members.readEach ConnectionId.wire Connection.ofValue links = .ok items
      := by
    simp only [Members.readEach_eq_ok_iff]
    induction h with
    | nil => exact ⟨[], .nil⟩
    | @cons entry link _ _ hentry _ ih =>
      rw [List.forall_mem_cons] at hread
      obtain ⟨c, hc⟩ := hread.1
      rw [hentry.2] at hc
      obtain ⟨items, hitems⟩ := ih hread.2
      exact ⟨(link.1, c) :: items, .cons ⟨rfl, hc⟩ hitems⟩
  obtain ⟨items, hitems⟩ := hitems
  unfold connectionsOf
  rw [hitems]
  exact ⟨_, rfl⟩

theorem ofEntries_keepsLinks (members : List (String × Value)) (entries : List (LinkKey × Value))
    : (∀ v, Entries.get? members "connections" = some v → linkEntries? v = some entries
          → ofValue (.object members) = ofEntries members entries)
      ∧ (LinkKey.Admissible (Entries.keys entries)
          ∨ ∃ cause, LinkKey.FirstOffence (Entries.keys entries) cause)
      ∧ (∀ cause, LinkKey.FirstOffence (Entries.keys entries) cause
          → ofEntries members entries = .fault cause)
      ∧ (∀ bare, LinkKey.Admissible (Entries.keys entries)
          → ofFields members (.ok ∅) = .ok bare
          → (∀ entry ∈ entries, ∃ c, Connection.ofValue entry.2 = .ok c)
          → ∃ connections, ofEntries members entries = .ok { bare with connections })
      ∧ ∀ n, ofEntries members entries = .ok n
          → LinkKey.Admissible (Entries.keys entries)
            ∧ List.Forall₂ Becomes entries n.connections.entries
            ∧ n.connections.entries.length = entries.length
            ∧ (n.connections.keys.map ConnectionId.ends).Nodup := by
  refine ⟨?_, LinkKey.admissible_or_firstOffence _, ?_, ?_, ?_⟩
  . intro v hv hentries
    change ofMembers members = _
    unfold ofMembers
    rw [hv]
    dsimp only
    rw [hentries]
  . intro cause hcause
    unfold ofEntries
    rw [makeLinks_of_firstOffence hcause]
  . intro bare hkeys hbare hread
    obtain ⟨links, hlinks⟩ := exists_makeLinks hkeys
    obtain ⟨connections, hconnections⟩ :=
      exists_connectionsOf (makeLinks_nil_eq_ok_iff.1 hlinks).1 hread
    obtain ⟨hidentifier, hsubnet, hpeers, -⟩ := ofFields_eq_ok_iff.1 hbare
    refine ⟨connections, ?_⟩
    unfold ofEntries
    rw [hlinks]
    dsimp only
    rw [ofFields_eq_ok_iff]
    exact ⟨hidentifier, hsubnet, hpeers, Checked.under_eq_ok_iff.2 hconnections⟩
  . intro n hn
    unfold ofEntries at hn
    split at hn
    . cases hn
    . next links hlinks =>
      obtain ⟨htaken, hnodup⟩ := makeLinks_nil_eq_ok_iff.1 hlinks
      obtain ⟨-, -, -, hconnections⟩ := ofFields_eq_ok_iff.1 hn
      rw [Checked.under_eq_ok_iff] at hconnections
      have hbecomes := (connectionsOf_eq_ok_iff_becomes htaken hnodup).1 hconnections
      refine ⟨admissible_of_makeLinks hlinks, hbecomes, hbecomes.length_eq.symm, ?_⟩
      exact n.connections.nodup.map ConnectionId.ends_injective

def officeLink : ConnectionId := ⟨"office", "laptop", by decide, by decide, by decide⟩

def phoneLink : ConnectionId := ⟨"phone", "laptop", by decide, by decide, by decide⟩

def repeatedEntries : List (LinkKey × Value) :=
  [(.wire "laptop*office", .null), (.made officeLink, .null)]

def mixedEntries : List (LinkKey × Value) :=
  [(.wire "laptop*office", .object []), (.made phoneLink, .connection ⟨false, "", "", "", .off⟩)]

theorem ofEntries_keepsLinks_mixed
    : (LinkKey.FirstOffence (Entries.keys repeatedEntries) (.duplicateConnection officeLink)
        ∧ ofEntries [] repeatedEntries = .fault (.duplicateConnection officeLink))
      ∧ ∃ n, ofEntries [("identifier", .text "mesh"), ("subnet", .text "10.0.0.0/24")] mixedEntries
            = .ok n
          ∧ n.identifier = "mesh"
          ∧ List.Forall₂ Becomes mixedEntries n.connections.entries
          ∧ n.connections.entries.length = 2 := by
  have hoffence : LinkKey.FirstOffence (Entries.keys repeatedEntries)
      (.duplicateConnection officeLink) := by
    refine ⟨[.wire "laptop*office"], .made officeLink, [], rfl, ?_, ?_⟩
    . have hlinks : makeLinks [] [(.wire "laptop*office", .null)] = .ok [(officeLink, .null)] := rfl
      exact admissible_of_makeLinks hlinks
    . exact .repeated (.made officeLink) (List.mem_singleton_self _)
        (LinkKey.make_eq_ok_iff.1 rfl)
  obtain ⟨-, -, hfault, -⟩ := ofEntries_keepsLinks [] repeatedEntries
  refine ⟨⟨hoffence, hfault _ hoffence⟩, ?_⟩
  obtain ⟨-, -, -, hread, hkept⟩ := ofEntries_keepsLinks
    [("identifier", .text "mesh"), ("subnet", .text "10.0.0.0/24")] mixedEntries
  have hlinks : makeLinks [] mixedEntries
      = .ok [(officeLink, .object []), (phoneLink, .connection ⟨false, "", "", "", .off⟩)] := by
    rfl
  have hkeys := admissible_of_makeLinks hlinks
  have hvalues : ∀ entry ∈ mixedEntries, ∃ c, Connection.ofValue entry.2 = .ok c := by
    change ∀ entry ∈ [_, _], _
    rw [List.forall_mem_cons, List.forall_mem_singleton]
    exact ⟨⟨_, rfl⟩, ⟨_, rfl⟩⟩
  obtain ⟨connections, hn⟩ := hread _ hkeys rfl hvalues
  obtain ⟨-, hbecomes, hlength, -⟩ := hkept _ hn
  exact ⟨_, hn, rfl, hbecomes, hlength⟩

end Network

end WireMesh
