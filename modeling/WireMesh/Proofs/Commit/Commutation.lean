import WireMesh.Proofs.Commit.FieldByField
import WireMesh.Proofs.Commit.Outstanding
import WireMesh.Proofs.Network.LinkKeys

/-!
This module contains the proof that commits to different targets commute. A commit finds its target,
patches it and stores it in its place; what comes out of it depends on nothing but the target. Hence
another commit changes neither whether it fails nor how, and the order of the two makes no
difference.
-/

namespace WireMesh

open Commit

namespace Target

def Item : Target → Type
  | .peer _ => Peer
  | .connection _ => Connection

def patch (target : Target) (item : target.Item) (changes : List (String × Value))
    : Except CommitError target.Item :=
  match target with
  | .peer _ => Peer.patch item changes
  | .connection _ => Connection.patch item changes

theorem patch_nil (target : Target) (item : target.Item) : target.patch item [] = .ok item := by
  cases target with
  | peer peerId => exact Peer.patch_nil item
  | connection id => exact Connection.patch_nil item

def outcome (target : Target) (cs : ChangeSet) (found : Option target.Item)
    : Except CommitError target.Item :=
  match found with
  | none => .error (.unknownTarget target)
  | some item =>
    if cs.hasErrors then
      .error (.outstanding target cs.failing)
    else
      target.patch item cs.pending.entries

theorem exists_of_outcome_eq_ok {target : Target} {cs : ChangeSet} {found : Option target.Item}
    {item : target.Item} (h : target.outcome cs found = .ok item) : ∃ old, found = some old := by
  cases found with
  | none => cases h
  | some old => exact ⟨old, rfl⟩

end Target

namespace Network

variable {n n₁ : Network} {target target' : Target} {cs cs' : ChangeSet}

def find? (n : Network) (target : Target) : Option target.Item :=
  match target with
  | .peer peerId => n.peers.get? peerId
  | .connection id => n.connections.get? id

def store (n : Network) (target : Target) (item : target.Item) : Network :=
  match target with
  | .peer peerId => { n with peers := n.peers.insert peerId item }
  | .connection id => { n with connections := n.connections.insert id item }

theorem store_of_find?_eq_some {item : target.Item} (h : n.find? target = some item)
    : n.store target item = n := by
  cases target with
  | peer peerId =>
    change { n with peers := n.peers.insert peerId item } = n
    rw [OrderedMap.insert_of_get?_eq_some h]
  | connection id =>
    change { n with connections := n.connections.insert id item } = n
    rw [OrderedMap.insert_of_get?_eq_some h]

theorem find?_store_of_ne (h : target ≠ target') (item : target.Item)
    : (n.store target item).find? target' = n.find? target' := by
  cases target with
  | peer peerId =>
    cases target' with
    | peer peerId' =>
      apply OrderedMap.get?_insert_of_ne
      rintro rfl
      exact h rfl
    | connection id' => rfl
  | connection id =>
    cases target' with
    | peer peerId' => rfl
    | connection id' =>
      apply OrderedMap.get?_insert_of_ne
      rintro rfl
      exact h rfl

theorem store_comm (h : target ≠ target') {old : target.Item} {old' : target'.Item}
    (hfound : n.find? target = some old) (hfound' : n.find? target' = some old')
    (item : target.Item) (item' : target'.Item)
    : (n.store target item).store target' item' = (n.store target' item').store target item := by
  cases target with
  | peer peerId =>
    cases target' with
    | peer peerId' =>
      have hpeers := OrderedMap.insert_comm (OrderedMap.mem_keys_of_get?_eq_some hfound)
        (OrderedMap.mem_keys_of_get?_eq_some hfound') (by simpa using h) item item'
      exact congrArg (fun peers => { n with peers := peers }) hpeers
    | connection id' => rfl
  | connection id =>
    cases target' with
    | peer peerId' => rfl
    | connection id' =>
      have hconnections := OrderedMap.insert_comm (OrderedMap.mem_keys_of_get?_eq_some hfound)
        (OrderedMap.mem_keys_of_get?_eq_some hfound') (by simpa using h) item item'
      exact congrArg (fun connections => { n with connections := connections }) hconnections

theorem commit_eq_commitTo (n : Network) (target : Target) (cs : ChangeSet)
    : n.commit target cs = commitTo n cs target (n.find? target) target.patch (n.store target) := by
  cases target with
  | peer peerId => exact commitPeer_eq_commitTo n peerId cs
  | connection id => exact commitConnection_eq_commitTo n id cs

theorem commit_eq_map_outcome (n : Network) (target : Target) (cs : ChangeSet)
    : n.commit target cs = (target.outcome cs (n.find? target)).map (n.store target) := by
  rw [commit_eq_commitTo]
  unfold commitTo Target.outcome
  cases hfound : n.find? target with
  | none => rfl
  | some item =>
    dsimp only
    split
    . rfl
    . split
      . next hempty =>
        have hentries : cs.pending.entries = [] := List.isEmpty_iff.1 hempty
        rw [hentries]
        rw [target.patch_nil]
        change _ = Except.ok (n.store target item)
        rw [store_of_find?_eq_some hfound]
      . cases target.patch item cs.pending.entries with
        | error e => rfl
        | ok patched => rfl

theorem commit_eq_ok_iff_outcome
    : n.commit target cs = .ok n₁
        ↔
      ∃ item, target.outcome cs (n.find? target) = .ok item ∧ n.store target item = n₁ := by
  rw [commit_eq_map_outcome]
  cases target.outcome cs (n.find? target) with
  | error e => simp [Except.map]
  | ok item => simp [Except.map]

theorem commit_of_commit (h : target ≠ target') (hcommit : n.commit target cs = .ok n₁)
    (cs' : ChangeSet)
    : n₁.commit target' cs'
        =
      (target'.outcome cs' (n.find? target')).map (n₁.store target') := by
  obtain ⟨item, -, rfl⟩ := commit_eq_ok_iff_outcome.1 hcommit
  rw [commit_eq_map_outcome]
  rw [find?_store_of_ne h]

theorem commit_comm (h : target ≠ target') {n₁' : Network} (hcommit : n.commit target cs = .ok n₁)
    (hcommit' : n.commit target' cs' = .ok n₁')
    : ∃ m, n₁.commit target' cs' = .ok m ∧ n₁'.commit target cs = .ok m := by
  -- Both commits make of their targets what they would have made of them alone.
  have hlater := commit_of_commit h hcommit cs'
  have hlater' := commit_of_commit h.symm hcommit' cs
  obtain ⟨item, hitem, rfl⟩ := commit_eq_ok_iff_outcome.1 hcommit
  obtain ⟨item', hitem', rfl⟩ := commit_eq_ok_iff_outcome.1 hcommit'
  obtain ⟨old, hfound⟩ := Target.exists_of_outcome_eq_ok hitem
  obtain ⟨old', hfound'⟩ := Target.exists_of_outcome_eq_ok hitem'
  rw [hitem'] at hlater
  rw [hitem] at hlater'
  refine ⟨_, hlater, hlater'.trans ?_⟩
  exact congrArg Except.ok (store_comm h hfound hfound' item item').symm

end Network

/--
Whether two outcomes are the same error or both none.
-/
structure FailAlike {ε α : Type} (x y : Except ε α) : Prop where
  error_iff : ∀ e, x = .error e ↔ y = .error e
  ok_iff : (∃ a, x = .ok a) ↔ ∃ a, y = .ok a

namespace FailAlike

variable {ε α : Type}

theorem refl (x : Except ε α) : FailAlike x x :=
  ⟨fun _ => Iff.rfl, Iff.rfl⟩

theorem of_ok (a b : α) : FailAlike (Except.ok a : Except ε α) (.ok b) :=
  ⟨fun _ => by simp, by simp⟩

end FailAlike

/--
How a target is named from outside: a peer by its key, a connection by its id or by a wire form of
it, in which the peers may be written in either order.
-/
inductive TargetName where
  | peer (peerId : String)
  | connection (key : LinkKey)

namespace TargetName

def resolve (name : TargetName) : Except SessionError Target :=
  match name with
  | .peer peerId => .ok (.peer peerId)
  | .connection key =>
    match ConnectionId.checked key.make with
    | .ok id => .ok (.connection id)
    | .faulty faults => .error (.rejected ⟨.connectionId, faults⟩)

def Apart (name name' : TargetName) : Prop :=
  match name, name' with
  | .peer peerId, .peer peerId' => peerId ≠ peerId'
  | .connection key, .connection key' => ∀ ends, key.Names ends → ¬ key'.Names ends
  | _, _ => True

theorem Apart.symm {name name' : TargetName} (h : name.Apart name') : name'.Apart name := by
  cases name with
  | peer peerId =>
    cases name' with
    | peer peerId' => exact Ne.symm h
    | connection key' => trivial
  | connection key =>
    cases name' with
    | peer peerId' => trivial
    | connection key' => exact fun ends hname' hname => h ends hname hname'

theorem resolve_connection_eq_ok_iff {key : LinkKey} {target : Target}
    : (connection key).resolve = .ok target
        ↔
      ∃ id, key.Names id.ends ∧ target = .connection id := by
  unfold resolve
  simp only [← LinkKey.make_eq_ok_iff]
  cases key.make with
  | error error => simp [ConnectionId.checked, Checked.fault]
  | ok id => simp [ConnectionId.checked, eq_comm]

theorem Apart.resolve_ne {name name' : TargetName} {target target' : Target}
    (h : name.Apart name') (hname : name.resolve = .ok target)
    (hname' : name'.resolve = .ok target') : target ≠ target' := by
  rintro rfl
  cases name with
  | peer peerId =>
    cases hname
    cases name' with
    | peer peerId' =>
      cases hname'
      exact h rfl
    | connection key' =>
      obtain ⟨_, -, ⟨⟩⟩ := resolve_connection_eq_ok_iff.1 hname'
  | connection key =>
    obtain ⟨id, hends, rfl⟩ := resolve_connection_eq_ok_iff.1 hname
    cases name' with
    | peer peerId' => cases hname'
    | connection key' =>
      obtain ⟨_, hends', ⟨⟩⟩ := resolve_connection_eq_ok_iff.1 hname'
      exact h id.ends hends hends'

end TargetName

namespace Network

variable {n n₁ : Network} {name name' : TargetName} {cs cs' : ChangeSet}

def commitNamed (n : Network) (name : TargetName) (cs : ChangeSet)
    : Except SessionError Network :=
  match name.resolve with
  | .error e => .error e
  | .ok target =>
    match n.commit target cs with
    | .error e => .error (.commit e)
    | .ok n => .ok n

theorem commitNamed_eq_ok_iff
    : n.commitNamed name cs = .ok n₁
        ↔
      ∃ target, name.resolve = .ok target ∧ n.commit target cs = .ok n₁ := by
  unfold commitNamed
  cases name.resolve with
  | error e => simp
  | ok target =>
    simp only [Except.ok.injEq, exists_eq_left']
    cases n.commit target cs with
    | error e => simp
    | ok n₂ => simp

theorem commitNamed_failAlike (h : name.Apart name') (hcommit : n.commitNamed name cs = .ok n₁)
    : FailAlike (n₁.commitNamed name' cs') (n.commitNamed name' cs') := by
  obtain ⟨target, hname, hcommit⟩ := commitNamed_eq_ok_iff.1 hcommit
  unfold commitNamed
  cases hname' : name'.resolve with
  | error e => exact .refl _
  | ok target' =>
    dsimp only
    rw [commit_of_commit (h.resolve_ne hname hname') hcommit]
    rw [commit_eq_map_outcome n]
    cases target'.outcome cs' (n.find? target') with
    | error e => exact .refl _
    | ok item => exact .of_ok _ _

theorem commitNamed_comm (n : Network) (name name' : TargetName) (cs cs' : ChangeSet)
    (h : name.Apart name')
    : (∀ n₁, n.commitNamed name cs = .ok n₁
          → FailAlike (n₁.commitNamed name' cs') (n.commitNamed name' cs'))
        ∧ (∀ n₁', n.commitNamed name' cs' = .ok n₁'
          → FailAlike (n₁'.commitNamed name cs) (n.commitNamed name cs))
        ∧ ∀ n₁ n₁', n.commitNamed name cs = .ok n₁ → n.commitNamed name' cs' = .ok n₁'
          → ∃ m, n₁.commitNamed name' cs' = .ok m ∧ n₁'.commitNamed name cs = .ok m := by
  refine ⟨fun _ => commitNamed_failAlike h, fun _ => commitNamed_failAlike h.symm, ?_⟩
  intro n₁ n₁' hcommit hcommit'
  obtain ⟨target, hname, hcommit⟩ := commitNamed_eq_ok_iff.1 hcommit
  obtain ⟨target', hname', hcommit'⟩ := commitNamed_eq_ok_iff.1 hcommit'
  obtain ⟨m, hm, hm'⟩ := commit_comm (h.resolve_ne hname hname') hcommit hcommit'
  exact ⟨m, commitNamed_eq_ok_iff.2 ⟨target', hname', hm⟩,
    commitNamed_eq_ok_iff.2 ⟨target, hname, hm'⟩⟩

def spareLink : ConnectionId :=
  ⟨gateway.id, "b", by decide, gatewayLink.greater_free, by decide⟩

def spareNetwork : Network :=
  { gatewayNetwork with
    connections := gatewayNetwork.connections.insert spareLink ⟨true, "", "", "", .off⟩ }

def swappedWire : String :=
  ConnectionId.join gatewayLink.lesser gatewayLink.greater

theorem names_swappedWire : (LinkKey.wire swappedWire).Names gatewayLink.ends := by
  unfold ConnectionId.ends
  rw [Sym2.eq_swap]
  exact .wire rfl gatewayLink.lesser_free gatewayLink.greater_free

theorem commitNamed_comm_spareNetwork
    : (TargetName.connection (.wire swappedWire)).Apart (.connection (.made spareLink))
        ∧ ∃ n₁ n₁' m,
          spareNetwork.commitNamed (.connection (.wire swappedWire)) linkOffChanges = .ok n₁
            ∧ spareNetwork.commitNamed (.connection (.made spareLink)) linkOffChanges = .ok n₁'
            ∧ n₁.commitNamed (.connection (.made spareLink)) linkOffChanges = .ok m
            ∧ n₁'.commitNamed (.connection (.wire swappedWire)) linkOffChanges = .ok m
            ∧ n₁.commitNamed (.connection (.made spareLink)) linkScriptChanges
                = .error (.commit .noHooks) := by
  have hresolve : (TargetName.connection (.wire swappedWire)).resolve
      = .ok (.connection gatewayLink) :=
    TargetName.resolve_connection_eq_ok_iff.2 ⟨gatewayLink, names_swappedWire, rfl⟩
  have hapart : (TargetName.connection (.wire swappedWire)).Apart
      (.connection (.made spareLink)) := by
    intro ends hname hname'
    rw [LinkKey.names_made_iff] at hname'
    subst hname'
    have hmake := LinkKey.make_eq_ok_iff.2 names_swappedWire
    rw [LinkKey.make_eq_ok_iff.2 hname] at hmake
    exact absurd (Except.ok.inj hmake) (by decide)
  obtain ⟨n₁, hcommit⟩ : ∃ n₁,
      spareNetwork.commitNamed (.connection (.wire swappedWire)) linkOffChanges = .ok n₁ :=
    ⟨_, commitNamed_eq_ok_iff.2 ⟨_, hresolve, rfl⟩⟩
  obtain ⟨n₁', hcommit'⟩ : ∃ n₁',
      spareNetwork.commitNamed (.connection (.made spareLink)) linkOffChanges = .ok n₁' :=
    ⟨_, rfl⟩
  obtain ⟨m, hm, hm'⟩ := (commitNamed_comm _ _ _ _ _ hapart).2.2 _ _ hcommit hcommit'
  have hfails := (commitNamed_comm _ _ _ _ linkScriptChanges hapart).1 _ hcommit
  exact ⟨hapart, n₁, n₁', m, hcommit, hcommit', hm, hm', (hfails.error_iff _).2 rfl⟩

end Network

end WireMesh
