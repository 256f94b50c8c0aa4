import WireMesh.Proofs.Commit.Repetition
import WireMesh.Proofs.Config.LinkEnds
import WireMesh.Proofs.Config.SwitchedOff
import WireMesh.Proofs.Field.Numeral

/-!
This module contains the way of a number from an edit to a configuration. Once a setting has been
switched on with a value that stands for a number and the edit has been committed, the setting holds
that number, whatever else was edited, and the full configuration shows it in decimal, without a
sign or a zero in front of it.
-/

namespace WireMesh

open Text

section Commit

variable {context : Option Context} {field : String} {v : Value} {o o' new : Override}
  {cs : ChangeSet} {after : List Edit}

theorem Edit.left_override (field : String) (v : Value) (o new : Override)
    : ((⟨field, v, .override o⟩ : Edit).left new.toValue = .null ∧ o = new)
        ∨ (⟨field, v, .override o⟩ : Edit).left new.toValue = new.toValue := by
  unfold left
  split
  . next hsame =>
    have hold : o.GivenBy new.toValue := .inr hsame
    exact .inl ⟨rfl, hold.eq (.inl (Override.ofValue_toValue new))⟩
  . exact .inr rfl

theorem ChangeSet.get?_pending_foldl {e : Edit} {reported : Value}
    (hreported : validate e.field e.value context = .ok (.accepted reported))
    (hafter : ∀ other ∈ after, other.field ≠ e.field)
    : (after.foldl (step context) (cs.step context e)).pending.get? e.field
        =
      (some (e.left reported)).filter fun v => !v.isNull := by
  have hnone : after.reverse.findSome? (Edit.stored? context e.field) = none := by
    rw [List.findSome?_eq_none_iff]
    intro other hother
    exact if_neg (hafter other (List.mem_reverse.1 hother))
  unfold pending
  rw [OrderedMap.get?_filter]
  rw [get?_changed_foldl]
  rw [hnone]
  rw [step_of_accepted hreported]
  rw [OrderedMap.get?_insert_self]
  rfl

theorem Override.eq_of_pending (hreported : validate field v context = .ok (.accepted new.toValue))
    (hafter : ∀ other ∈ after, other.field ≠ field)
    (hread : ofValue (((after.foldl (ChangeSet.step context)
        (cs.step context ⟨field, v, .override o⟩)).pending.get? field).getD o.toValue) = .ok o')
    : o' = new := by
  rw [@ChangeSet.get?_pending_foldl _ cs after ⟨field, v, .override o⟩ _ hreported hafter] at hread
  obtain ⟨hleft, rfl⟩ | hleft := Edit.left_override field v o new
  . rw [hleft] at hread
    exact (ofValue_toValue_eq_ok_iff.1 hread).symm
  . rw [hleft] at hread
    exact (ofValue_toValue_eq_ok_iff.1 hread).symm

theorem ChangeSet.entries_pending_step {e : Edit} {reported : Value}
    (hreported : validate e.field e.value context = .ok (.accepted reported))
    : ((∅ : ChangeSet).step context e).pending.entries
        =
      if (e.left reported).isNull then [] else [(e.field, e.left reported)] := by
  rw [step_of_accepted hreported]
  change [(e.field, e.left reported)].filter (fun entry => !entry.2.isNull) = _
  split
  . next hnull => simp [hnull]
  . next hnull => simp [hnull]

theorem Peer.mtu_of_patch {changes : List (String × Value)} {p p' : Peer}
    (hpatch : p.patch changes = .ok p') (hnodup : (Entries.keys changes).Nodup)
    : Override.ofValue ((Entries.get? changes "mtu").getD p.mtu.toValue) = .ok p'.mtu := by
  obtain ⟨merged, hmerge, hread⟩ := Commit.patch_eq_ok_iff.1 hpatch
  obtain ⟨-, -, -, -, -, -, -, -, hmtu, -⟩ := ofMembers_eq_ok_iff.1 hread
  exact (Commit.optional_eq_ok_iff_of_get?
    (Commit.get?_merge hmerge hnodup (by decide) rfl)).1 hmtu

namespace Network

variable {n n' : Network} {key : String} {p : Peer} {id : ConnectionId} {c : Connection}

theorem mtu_of_commitPeer (hp : n.peers.get? key = some p)
    (hreported : validate "mtu" v context = .ok (.accepted new.toValue))
    (hafter : ∀ other ∈ after, other.field ≠ "mtu")
    (hcommit : n.commitPeer key (after.foldl (ChangeSet.step context)
      (cs.step context ⟨"mtu", v, .override p.mtu⟩)) = .ok n')
    : ∃ p', n'.peers.get? key = some p' ∧ p'.mtu = new := by
  obtain ⟨-, q, p', hq, hpatch, rfl⟩ := commitPeer_eq_ok_iff.1 hcommit
  cases hp.symm.trans hq
  have hread := Peer.mtu_of_patch hpatch (OrderedMap.nodup _)
  exact ⟨p', OrderedMap.get?_insert_self .., Override.eq_of_pending hreported hafter hread⟩

theorem keepalive_of_commitConnection (hc : n.connections.get? id = some c)
    (hreported : validate "persistent_keepalive" v context = .ok (.accepted new.toValue))
    (hafter : ∀ other ∈ after, other.field ≠ "persistent_keepalive")
    (hcommit : n.commitConnection id (after.foldl (ChangeSet.step context)
      (cs.step context ⟨"persistent_keepalive", v, .override c.persistentKeepalive⟩)) = .ok n')
    : ∃ c', n'.connections.get? id = some c' ∧ c'.persistentKeepalive = new := by
  obtain ⟨-, d, c', hd, hpatch, rfl⟩ := commitConnection_eq_ok_iff.1 hcommit
  cases hc.symm.trans hd
  have hread := (Connection.patchedBy_of_patch hpatch (OrderedMap.nodup _)).persistentKeepalive
  exact ⟨c', OrderedMap.get?_insert_self .., Override.eq_of_pending hreported hafter hread⟩

theorem commitPeer_mtu (hp : n.peers.get? key = some p)
    (hreported : validate "mtu" v context = .ok (.accepted new.toValue))
    : n.commitPeer key ((∅ : ChangeSet).step context ⟨"mtu", v, .override p.mtu⟩)
        =
      .ok { n with peers := n.peers.insert key { p with mtu := new } } := by
  rw [commitPeer_eq_ok_iff]
  refine ⟨?_, p, _, hp, ?_, rfl⟩
  . rw [ChangeSet.step_of_accepted hreported]
    rfl
  . rw [@ChangeSet.entries_pending_step _ ⟨"mtu", v, .override p.mtu⟩ _ hreported]
    obtain ⟨hleft, heq⟩ | hleft := Edit.left_override "mtu" v p.mtu new
    . rw [hleft, ← heq]
      exact p.patch_nil
    . rw [hleft]
      exact Commit.patch_eq_ok_iff.2 ⟨_, rfl, Peer.ofMembers_members { p with mtu := new }⟩

theorem commitConnection_keepalive (hc : n.connections.get? id = some c)
    (hreported : validate "persistent_keepalive" v context = .ok (.accepted new.toValue))
    : n.commitConnection id ((∅ : ChangeSet).step context
          ⟨"persistent_keepalive", v, .override c.persistentKeepalive⟩)
        =
      .ok { n with connections := n.connections.insert id { c with persistentKeepalive := new } }
    := by
  rw [commitConnection_eq_ok_iff]
  refine ⟨?_, c, _, hc, ?_, rfl⟩
  . rw [ChangeSet.step_of_accepted hreported]
    rfl
  . rw [@ChangeSet.entries_pending_step _
      ⟨"persistent_keepalive", v, .override c.persistentKeepalive⟩ _ hreported]
    obtain ⟨hleft, heq⟩ | hleft :=
      Edit.left_override "persistent_keepalive" v c.persistentKeepalive new
    . rw [hleft, ← heq]
      exact c.patch_nil
    . rw [hleft]
      exact Commit.patch_eq_ok_iff.2
        ⟨_, rfl, Connection.ofMembers_members { c with persistentKeepalive := new }⟩

end Network

end Commit

namespace Config

def canonical (m : Nat) : String :=
  String.ofList (Nat.toDigits 10 m)

structure ShowsNumber (config : Config) (lines : List Line) (name : String) (m : Nat) : Prop where
  only : shown name lines = [canonical m]
  text : ∃ head tail, config.text = head ++ "\n" ++ (name ++ " = " ++ canonical m) ++ "\n" ++ tail

theorem eq_directive_of_mem_shown {name value : String} {lines : List Line}
    (h : value ∈ shown name lines) : Line.directive name value ∈ lines := by
  obtain ⟨line, hline, hvalue⟩ := List.mem_filterMap.1 h
  cases line with
  | comment text => cases hvalue
  | heading text => cases hvalue
  | directive other found =>
    unfold Line.value? at hvalue
    dsimp only at hvalue
    split at hvalue
    . next hname =>
      cases hvalue
      rw [← hname]
      exact hline
    . cases hvalue

theorem shown_eq_canonical {name : String} {lines : List Line} {m : Nat}
    (h : (shown name lines).map .ok = [(OverrideValue.number m).line])
    : shown name lines = [canonical m] := by
  obtain ⟨text, hshown, htext⟩ := List.map_eq_singleton_iff.1 h
  rw [hshown]
  rw [← (Decimal.write_eq_ok_iff.1 htext.symm).2]
  unfold Decimal.ofInt
  rw [if_neg (by omega)]
  rfl

theorem shown_listenLine {name : String} (p : Peer) (h : "ListenPort" ≠ name)
    : shown name (listenLine p) = [] := by
  unfold shown listenLine
  split
  . simp [Line.value?, h]
  . rfl

theorem shown_optionalLines {p : Peer} {lines : List Line} (name : String)
    (hlines : optionalLines p = .ok lines)
    : (shown name lines).map .ok
        =
      (optionalSettings p).flatMap fun setting =>
        if setting.1 = name ∧ setting.2.enabled = true then [setting.2.value.line] else [] := by
  obtain ⟨written, hwritten, rfl⟩ := optionalLines_eq_ok_iff.1 hlines
  clear hlines
  generalize optionalSettings p = settings at hwritten ⊢
  induction settings generalizing written with
  | nil =>
    cases List.map_eq_nil_iff.1 hwritten.symm
    rfl
  | cons setting rest ih =>
    rw [List.map_cons] at hwritten
    obtain ⟨first, more, rfl, hfirst, hmore⟩ := List.map_eq_cons_iff.1 hwritten.symm
    rw [List.flatten_cons, shown_append, List.map_append, List.flatMap_cons]
    rw [shown_optionalLine name hfirst.symm, ih more hmore.symm]

theorem shown_mtu_interfaceSection {settings : Settings} {p : Peer} {lines : List Line}
    (hlines : interfaceSection settings p false = .ok lines)
    : (shown "MTU" lines).map .ok = if p.mtu.enabled then [p.mtu.value.line] else [] := by
  have hhook : ∀ hook : Hook, hook.directive ≠ "MTU" := by
    intro hook
    cases hook <;> decide
  obtain ⟨address, optional, haddress, hoptional, rfl⟩ := interfaceSection_false_eq_ok_iff.1 hlines
  obtain ⟨length, -, rfl⟩ := addressLine_eq_ok_iff.1 haddress
  rw [shown_append, shown_append, shown_listenLine p (by decide), List.append_nil, List.map_append]
  rw [shown_optionalLines "MTU" hoptional]
  simp [shown, Line.value?, peerComment, optionalSettings, Hook.all, hhook]

theorem shown_mtu_links {peerId : String} {links : List Link} {written : List (List Line)}
    (hshown : linkSections peerId links = .ok written) : shown "MTU" written.flatten = [] := by
  induction links generalizing written with
  | nil =>
    cases hshown
    rfl
  | cons link rest ih =>
    obtain ⟨lines, more, hlines, hmore, rfl⟩ := linkSections_cons_eq_ok_iff.1 hshown
    obtain ⟨keepalive, hkeepalive, hvalues⟩ := @shown_linkSection "MTU" _ _ _ (by decide) hlines
    rw [List.flatten_cons, shown_append, ih hmore]
    rw [hvalues, shown_optionalLine_of_ne (by decide) hkeepalive]
    rfl

end Config

namespace Network

variable {n : Network} {settings : Settings} {key peerId : String} {sorted : Bool}
  {config : Config} {p : Peer} {id : ConnectionId} {c : Connection} {m : Nat}

theorem exists_text_shown {name value : String} {stripped : Bool} {lines : List Line}
    (hconfig : n.config settings peerId sorted stripped = .ok config)
    (hlines : lines ∈ config.sections.tail) (hvalue : value ∈ Config.shown name lines)
    : ∃ head tail, config.text = head ++ "\n" ++ (name ++ " = " ++ value) ++ "\n" ++ tail := by
  obtain ⟨-, hsection⟩ := sections_ne_nil hconfig
  obtain ⟨_, _, _, _, -, -, -, -, hsections⟩ := config_eq_ok_iff.1 hconfig
  obtain ⟨sections⟩ := config
  obtain rfl : sections = _ := hsections
  rw [List.tail_cons] at hlines
  rw [List.forall_mem_cons] at hsection
  have hline := List.mem_flatten.2 ⟨lines, hlines, Config.eq_directive_of_mem_shown hvalue⟩
  obtain ⟨head, tail, htext⟩ := Config.exists_text_line hsection.1 hsection.2 hline
  exact ⟨head, tail, htext⟩

theorem showsNumber_mtu (hp : n.peers.get? key = some p) (hmtu : p.mtu = ⟨true, .number m⟩)
    (hconfig : n.config settings key sorted false = .ok config)
    : config.ShowsNumber config.sections.flatten "MTU" m := by
  obtain ⟨q, own, links, shown, hq, hown, -, hshown, hsections⟩ := config_eq_ok_iff.1 hconfig
  cases hp.symm.trans hq
  have hself : Config.shown "MTU" own = [Config.canonical m] := by
    apply Config.shown_eq_canonical
    rw [Config.shown_mtu_interfaceSection hown, hmtu]
    rfl
  constructor
  . rw [hsections, List.flatten_cons, List.flatten_cons]
    rw [Config.shown_append, Config.shown_append]
    rw [hself, Config.shown_mtu_links hshown]
    rfl
  . have hlines : own ∈ config.sections.tail := by
      rw [hsections]
      exact List.mem_cons_self
    apply exists_text_shown hconfig hlines
    rw [hself]
    exact List.mem_cons_self

theorem showsNumber_keepalive (hc : n.connections.get? id = some c) (henabled : c.enabled = true)
    (hkeepalive : c.persistentKeepalive = ⟨true, .number m⟩) (hcontains : id.contains peerId = true)
    (hconfig : n.config settings peerId sorted false = .ok config)
    : ∃ link, link.id = id ∧ link.connection = c
        ∧ ∃ lines, Config.linkSection peerId link = .ok lines ∧ lines ∈ config.sections
          ∧ config.ShowsNumber lines "PersistentKeepalive" m := by
  obtain ⟨p, own, links, shown, -, -, hlinks, hshown, hsections⟩ := config_eq_ok_iff.1 hconfig
  obtain ⟨before, link, after, rfl, hid, rfl, -⟩ :=
    exists_links_around hlinks hc hcontains henabled
  obtain ⟨lines, hmem, hlines⟩ := Config.exists_lines_of_mem_links hshown
    (List.mem_append_right before List.mem_cons_self)
  have hmem : lines ∈ config.sections.tail := by
    rw [hsections]
    exact List.mem_cons_of_mem _ hmem
  have hvalue : Config.shown "PersistentKeepalive" lines = [Config.canonical m] := by
    apply Config.shown_eq_canonical
    obtain ⟨keepalive, hline, hvalues⟩ :=
      @Config.shown_linkSection "PersistentKeepalive" _ _ _ (by decide) hlines
    rw [hvalues, List.map_append, Config.shown_optionalLine _ hline, hkeepalive]
    rfl
  refine ⟨link, hid, rfl, lines, hlines, List.mem_of_mem_tail hmem, hvalue, ?_⟩
  apply exists_text_shown hconfig hmem
  rw [hvalue]
  exact List.mem_cons_self

structure PrintsMtu (n : Network) (key : String) (p : Peer) (v : Value) (context : Option Context)
    (m : Nat) : Prop where
  alone : n.commitPeer key ((∅ : ChangeSet).step context ⟨"mtu", v, .override p.mtu⟩)
    = .ok { n with peers := n.peers.insert key { p with mtu := ⟨true, .number m⟩ } }
  /--
  Once it is committed, with whatever was edited before it and with other fields edited after it,
  the configuration of the peer shows the number.
  -/
  printed : ∀ (cs : ChangeSet) (after : List Edit) (n' : Network),
    (∀ other ∈ after, other.field ≠ "mtu")
      → n.commitPeer key (after.foldl (ChangeSet.step context)
          (cs.step context ⟨"mtu", v, .override p.mtu⟩)) = .ok n'
      → ∀ settings sorted config, n'.config settings key sorted false = .ok config
      → config.ShowsNumber config.sections.flatten "MTU" m

structure PrintsKeepalive (n : Network) (id : ConnectionId) (c : Connection) (v : Value)
    (context : Option Context) (m : Nat) : Prop where
  alone : n.commitConnection id ((∅ : ChangeSet).step context
      ⟨"persistent_keepalive", v, .override c.persistentKeepalive⟩)
    = .ok { n with
        connections := n.connections.insert id { c with persistentKeepalive := ⟨true, .number m⟩ } }
  /--
  As long as the connection is enabled, its section in the configuration of either end shows the
  number.
  -/
  printed : ∀ (cs : ChangeSet) (after : List Edit) (n' : Network) (c' : Connection),
    (∀ other ∈ after, other.field ≠ "persistent_keepalive")
      → n.commitConnection id (after.foldl (ChangeSet.step context)
          (cs.step context ⟨"persistent_keepalive", v, .override c.persistentKeepalive⟩)) = .ok n'
      → n'.connections.get? id = some c' → c'.enabled = true
      → ∀ settings peerId sorted config, id.contains peerId = true
      → n'.config settings peerId sorted false = .ok config
      → ∃ link, link.id = id ∧ link.connection = c'
          ∧ ∃ lines, Config.linkSection peerId link = .ok lines ∧ lines ∈ config.sections
            ∧ config.ShowsNumber lines "PersistentKeepalive" m

variable {v : Value} {context : Option Context}

theorem printsMtu (hp : n.peers.get? key = some p)
    (hreported : validate "mtu" v context
      = .ok (.accepted (Override.mk true (.number m)).toValue))
    : n.PrintsMtu key p v context m where
  alone := commitPeer_mtu hp hreported
  printed := by
    intro cs after n' hafter hcommit settings sorted config hconfig
    obtain ⟨p', hp', hmtu⟩ := mtu_of_commitPeer hp hreported hafter hcommit
    exact showsNumber_mtu hp' hmtu hconfig

theorem printsKeepalive (hc : n.connections.get? id = some c)
    (hreported : validate "persistent_keepalive" v context
      = .ok (.accepted (Override.mk true (.number m)).toValue))
    : n.PrintsKeepalive id c v context m where
  alone := commitConnection_keepalive hc hreported
  printed := by
    intro cs after n' c' hafter hcommit hc' henabled settings peerId sorted config hcontains hconfig
    obtain ⟨d, hd, hkeepalive⟩ := keepalive_of_commitConnection hc hreported hafter hcommit
    cases hc'.symm.trans hd
    exact showsNumber_keepalive hc' henabled hkeepalive hcontains hconfig

theorem validate_number_printed {x : Value} (hplain : x.isPlain = true)
    {on off : List (String × Value)} (hon : on.Perm [("enabled", .bool true), ("value", x)])
    (hoff : off.Perm [("enabled", .bool false), ("value", x)]) (context : Option Context)
    : (x.Countable
          → (∀ field ∈ Rule.numberFields,
              Accepts field (.object on) context
                ↔
              ∃ m : Nat, 1 ≤ m ∧ m ≤ 65535 ∧ x.StandsFor m)
            ∧ ∀ m : Nat, 1 ≤ m → m ≤ 65535 → x.StandsFor m
              → (∀ field ∈ Rule.numberFields, validate field (.object on) context
                    = .ok (.accepted (.pair (.bool true) (.int m))))
                ∧ (∀ (n : Network) key p, n.peers.get? key = some p
                    → n.PrintsMtu key p (.object on) context m)
                ∧ ∀ (n : Network) id c, n.connections.get? id = some c
                    → n.PrintsKeepalive id c (.object on) context m)
        ∧ ∀ field ∈ Rule.numberFields, (∀ s, x = .text s → OneLine s)
          → validate field (.object off) context = .ok (.accepted (.pair (.bool false) x)) := by
  have hfOn := Field.ofValue?_of_perm hplain hon
  have hfOff := Field.ofValue?_of_perm hplain hoff
  constructor
  . intro hcount
    have hreported : ∀ field ∈ Rule.numberFields, ∀ reported, _ ↔ _ :=
      fun field hfield reported =>
        @validate_number_on_iff field _ x reported context hfield hplain hcount hfOn
    constructor
    . intro field hfield
      constructor
      . rintro ⟨reported, haccepts⟩
        obtain ⟨m, hpos, hle, hstands, -⟩ := (hreported field hfield reported).1 haccepts
        exact ⟨m, hpos, hle, hstands⟩
      . rintro ⟨m, hpos, hle, hstands⟩
        exact ⟨_, (hreported field hfield _).2 ⟨m, hpos, hle, hstands, rfl⟩⟩
    . intro m hpos hle hstands
      have haccepts : ∀ field ∈ Rule.numberFields, validate field (.object on) context
          = .ok (.accepted (.pair (.bool true) (.int m))) :=
        fun field hfield => (hreported field hfield _).2 ⟨m, hpos, hle, hstands, rfl⟩
      exact ⟨haccepts, fun n key p hp => n.printsMtu hp (haccepts "mtu" (by decide)),
        fun n id c hc => n.printsKeepalive hc (haccepts "persistent_keepalive" (by decide))⟩
  . intro field hfield hone
    exact validate_number_off hfield hone hplain hfOff

def spelledNumber : Value :=
  .text "  +01280 "

theorem standsFor_spelledNumber : spelledNumber.StandsFor 1280 :=
  .inr ⟨_, rfl, 2, ['+'], "01280".toList, 1, rfl, by decide, by decide, List.all_eq_true.1 rfl, rfl⟩

theorem countable_spelledNumber : spelledNumber.Countable := by
  rintro s ⟨⟩
  decide

theorem validate_number_printed_spelledNumber
    : spelledNumber.isPlain = true ∧ spelledNumber.Countable ∧ spelledNumber.StandsFor 1280
        ∧ Accepts "mtu" (.pair (.bool true) spelledNumber) none
        ∧ validate "mtu" (.pair (.bool false) spelledNumber) none
            = .ok (.accepted (.pair (.bool false) spelledNumber))
        ∧ (∃ n' config, disguised.commitPeer disguisedPeer.id ((∅ : ChangeSet).step none
                ⟨"mtu", .pair (.bool true) spelledNumber, .override disguisedPeer.mtu⟩) = .ok n'
            ∧ n'.config .default disguisedPeer.id false false = .ok config
            ∧ config.ShowsNumber config.sections.flatten "MTU" 1280)
        ∧ ∃ id c n' config link lines, disguised.connections.get? id = some c ∧ c.enabled = true
            ∧ disguised.commitConnection id ((∅ : ChangeSet).step none
                ⟨"persistent_keepalive", .pair (.bool true) spelledNumber,
                  .override c.persistentKeepalive⟩) = .ok n'
            ∧ n'.config .default disguisedPeer.id false false = .ok config
            ∧ link.id = id ∧ Config.linkSection disguisedPeer.id link = .ok lines
            ∧ config.ShowsNumber lines "PersistentKeepalive" 1280 := by
  have hplain : spelledNumber.isPlain = true := rfl
  obtain ⟨hon, hoff⟩ := validate_number_printed hplain .rfl .rfl none
  obtain ⟨haccepts, hnumber⟩ := hon countable_spelledNumber
  obtain ⟨-, hmtu, hkeepalive⟩ := hnumber 1280 (by decide) (by decide) standsFor_spelledNumber
  refine ⟨hplain, countable_spelledNumber, standsFor_spelledNumber,
    (haccepts "mtu" (by decide)).2 ⟨1280, by decide, by decide, standsFor_spelledNumber⟩,
    ?_, ?_, ?_⟩
  . apply hoff "mtu" (by decide)
    rintro s ⟨⟩
    decide
  . have hp := hmtu disguised disguisedPeer.id disguisedPeer rfl
    exact ⟨_, _, hp.alone, rfl, hp.printed ∅ [] _ (by simp) hp.alone .default false _ rfl⟩
  . have hc := hkeepalive disguised
      ⟨disguisedPeer.id, disguisedOther.id, by decide, by decide, by decide⟩ _ rfl
    obtain ⟨link, hid, -, lines, hlines, -, hshows⟩ := hc.printed ∅ [] _ _ (by simp) hc.alone
      (OrderedMap.get?_insert_self ..) rfl .default disguisedPeer.id false _ rfl rfl
    exact ⟨_, _, _, _, link, lines, rfl, rfl, hc.alone, rfl, hid, hlines, hshows⟩

end Network

end WireMesh
