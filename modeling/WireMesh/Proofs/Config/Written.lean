import WireMesh.Config
import WireMesh.Proofs.Network.Links

/-!
This module contains what the sections of a configuration are made of once they are written, and
when one of them cannot be written: a number that is on has too many digits.
-/

namespace WireMesh

theorem Except.bind_eq_ok_iff {ε α β : Type} {x : Except ε α} {f : α → Except ε β} {b : β}
    : x >>= f = .ok b ↔ ∃ a, x = .ok a ∧ f a = .ok b := by
  cases x with
  | error e => simp [bind, Except.bind]
  | ok a => simp [bind, Except.bind]

theorem Except.bind_eq_error_iff {ε α β : Type} {x : Except ε α} {f : α → Except ε β} {e : ε}
    : x >>= f = .error e ↔ x = .error e ∨ ∃ a, x = .ok a ∧ f a = .error e := by
  cases x with
  | error e => simp [bind, Except.bind]
  | ok a => simp [bind, Except.bind]

theorem Except.mapM_eq_ok_iff {ε α β : Type} {f : α → Except ε β} {xs : List α} {ys : List β}
    : xs.mapM f = .ok ys ↔ xs.map f = ys.map .ok := by
  induction xs generalizing ys with
  | nil => cases ys <;> simp [pure, Except.pure]
  | cons x xs ih =>
    rw [List.mapM_cons, bind_eq_ok_iff]
    simp only [bind_eq_ok_iff, ih]
    cases ys with
    | nil => simp [pure, Except.pure]
    | cons y ys =>
      simp only [pure, Except.pure, Except.ok.injEq, List.cons.injEq, List.map_cons]
      grind

theorem Except.mapM_id_map {ε α β : Type} (f : α → Except ε β) (xs : List α)
    : (xs.map f).mapM id = xs.mapM f :=
  List.mapM_map (g := id)

theorem Except.mapM_eq_error_iff {ε α β : Type} [Subsingleton ε] {f : α → Except ε β} {xs : List α}
    {e : ε} : xs.mapM f = .error e ↔ ∃ x ∈ xs, f x = .error e := by
  -- With a single error it does not matter which of the values fails first.
  induction xs with
  | nil => simp [pure, Except.pure]
  | cons x xs ih =>
    rw [List.mapM_cons]
    simp only [bind_eq_error_iff, ih, List.mem_cons, exists_eq_or_imp]
    cases f x with
    | error cause => simp [Subsingleton.elim cause e]
    | ok y => simp [pure, Except.pure]

instance : Subsingleton Decimal.TooLong :=
  ⟨fun ⟨⟩ ⟨⟩ => rfl⟩

def Override.TooLong (o : Override) : Prop :=
  o.enabled = true
    ∧ ∃ n, o.value = .number n ∧ Decimal.digitLimit < (Nat.toDigits 10 n.natAbs).length

namespace Config

variable {settings : Settings} {p : Peer} {o : Override} {name peerId : String} {link : Link}
  {stripped : Bool} {e : Decimal.TooLong}
  {links more : List Link} {line : Line} {lines : List Line} {shown : List (List Line)}

theorem optionalLine_eq_ok_iff
    : optionalLine name o = .ok lines
        ↔
      (o.enabled = true ∧ ∃ text, o.value.line = .ok text ∧ lines = [.directive name text])
        ∨ (o.enabled = false ∧ lines = []) := by
  unfold optionalLine
  cases o.enabled with
  | false => simp [pure, Except.pure, eq_comm]
  | true =>
    rw [if_pos rfl, Except.bind_eq_ok_iff]
    simp [pure, Except.pure, eq_comm (b := lines)]

theorem directive_of_mem_optionalLine (hlines : optionalLine name o = .ok lines)
    (hline : line ∈ lines)
    : ∃ text, o.value.line = .ok text ∧ line = .directive name text := by
  obtain ⟨-, text, htext, rfl⟩ | ⟨-, rfl⟩ := optionalLine_eq_ok_iff.1 hlines
  . exact ⟨text, htext, List.mem_singleton.1 hline⟩
  . cases hline

theorem addressLine_eq_ok_iff
    : addressLine settings p = .ok line
        ↔
      ∃ length, Decimal.write settings.interfaceLength = .ok length
        ∧ line = .directive "Address" (p.address ++ "/" ++ length) := by
  unfold addressLine
  rw [Except.bind_eq_ok_iff]
  simp [pure, Except.pure, eq_comm]

theorem optionalLines_eq_ok_iff
    : optionalLines p = .ok lines
        ↔
      ∃ written : List (List Line),
        (optionalSettings p).map (fun setting => optionalLine setting.1 setting.2) = written.map .ok
          ∧ lines = written.flatten := by
  unfold optionalLines
  simp only [Except.bind_eq_ok_iff, Except.mapM_eq_ok_iff]
  simp only [pure, Except.pure, Except.ok.injEq, eq_comm (b := lines)]

theorem directive_of_mem_optionalLines (hlines : optionalLines p = .ok lines) (hline : line ∈ lines)
    : ∃ setting ∈ optionalSettings p, ∃ text, setting.2.value.line = .ok text
        ∧ line = .directive setting.1 text := by
  obtain ⟨written, hwritten, rfl⟩ := optionalLines_eq_ok_iff.1 hlines
  obtain ⟨part, hpart, hline⟩ := List.mem_flatten.1 hline
  have hpart := List.mem_map_of_mem (f := Except.ok (ε := Decimal.TooLong)) hpart
  rw [← hwritten] at hpart
  obtain ⟨setting, hsetting, hpart⟩ := List.mem_map.1 hpart
  exact ⟨setting, hsetting, directive_of_mem_optionalLine hpart hline⟩

theorem interfaceSection_true (settings : Settings) (p : Peer)
    : interfaceSection settings p true
        =
      .ok ([peerComment p, .heading "Interface", .directive "PrivateKey" p.privateKey]
        ++ listenLine p) :=
  rfl

theorem interfaceSection_false_eq_ok_iff
    : interfaceSection settings p false = .ok lines
        ↔
      ∃ address optional, addressLine settings p = .ok address ∧ optionalLines p = .ok optional
        ∧ lines = [peerComment p, .heading "Interface", .directive "PrivateKey" p.privateKey]
            ++ [address] ++ listenLine p ++ optional := by
  unfold interfaceSection
  rw [if_neg Bool.false_ne_true]
  simp only [Except.bind_eq_ok_iff]
  simp only [pure, Except.pure, Except.ok.injEq, eq_comm (b := lines)]
  grind

theorem linkSection_eq_ok_iff
    : linkSection peerId link = .ok lines
        ↔
      ∃ keepalive,
        optionalLine "PersistentKeepalive" link.connection.persistentKeepalive = .ok keepalive
          ∧ lines = [peerComment link.other, .heading "Peer",
              .directive "PublicKey" link.other.publicKey,
              .directive "PresharedKey" link.connection.preSharedKey,
              .directive "AllowedIPs" (allowedIps peerId link)]
            ++ keepalive ++ endpointLine link.other := by
  unfold linkSection
  rw [Except.bind_eq_ok_iff]
  simp only [pure, Except.pure, Except.ok.injEq, eq_comm (b := lines)]

theorem interfaceSection_ne_nil (hlines : interfaceSection settings p stripped = .ok lines)
    : lines ≠ [] := by
  cases stripped with
  | true =>
    cases hlines
    simp
  | false =>
    obtain ⟨_, _, -, -, rfl⟩ := interfaceSection_false_eq_ok_iff.1 hlines
    simp

theorem linkSection_ne_nil (hlines : linkSection peerId link = .ok lines) : lines ≠ [] := by
  obtain ⟨_, -, rfl⟩ := linkSection_eq_ok_iff.1 hlines
  simp

theorem linkSections_eq_ok_iff
    : linkSections peerId links = .ok shown ↔ links.map (linkSection peerId) = shown.map .ok :=
  Except.mapM_eq_ok_iff

theorem optionalLine_eq_error_iff : optionalLine name o = .error e ↔ o.TooLong := by
  unfold optionalLine Override.TooLong
  cases o.enabled with
  | false => simp [pure, Except.pure]
  | true =>
    rw [if_pos rfl, Except.bind_eq_error_iff]
    cases o.value with
    | number n => simp [OverrideValue.line, Decimal.write_eq_error_iff, pure, Except.pure]
    | text s => simp [OverrideValue.line, pure, Except.pure]

def InterfaceTooLong (settings : Settings) (p : Peer) (stripped : Bool) : Prop :=
  stripped = false
    ∧ (Decimal.digitLimit < (Nat.toDigits 10 settings.interfaceLength.natAbs).length
      ∨ ∃ setting ∈ optionalSettings p, setting.2.TooLong)

theorem interfaceSection_eq_error_iff
    : interfaceSection settings p stripped = .error e ↔ InterfaceTooLong settings p stripped := by
  unfold interfaceSection InterfaceTooLong
  cases stripped with
  | true => simp [pure, Except.pure]
  | false =>
    have haddress : addressLine settings p = .error e
        ↔ Decimal.digitLimit < (Nat.toDigits 10 settings.interfaceLength.natAbs).length := by
      unfold addressLine
      simp [Except.bind_eq_error_iff, Decimal.write_eq_error_iff, pure, Except.pure]
    have hoptional : optionalLines p = .error e
        ↔ ∃ setting ∈ optionalSettings p, setting.2.TooLong := by
      unfold optionalLines
      simp [Except.bind_eq_error_iff, Except.mapM_eq_error_iff, optionalLine_eq_error_iff, pure,
        Except.pure]
    rw [if_neg Bool.false_ne_true]
    simp only [Except.bind_eq_error_iff, haddress, hoptional]
    cases hline : addressLine settings p with
    | error cause =>
      rw [← haddress, hline, Subsingleton.elim cause e]
      simp
    | ok address => simp [pure, Except.pure]

theorem linkSection_eq_error_iff
    : linkSection peerId link = .error e ↔ link.connection.persistentKeepalive.TooLong := by
  unfold linkSection
  simp [Except.bind_eq_error_iff, optionalLine_eq_error_iff, pure, Except.pure]

theorem linkSections_eq_error_iff
    : linkSections peerId links = .error e
        ↔
      ∃ link ∈ links, link.connection.persistentKeepalive.TooLong := by
  unfold linkSections
  simp only [Except.mapM_eq_error_iff, linkSection_eq_error_iff]

theorem linkSections_append_eq_ok_iff
    : linkSections peerId (links ++ more) = .ok shown
        ↔
      ∃ before after, linkSections peerId links = .ok before ∧ linkSections peerId more = .ok after
        ∧ shown = before ++ after := by
  simp only [linkSections_eq_ok_iff]
  rw [List.map_append]
  constructor
  . intro h
    obtain ⟨before, after, rfl, hbefore, hafter⟩ := List.map_eq_append_iff.1 h.symm
    exact ⟨before, after, hbefore.symm, hafter.symm, rfl⟩
  . rintro ⟨before, after, hbefore, hafter, rfl⟩
    rw [hbefore, hafter, List.map_append]

theorem linkSections_cons_eq_ok_iff
    : linkSections peerId (link :: links) = .ok shown
        ↔
      ∃ lines rest, linkSection peerId link = .ok lines ∧ linkSections peerId links = .ok rest
        ∧ shown = lines :: rest := by
  simp only [linkSections_eq_ok_iff]
  rw [List.map_cons]
  constructor
  . intro h
    obtain ⟨lines, rest, rfl, hlines, hrest⟩ := List.map_eq_cons_iff.1 h.symm
    exact ⟨lines, rest, hlines.symm, hrest.symm, rfl⟩
  . rintro ⟨lines, rest, hlines, hrest, rfl⟩
    rw [hlines, hrest, List.map_cons]

theorem exists_link_of_mem_linkSections (hshown : linkSections peerId links = .ok shown)
    (hlines : lines ∈ shown) : ∃ link ∈ links, linkSection peerId link = .ok lines := by
  have hlines := List.mem_map_of_mem (f := Except.ok (ε := Decimal.TooLong)) hlines
  rw [← linkSections_eq_ok_iff.1 hshown] at hlines
  exact List.mem_map.1 hlines

theorem exists_lines_of_mem_links (hshown : linkSections peerId links = .ok shown)
    (hlink : link ∈ links) : ∃ lines ∈ shown, linkSection peerId link = .ok lines := by
  have hlines := List.mem_map_of_mem (f := linkSection peerId) hlink
  rw [linkSections_eq_ok_iff.1 hshown] at hlines
  obtain ⟨lines, hmem, hlines⟩ := List.mem_map.1 hlines
  exact ⟨lines, hmem, hlines.symm⟩

end Config

namespace Network

variable {n : Network} {settings : Settings} {peerId : String} {sorted stripped : Bool}
  {config : Config}

theorem config_eq_ok_iff
    : n.config settings peerId sorted stripped = .ok config
        ↔
      ∃ p own links shown, n.peers.get? peerId = some p
        ∧ Config.interfaceSection settings p stripped = .ok own
        ∧ n.links peerId sorted = .ok links ∧ Config.linkSections peerId links = .ok shown
        ∧ config.sections = Config.header settings n :: own :: shown := by
  unfold Network.config Network.peer
  cases n.peers.get? peerId with
  | none => simp
  | some p =>
    dsimp only
    cases hown : Config.interfaceSection settings p stripped with
    | error e => simp [hown]
    | ok own =>
      cases n.links peerId sorted with
      | error e => simp
      | ok links =>
        dsimp only
        cases hshown : Config.linkSections peerId links with
        | error e => simp [hshown]
        | ok shown =>
          cases config
          simp [hown, hshown, eq_comm]

theorem config_eq_error_iff {e : Config.Error}
    : n.config settings peerId sorted stripped = .error e
        ↔
      (∃ cause, n.peer peerId = .error cause ∧ e = .peerNotFound cause)
        ∨ ∃ p, n.peers.get? peerId = some p
          ∧ (Config.InterfaceTooLong settings p stripped ∧ e = .tooLong ⟨⟩
            ∨ ¬Config.InterfaceTooLong settings p stripped
              ∧ ((∃ cause, n.links peerId sorted = .error cause ∧ e = .peerNotFound cause)
                ∨ ∃ links, n.links peerId sorted = .ok links
                  ∧ (∃ link ∈ links, link.connection.persistentKeepalive.TooLong)
                  ∧ e = .tooLong ⟨⟩)) := by
  have hown : ∀ p, Config.InterfaceTooLong settings p stripped
      ↔ Config.interfaceSection settings p stripped = .error ⟨⟩ :=
    fun p => Config.interfaceSection_eq_error_iff.symm
  have hshown : ∀ links, (∃ link ∈ links, link.connection.persistentKeepalive.TooLong)
      ↔ Config.linkSections peerId links = .error ⟨⟩ :=
    fun links => Config.linkSections_eq_error_iff.symm
  simp only [hown, hshown]
  unfold config peer
  cases n.peers.get? peerId with
  | none => simp [eq_comm (b := e)]
  | some p =>
    simp only [Option.some.injEq, exists_eq_left', reduceCtorEq, false_and, exists_false, false_or]
    cases Config.interfaceSection settings p stripped with
    | error cause => simp [eq_comm (b := e)]
    | ok own =>
      cases n.links peerId sorted with
      | error cause => simp [eq_comm (b := e)]
      | ok links =>
        simp only [Except.ok.injEq, exists_eq_left']
        cases Config.linkSections peerId links with
        | error cause => simp [eq_comm (b := e)]
        | ok shown => simp

theorem sections_ne_nil (hconfig : n.config settings peerId sorted stripped = .ok config)
    : config.sections ≠ [] ∧ ∀ lines ∈ config.sections, lines ≠ [] := by
  obtain ⟨p, own, links, shown, -, hown, -, hshown, hsections⟩ := config_eq_ok_iff.1 hconfig
  rw [hsections]
  simp only [List.forall_mem_cons]
  refine ⟨by simp, by simp [Config.header], Config.interfaceSection_ne_nil hown, ?_⟩
  intro lines hlines
  obtain ⟨link, -, hlines⟩ := Config.exists_link_of_mem_linkSections hshown hlines
  exact Config.linkSection_ne_nil hlines

theorem exists_config_true (h : n.config settings peerId false stripped = .ok config)
    : ∃ sorted, n.config settings peerId true stripped = .ok sorted := by
  obtain ⟨p, own, links, shown, hp, hown, hlinks, hshown, -⟩ := config_eq_ok_iff.1 h
  have hsorted := links_true_eq_ok_iff.2 ⟨links, hlinks, rfl⟩
  cases hsections : Config.linkSections peerId (sortLinks links) with
  | ok shown => exact ⟨⟨_⟩, config_eq_ok_iff.2 ⟨p, own, _, _, hp, hown, hsorted, hsections, rfl⟩⟩
  | error e =>
    obtain ⟨link, hlink, hlong⟩ := Config.linkSections_eq_error_iff.1 hsections
    have hlink := (List.mergeSort_perm _ _).mem_iff.1 hlink
    rw [Config.linkSections_eq_error_iff (e := e) |>.2 ⟨link, hlink, hlong⟩] at hshown
    cases hshown

end Network

end WireMesh
