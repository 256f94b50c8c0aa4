import WireMesh.Proofs.Config.Injection

/-!
This module contains what stripping does to the text of a configuration. As long as no value has a
line feed, the text of the stripped configuration is that of the full one without the lines that
begin with one of seven directives. All other lines stay as they are and where they are. A full
configuration that fails fails in the same way when it is stripped, unless a number that only the
full one has is too long.
-/

namespace WireMesh

open Text

theorem Text.intercalate_lines (s : String) : "\n".intercalate (lines s) = s := by
  rw [← String.toList_inj]
  rw [String.toList_intercalate]
  unfold lines
  rw [List.map_map]
  change ['\n'].intercalate (List.map (fun cs => (String.ofList cs).toList) _) = _
  simp only [String.toList_ofList, List.map_id']
  exact List.intercalate_splitOn '\n'

namespace Line

def extraNames : List String :=
  ["Address", "DNS", "MTU", "PreUp", "PostUp", "PreDown", "PostDown"]

def IsExtra (row : String) : Prop :=
  ∃ name ∈ extraNames, (name ++ " = ").toList <+: row.toList

instance (row : String) : Decidable (IsExtra row) :=
  inferInstanceAs (Decidable (∃ name ∈ extraNames, (name ++ " = ").toList <+: row.toList))

theorem IsExtra.head?_isAlpha {row : String} (h : IsExtra row)
    : row.toList.head?.any Char.isAlpha = true := by
  obtain ⟨name, hname, rest, hrow⟩ := h
  have hletter : ∀ name ∈ extraNames, name.toList.head?.any Char.isAlpha = true := by decide
  specialize hletter name hname
  rw [← hrow, String.toList_append, List.append_assoc, List.head?_append]
  cases hhead : name.toList.head? with
  | none =>
    rw [hhead] at hletter
    cases hletter
  | some c =>
    rw [hhead] at hletter
    exact hletter

theorem not_isExtra_comment (text : String) : ¬ IsExtra (comment text).text := by
  intro h
  have hletter := h.head?_isAlpha
  simp [Line.text] at hletter

theorem not_isExtra_heading (name : String) : ¬ IsExtra (heading name).text := by
  intro h
  have hletter := h.head?_isAlpha
  simp [Line.text] at hletter

theorem isExtra_directive_iff {name value : String} (h : ' ' ∉ name.toList)
    : IsExtra (directive name value).text ↔ name ∈ extraNames := by
  constructor
  . rintro ⟨other, hother, rest, hrow⟩
    have hblank : ∀ name ∈ extraNames, ' ' ∉ name.toList := by decide
    -- Either name is what stands before the first blank.
    have hsplit : splitFirst ' ' (directive name value).text.toList
        = some (name.toList, '=' :: ' ' :: value.toList) := by
      rw [splitFirst_eq_some_iff]
      exact ⟨by simp [Line.text], h⟩
    have hsplit' : splitFirst ' ' (directive name value).text.toList
        = some (other.toList, '=' :: ' ' :: rest) := by
      rw [splitFirst_eq_some_iff]
      exact ⟨by simp [← hrow], hblank other hother⟩
    rw [hsplit, Option.some.injEq, Prod.mk.injEq] at hsplit'
    rw [String.toList_inj.1 hsplit'.1]
    exact hother
  . intro hname
    refine ⟨name, hname, value.toList, ?_⟩
    rw [← String.toList_append]
    rfl

end Line

namespace Config

open Line

variable {settings : Settings} {p : Peer} {peerId : String} {link : Link} {lines : List Line}

def keepLines (lines : List Line) : List Line :=
  lines.filter fun line => ¬ IsExtra line.text

theorem keepLines_append (lines more : List Line)
    : keepLines (lines ++ more) = keepLines lines ++ keepLines more :=
  List.filter_append lines more

theorem keepLines_eq_self_iff {lines : List Line}
    : keepLines lines = lines ↔ ∀ line ∈ lines, ¬ IsExtra line.text := by
  unfold keepLines
  simp [List.filter_eq_self]

theorem keepLines_eq_nil_iff {lines : List Line}
    : keepLines lines = [] ↔ ∀ line ∈ lines, IsExtra line.text := by
  unfold keepLines
  simp [List.filter_eq_nil_iff]

theorem keepLines_header (settings : Settings) (n : Network)
    : keepLines (header settings n) = header settings n := by
  rw [keepLines_eq_self_iff]
  unfold header
  simp [not_isExtra_comment]

theorem isExtra_of_mem_optionalLines (hlines : optionalLines p = .ok lines) {line : Line}
    (hline : line ∈ lines) : IsExtra line.text := by
  have hsettings : ∀ setting ∈ optionalSettings p,
      ' ' ∉ setting.1.toList ∧ setting.1 ∈ extraNames := by
    unfold optionalSettings
    simp only [List.forall_mem_append, List.forall_mem_cons, List.forall_mem_map]
    refine ⟨⟨by decide, by decide, by simp⟩, ?_⟩
    intro hook _
    cases hook <;> decide
  obtain ⟨setting, hsetting, text, -, rfl⟩ := directive_of_mem_optionalLines hlines hline
  obtain ⟨hblank, hextra⟩ := hsettings setting hsetting
  exact (isExtra_directive_iff hblank).2 hextra

theorem keepLines_listenLine (p : Peer) : keepLines (listenLine p) = listenLine p := by
  rw [keepLines_eq_self_iff]
  unfold listenLine
  split
  . rw [List.forall_mem_singleton, isExtra_directive_iff (by decide)]
    decide
  . simp

theorem keepLines_endpointLine (p : Peer) : keepLines (endpointLine p) = endpointLine p := by
  rw [keepLines_eq_self_iff]
  unfold endpointLine
  split
  . rw [List.forall_mem_singleton, isExtra_directive_iff (by decide)]
    decide
  . simp

theorem keepLines_linkSection (hlines : linkSection peerId link = .ok lines)
    : keepLines lines = lines := by
  obtain ⟨keepalive, hkeepalive, rfl⟩ := linkSection_eq_ok_iff.1 hlines
  rw [keepLines_append, keepLines_append]
  rw [keepLines_endpointLine]
  congr 2
  . rw [keepLines_eq_self_iff]
    simp only [List.forall_mem_cons]
    refine ⟨not_isExtra_comment _, not_isExtra_heading _, ?_, ?_, ?_, by simp⟩
    all_goals
      rw [isExtra_directive_iff (by decide)]
      decide
  . rw [keepLines_eq_self_iff]
    intro line hline
    obtain ⟨text, -, rfl⟩ := directive_of_mem_optionalLine hkeepalive hline
    rw [isExtra_directive_iff (by decide)]
    decide

theorem keepLines_interfaceSection (hlines : interfaceSection settings p false = .ok lines)
    : interfaceSection settings p true = .ok (keepLines lines) := by
  obtain ⟨address, optional, haddress, hoptional, rfl⟩ := interfaceSection_false_eq_ok_iff.1 hlines
  have hhead : keepLines [peerComment p, heading "Interface", directive "PrivateKey" p.privateKey]
      = [peerComment p, heading "Interface", directive "PrivateKey" p.privateKey] := by
    rw [keepLines_eq_self_iff]
    simp only [List.forall_mem_cons]
    refine ⟨not_isExtra_comment _, not_isExtra_heading _, ?_, by simp⟩
    rw [isExtra_directive_iff (by decide)]
    decide
  have haddress : keepLines [address] = [] := by
    obtain ⟨length, -, rfl⟩ := addressLine_eq_ok_iff.1 haddress
    rw [keepLines_eq_nil_iff, List.forall_mem_singleton]
    exact (isExtra_directive_iff (by decide)).2 (by decide)
  have hoptional : keepLines optional = [] :=
    keepLines_eq_nil_iff.2 fun _ hline => isExtra_of_mem_optionalLines hoptional hline
  rw [keepLines_append, keepLines_append, keepLines_append]
  rw [hhead, haddress, keepLines_listenLine, hoptional]
  rw [List.append_nil, List.append_nil]
  exact interfaceSection_true settings p

theorem filter_rows_keepLines (config : Config)
    : config.rows.filter (fun row => ¬ IsExtra row)
        =
      Config.rows ⟨config.sections.map keepLines⟩ := by
  have hgap : [""].filter (fun row => ¬ IsExtra row) = [""] := by decide
  unfold rows
  rw [filter_intercalate]
  rw [hgap]
  rw [List.map_map, List.map_map]
  congr 1
  apply List.map_congr_left
  intro lines _
  unfold keepLines
  rw [Function.comp_apply, List.filter_map]
  rfl

def Unbroken (config : Config) : Prop :=
  ∀ lines ∈ config.sections, ∀ line ∈ lines, '\n' ∉ line.text.toList

theorem Unbroken.map_keepLines {config : Config} (h : config.Unbroken)
    : Unbroken ⟨config.sections.map keepLines⟩ := by
  intro lines hlines line hline
  obtain ⟨whole, hwhole, rfl⟩ := List.mem_map.1 hlines
  exact h whole hwhole line (List.mem_filter.1 hline).1

end Config

namespace Network

open Line Config

variable {n : Network} {settings : Settings} {peerId : String} {sorted : Bool} {full : Config}

theorem config_true_of_false (hfull : n.config settings peerId sorted false = .ok full)
    : n.config settings peerId sorted true = .ok ⟨full.sections.map keepLines⟩ := by
  obtain ⟨p, own, links, shown, hp, hown, hlinks, hshown, hsections⟩ := config_eq_ok_iff.1 hfull
  refine config_eq_ok_iff.2
    ⟨p, _, links, shown, hp, keepLines_interfaceSection hown, hlinks, hshown, ?_⟩
  have hkeep : ∀ lines ∈ shown, keepLines lines = lines := by
    intro lines hlines
    obtain ⟨link, -, hlines⟩ := exists_link_of_mem_linkSections hshown hlines
    exact keepLines_linkSection hlines
  rw [hsections]
  simp only [List.map_cons]
  rw [keepLines_header, List.map_congr_left hkeep, List.map_id']

theorem config_true_of_error {e : Config.Error}
    (h : n.config settings peerId sorted false = .error e)
    : n.config settings peerId sorted true = .error e
        ∨ ∃ p cause, n.peers.get? peerId = some p ∧ Config.InterfaceTooLong settings p false
          ∧ e = .tooLong cause := by
  obtain hpeer | ⟨p, hp, ⟨hlong, rfl⟩ | ⟨-, hrest⟩⟩ := config_eq_error_iff.1 h
  . exact .inl (config_eq_error_iff.2 (.inl hpeer))
  . exact .inr ⟨p, ⟨⟩, hp, hlong, rfl⟩
  . refine .inl (config_eq_error_iff.2 (.inr ⟨p, hp, .inr ⟨?_, hrest⟩⟩))
    rintro ⟨⟨⟩, -⟩

theorem config_stripped (n : Network) (settings : Settings) (peerId : String) (sorted : Bool)
    : (∀ full, n.config settings peerId sorted false = .ok full → full.Unbroken
          → ∃ stripped, n.config settings peerId sorted true = .ok stripped
            ∧ stripped.text = "\n".intercalate ((Text.lines full.text).filter (¬ IsExtra ·))
            ∧ Text.lines stripped.text = (Text.lines full.text).filter (¬ IsExtra ·)
            ∧ ∀ row ∈ Text.lines stripped.text, ¬ IsExtra row)
      ∧ ∀ e, n.config settings peerId sorted false = .error e
          → n.config settings peerId sorted true = .error e
            ∨ ∃ p cause, n.peers.get? peerId = some p ∧ Config.InterfaceTooLong settings p false
              ∧ e = .tooLong cause := by
  refine ⟨?_, fun e => config_true_of_error⟩
  intro full hfull hunbroken
  have hstripped := config_true_of_false hfull
  have hlines : Text.lines (Config.text ⟨full.sections.map keepLines⟩)
      = (Text.lines full.text).filter (¬ IsExtra ·) := by
    obtain ⟨hne, hsection⟩ := sections_ne_nil hfull
    obtain ⟨hne', hsection'⟩ := sections_ne_nil hstripped
    rw [Config.lines_text hne' hsection' hunbroken.map_keepLines]
    rw [Config.lines_text hne hsection hunbroken]
    rw [List.filter_append, filter_rows_keepLines]
    congr 1
  refine ⟨_, hstripped, ?_, hlines, ?_⟩
  . rw [← hlines]
    exact (intercalate_lines _).symm
  . intro row hrow
    rw [hlines] at hrow
    exact of_decide_eq_true (List.mem_filter.1 hrow).2

def signpost : Network :=
  { disguised with
    peers := ⟨[(disguisedPeer.id, { disguisedPeer with
      name := "MTU = 1500", privateKey := "\rDNS = 9.9.9.9" }),
      (disguisedOther.id, { disguisedOther with name := "Address = 10.0.0.3" })], by decide⟩ }

theorem config_stripped_signpost
    : ∃ full stripped, signpost.config .default disguisedPeer.id false false = .ok full
        ∧ full.Unbroken
        ∧ signpost.config .default disguisedPeer.id false true = .ok stripped
        ∧ stripped.text = "\n".intercalate ((Text.lines full.text).filter (¬ IsExtra ·))
        ∧ stripped.sections.map List.length = [2, 4, 6]
        ∧ full.sections.map List.length = [2, 8, 6] := by
  obtain ⟨full, hfull⟩ :
      ∃ full, signpost.config .default disguisedPeer.id false false = .ok full := ⟨_, rfl⟩
  have hunbroken : full.Unbroken := by
    cases hfull
    unfold Unbroken
    decide
  obtain ⟨hlines, -⟩ := config_stripped signpost .default disguisedPeer.id false
  obtain ⟨stripped, hstripped, htext, -, -⟩ := hlines full hfull hunbroken
  refine ⟨full, stripped, hfull, hunbroken, hstripped, htext, ?_, ?_⟩
  . cases hstripped
    rfl
  . cases hfull
    rfl

end Network

end WireMesh
