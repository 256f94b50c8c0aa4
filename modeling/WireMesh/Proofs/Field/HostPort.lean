import WireMesh.Proofs.Address.DottedQuad
import WireMesh.Proofs.Commit.Validity
import WireMesh.Proofs.Text.Joined

/-!
This module contains the endpoints of peers as a grammar: a host, a colon and a port, where the host
is an address or a host name of dotted labels. The check of an endpoint holds for exactly these
texts, as long as it can read the port, and a peer that is dialled at one of them listens on that
port.
-/

namespace WireMesh

open Text

namespace HostName

def IsLabelChar (c : Char) : Prop :=
  ('a' ≤ c ∧ c ≤ 'z') ∨ ('A' ≤ c ∧ c ≤ 'Z') ∨ c.isDigit = true ∨ c = '-'

structure Label (cs : List Char) : Prop where
  length_pos : 1 ≤ cs.length
  length_le : cs.length ≤ 63
  chars : ∀ c ∈ cs, IsLabelChar c
  head : cs.head? ≠ some '-'
  last : cs.getLast? ≠ some '-'

/--
Whether a text is one or more labels with dots between them, the last of which is no numeral. Any
number of dots may follow.
-/
structure Dotted (cs : List Char) : Prop where
  length_pos : 1 ≤ cs.length
  length_le : cs.length ≤ 253
  labels : ∃ front last dots, (∀ label ∈ front ++ [last], Label label)
    ∧ (∃ c ∈ last, c.isDigit = false)
    ∧ cs = ['.'].intercalate (front ++ [last]) ++ List.replicate dots '.'

variable {c : Char} {cs : List Char}

theorem isLabelChar_iff : (c.isAlphanum || c == '-') = true ↔ IsLabelChar c := by
  unfold IsLabelChar Char.isAlphanum Char.isAlpha Char.isUpper Char.isLower
  simp only [Bool.or_eq_true, Bool.and_eq_true, decide_eq_true_eq, beq_iff_eq, Char.le_def,
    ge_iff_le]
  grind

theorem isLabel_iff : isLabel cs = true ↔ Label cs := by
  unfold isLabel
  simp only [Bool.and_eq_true, Bool.not_eq_true', List.isEmpty_eq_false_iff, decide_eq_true_eq,
    List.all_eq_true, isLabelChar_iff, bne_iff_ne]
  constructor
  . rintro ⟨⟨⟨⟨hne, hlength⟩, hchars⟩, hhead⟩, hlast⟩
    exact ⟨List.length_pos_iff.2 hne, hlength, hchars, hhead, hlast⟩
  . intro h
    exact ⟨⟨⟨⟨List.length_pos_iff.1 h.length_pos, h.length_le⟩, h.chars⟩, h.head⟩, h.last⟩

theorem Label.dot_notMem (h : Label cs) : '.' ∉ cs := by
  intro hdot
  have hchar := isLabelChar_iff.2 (h.chars '.' hdot)
  revert hchar
  decide

theorem isNumeral_eq_false_iff (h : Label cs)
    : Decimal.isNumeral cs = false ↔ ∃ c ∈ cs, c.isDigit = false := by
  have hne := List.length_pos_iff.1 h.length_pos
  rw [← Bool.not_eq_true, Decimal.isNumeral_iff]
  simp [hne]

theorem trimRight_labels {front : List (List Char)} {last : List Char} (h : Label last)
    (dots : Nat)
    : trimRight '.' (['.'].intercalate (front ++ [last]) ++ List.replicate dots '.')
        =
      ['.'].intercalate (front ++ [last]) := by
  -- The dots at the end do not belong to a label, so nothing else is left out with them.
  apply trimRight_append_replicate
  obtain ⟨before, hbefore⟩ := exists_intercalate_concat '.' front last
  rw [hbefore]
  intro hlast
  rw [List.getLast?_append, Option.or_eq_some_iff] at hlast
  obtain hlast | ⟨hnone, -⟩ := hlast
  . exact h.dot_notMem (List.mem_of_getLast? hlast)
  . exact List.length_pos_iff.1 h.length_pos (List.getLast?_eq_none_iff.1 hnone)

theorem labels_eq_iff {front : List (List Char)} {last : List Char}
    (h : ∀ label ∈ front ++ [last], Label label)
    : labels cs = front ++ [last]
        ↔
      ∃ dots, cs = ['.'].intercalate (front ++ [last]) ++ List.replicate dots '.' := by
  unfold labels
  rw [splitOn_eq_iff fun label hlabel => (h label hlabel).dot_notMem]
  constructor
  . rintro ⟨-, htrim⟩
    obtain ⟨dots, hdots⟩ := exists_trimRight_append_replicate '.' cs
    rw [htrim] at hdots
    exact ⟨dots, hdots⟩
  . rintro ⟨dots, rfl⟩
    refine ⟨by simp, trimRight_labels (h last (by simp)) dots⟩

theorem isName_iff_dotted : isName cs = true ↔ Dotted cs := by
  unfold isName
  simp only [Bool.and_eq_true, Bool.not_eq_true', List.isEmpty_eq_false_iff, decide_eq_true_eq,
    List.all_eq_true, isLabel_iff]
  constructor
  . rintro ⟨⟨⟨hne, hlength⟩, hlabels⟩, hlast⟩
    have hsome : labels cs ≠ [] := List.splitOn_ne_nil _ _
    obtain ⟨front, last, hconcat⟩ := (labels cs).eq_nil_or_concat.resolve_left hsome
    rw [List.concat_eq_append] at hconcat
    rw [hconcat] at hlabels hlast
    rw [List.getLast?_concat, Option.any_some] at hlast
    obtain ⟨dots, hcs⟩ := (labels_eq_iff hlabels).1 hconcat
    refine ⟨List.length_pos_iff.2 hne, hlength, front, last, dots, hlabels, ?_, hcs⟩
    exact (isNumeral_eq_false_iff (hlabels last (by simp))).1 hlast
  . rintro ⟨hpos, hlength, front, last, dots, hlabels, hlast, hcs⟩
    rw [(labels_eq_iff hlabels).2 ⟨dots, hcs⟩]
    rw [List.getLast?_concat, Option.any_some]
    refine ⟨⟨⟨List.length_pos_iff.1 hpos, hlength⟩, hlabels⟩, ?_⟩
    exact (isNumeral_eq_false_iff (hlabels last (by simp))).2 hlast

end HostName

namespace Endpoint

structure HostPort (s host port : String) : Prop where
  text : s = host ++ ":" ++ port
  host : (∃ v, Address.DottedQuad host.toList v) ∨ HostName.Dotted host.toList
  port_ne_empty : port ≠ ""
  digits : ∀ c ∈ port.toList, c.isDigit = true
  value_le : Decimal.value port.toList ≤ 65535

def PortReadable (s : String) : Prop :=
  ∀ before after, s.toList = before ++ ':' :: after → ':' ∉ after
    → after.countP Char.isDigit ≤ Decimal.digitLimit

variable {s host port : String}

theorem HostPort.splitLast_eq (h : HostPort s host port)
    : splitLast ':' s.toList = some (host.toList, port.toList) := by
  rw [splitLast_eq_some_iff]
  constructor
  . rw [h.text]
    simp
  . intro hcolon
    have hdigit := h.digits ':' hcolon
    revert hdigit
    decide

theorem HostPort.isNumeral (h : HostPort s host port)
    : Decimal.isNumeral port.toList = true := by
  rw [Decimal.isNumeral_iff]
  exact ⟨by simpa using h.port_ne_empty, h.digits⟩

theorem HostPort.isText_eq (h : HostPort s host port)
    (hlimit : port.toList.length ≤ Decimal.digitLimit) : isText s.toList = .ok true := by
  unfold isText
  rw [h.splitLast_eq]
  dsimp only
  rw [if_pos h.isNumeral]
  rw [Decimal.read_eq_ok_iff.2 ⟨hlimit, rfl⟩]
  have hhost := h.host
  rw [← Address.isSome_ofChars?_iff, ← HostName.isName_iff_dotted] at hhost
  have hle : Decimal.value port.toList ≤ maxPort := h.value_le
  simpa [hle] using hhost

theorem exists_hostPort_of_isText (h : isText s.toList = .ok true)
    : ∃ host port, HostPort s host port := by
  unfold isText at h
  split at h
  . cases h
  . next host port hsplit =>
    split at h
    . next hnumeral =>
      split at h
      . cases h
      . next n hread =>
        have h := Except.ok.inj h
        rw [Bool.and_eq_true, Bool.or_eq_true, decide_eq_true_eq] at h
        rw [Address.isSome_ofChars?_iff, HostName.isName_iff_dotted] at h
        obtain ⟨-, rfl⟩ := Decimal.read_eq_ok_iff.1 hread
        obtain ⟨hs, -⟩ := splitLast_eq_some_iff.1 hsplit
        obtain ⟨hne, hdigits⟩ := Decimal.isNumeral_iff.1 hnumeral
        refine ⟨String.ofList host, String.ofList port, ?_, ?_, ?_, ?_, ?_⟩
        . rw [String.ext_iff, hs]
          simp
        . simpa using h.2
        . simpa using hne
        . simpa using hdigits
        . rw [String.toList_ofList]
          exact h.1
    . cases h

theorem exists_isText_eq (h : PortReadable s) : ∃ holds, isText s.toList = .ok holds := by
  cases htext : isText s.toList with
  | ok holds => exact ⟨holds, rfl⟩
  | error e =>
    obtain ⟨before, after, hsplit, hnumeral, hlength, -⟩ := isText_eq_error_iff.1 htext
    obtain ⟨hs, hcolon⟩ := splitLast_eq_some_iff.1 hsplit
    have hcount := h before after hs hcolon
    have hdigits := List.countP_eq_length.2 (Decimal.isNumeral_iff.1 hnumeral).2
    omega

theorem HostPort.length_le (h : HostPort s host port) (hreadable : PortReadable s)
    : port.toList.length ≤ Decimal.digitLimit := by
  obtain ⟨hs, hcolon⟩ := splitLast_eq_some_iff.1 h.splitLast_eq
  have hcount := hreadable _ _ hs hcolon
  rw [List.countP_eq_length.2 h.digits] at hcount
  exact hcount

theorem portReadable_of_length (h : s.toList.length ≤ Decimal.digitLimit) : PortReadable s := by
  intro before after hs _
  rw [hs, List.length_append, List.length_cons] at h
  have hcount := @List.countP_le_length _ Char.isDigit after
  omega

theorem isText_iff_hostPort (s : String)
    : (PortReadable s
        → ∃ holds, isText s.toList = .ok holds
            ∧ (holds = true ↔ ∃ host port, HostPort s host port))
      ∧ ∀ p : Peer, p.isStatic = true → p.endpoint = s
          → ∀ host port, HostPort s host port → p.listenPort? = some port := by
  constructor
  . intro hreadable
    obtain ⟨holds, htext⟩ := exists_isText_eq hreadable
    refine ⟨holds, htext, ?_⟩
    constructor
    . rintro rfl
      exact exists_hostPort_of_isText htext
    . rintro ⟨host, port, h⟩
      rw [h.isText_eq (h.length_le hreadable)] at htext
      exact (Except.ok.inj htext).symm
  . rintro p hstatic rfl host port h
    unfold Peer.listenPort? port?
    rw [if_pos hstatic]
    rw [h.splitLast_eq]
    simp

theorem isText_iff_hostPort_vpn
    : HostPort "vpn.example.com.:051820" "vpn.example.com." "051820"
        ∧ isText "vpn.example.com.:051820".toList = .ok true
        ∧ { Network.roamer "vpn.example.com.:051820" with mobility := .static }.listenPort?
            = some "051820"
        ∧ isText "10.0.0.256:51820".toList = .ok false
        ∧ ¬ ∃ host port, HostPort "10.0.0.256:51820" host port := by
  have hvpn : HostPort "vpn.example.com.:051820" "vpn.example.com." "051820" :=
    ⟨rfl, .inr (HostName.isName_iff_dotted.1 (by decide)), by decide,
      List.all_eq_true.1 (by decide), by decide⟩
  obtain ⟨htext, hport⟩ := isText_iff_hostPort "vpn.example.com.:051820"
  obtain ⟨holds, hholds, hiff⟩ := htext (portReadable_of_length (by decide))
  obtain ⟨other, hother, hnot⟩ :=
    (isText_iff_hostPort "10.0.0.256:51820").1 (portReadable_of_length (by decide))
  have hfalse : isText "10.0.0.256:51820".toList = .ok false := rfl
  rw [hiff.2 ⟨_, _, hvpn⟩] at hholds
  refine ⟨hvpn, hholds, hport _ rfl rfl _ _ hvpn, hfalse, ?_⟩
  intro hsome
  rw [hnot.2 hsome] at hother
  rw [hother] at hfalse
  cases hfalse

end Endpoint

end WireMesh
