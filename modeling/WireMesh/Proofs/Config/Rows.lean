import WireMesh.Config
import WireMesh.Proofs.Field.OneLine

/-!
This module contains the way back from the text of a configuration to its sections. If every line of
the sections is plain, cutting the text at its line feeds gives the lines of the sections with an
empty one between two sections, cutting those at the empty lines gives the sections, and every line
reads back as the line that was written.
-/

namespace WireMesh

open Text

def Text.lines (s : String) : List String :=
  (s.toList.splitOn '\n').map String.ofList

theorem Text.carriageReturn_notMem_intercalate {rows : List String}
    (h : ∀ row ∈ rows, '\r' ∉ row.toList) : '\r' ∉ ("\n".intercalate rows).toList := by
  induction rows with
  | nil => simp
  | cons row rest ih =>
    rw [List.forall_mem_cons] at h
    specialize ih h.2
    cases rest with
    | nil => simpa using h.1
    | cons next rest =>
      rw [String.intercalate_cons_cons]
      simp only [String.toList_append, List.mem_append, not_or]
      exact ⟨⟨h.1, by decide⟩, ih⟩

namespace Line

def ofText? (s : String) : Option Line :=
  match s.toList with
  | '#' :: ' ' :: text => some (.comment (String.ofList text))
  | '[' :: name =>
    if name.getLast? = some ']' then some (.heading (String.ofList name.dropLast)) else none
  | cs =>
    match splitFirst ' ' cs with
    | some (name, '=' :: ' ' :: value) =>
      some (.directive (String.ofList name) (String.ofList value))
    | _ => none

def Plain : Line → Prop
  | .comment text => OneLine text
  | .heading name => OneLine name
  | .directive name value => name.toList.all Char.isAlpha = true ∧ OneLine value

theorem ne_of_all_isAlpha {cs : List Char} (h : cs.all Char.isAlpha = true) {c : Char}
    (hc : c.isAlpha = false) : c ∉ cs := by
  intro hmem
  have := List.all_eq_true.1 h c hmem
  rw [hc] at this
  cases this

namespace Plain

theorem oneLine_text {line : Line} (h : line.Plain) : OneLine line.text := by
  cases line with
  | comment text =>
    simp only [Line.text, oneLine_append_iff]
    exact ⟨by decide, h⟩
  | heading name =>
    simp only [Line.text, oneLine_append_iff]
    exact ⟨⟨by decide, h⟩, by decide⟩
  | directive name value =>
    simp only [Line.text, oneLine_append_iff]
    have hname : OneLine name :=
      ⟨ne_of_all_isAlpha h.1 (by decide), ne_of_all_isAlpha h.1 (by decide)⟩
    exact ⟨⟨hname, by decide⟩, h.2⟩

theorem ofText?_text {line : Line} (h : line.Plain) : ofText? line.text = some line := by
  cases line with
  | comment text =>
    unfold ofText?
    simp [Line.text]
  | heading name =>
    unfold ofText?
    simp [Line.text]
  | directive name value =>
    -- A name of letters begins neither a comment nor a heading, and ends at the first blank.
    have hsharp := ne_of_all_isAlpha h.1 (c := '#') (by decide)
    have hbracket := ne_of_all_isAlpha h.1 (c := '[') (by decide)
    have hsplit : splitFirst ' ' (name.toList ++ ' ' :: '=' :: ' ' :: value.toList)
        = some (name.toList, '=' :: ' ' :: value.toList) := by
      rw [splitFirst_eq_some_iff]
      exact ⟨rfl, ne_of_all_isAlpha h.1 (by decide)⟩
    have htext : (Line.directive name value).text.toList
        = name.toList ++ ' ' :: '=' :: ' ' :: value.toList := by
      simp [Line.text]
    unfold ofText?
    rw [htext]
    split
    . next hcs =>
      cases hn : name.toList <;> simp_all
    . next hcs =>
      cases hn : name.toList <;> simp_all
    . rw [hsplit]
      simp

end Plain

theorem text_ne_empty (line : Line) : line.text ≠ "" := by
  intro h
  have h := congrArg String.toList h
  cases line <;> simp [Line.text] at h

theorem Plain.text_inj {line other : Line} (hline : line.Plain) (hother : other.Plain)
    : line.text = other.text ↔ line = other := by
  constructor
  . intro h
    have := hline.ofText?_text
    rw [h, hother.ofText?_text] at this
    exact (Option.some.inj this).symm
  . exact congrArg Line.text

theorem Plain.count_map_text {line : Line} (hline : line.Plain) {lines : List Line}
    (h : ∀ other ∈ lines, other.Plain) : (lines.map Line.text).count line.text = lines.count line
    := by
  induction lines with
  | nil => rfl
  | cons other lines ih =>
    rw [List.forall_mem_cons] at h
    rw [List.map_cons]
    rw [List.count_cons, List.count_cons]
    rw [ih h.2]
    simp only [beq_iff_eq, h.1.text_inj hline]

end Line

namespace Config

def rows (config : Config) : List String :=
  [""].intercalate (config.sections.map fun lines => lines.map Line.text)

structure Plain (config : Config) : Prop where
  sections_ne_nil : config.sections ≠ []
  section_ne_nil : ∀ lines ∈ config.sections, lines ≠ []
  plain : ∀ lines ∈ config.sections, ∀ line ∈ lines, line.Plain

theorem intercalate_ne_nil {parts : List (List String)} (h : parts ≠ [])
    (hparts : ∀ part ∈ parts, part ≠ []) : [""].intercalate parts ≠ [] := by
  cases parts with
  | nil => exact absurd rfl h
  | cons part rest =>
    have hpart := hparts part List.mem_cons_self
    cases rest <;> simp [hpart]

theorem intercalate_sections {parts : List (List String)} (hparts : ∀ part ∈ parts, part ≠ [])
    : "\n\n".intercalate (parts.map "\n".intercalate)
        =
      "\n".intercalate ([""].intercalate parts) := by
  induction parts with
  | nil => rfl
  | cons part rest ih =>
    rw [List.forall_mem_cons] at hparts
    specialize ih hparts.2
    cases rest with
    | nil => simp
    | cons next rest =>
      have hrest := intercalate_ne_nil (List.cons_ne_nil next rest) hparts.2
      rw [List.map_cons]
      rw [String.intercalate_cons_of_ne_nil (by simp)]
      rw [ih]
      rw [List.intercalate_cons_cons]
      rw [List.append_assoc]
      rw [String.intercalate_append_of_ne_nil hparts.1 (by simp)]
      rw [List.singleton_append]
      rw [String.intercalate_cons_of_ne_nil hrest]
      have hgap : "\n\n" = "\n" ++ "\n" := rfl
      simp only [hgap, String.empty_append, String.append_assoc]

theorem filter_intercalate (p : String → Bool) (gap : List String) (parts : List (List String))
    : (gap.intercalate parts).filter p = (gap.filter p).intercalate (parts.map (List.filter p)) := by
  induction parts with
  | nil => rfl
  | cons part rest ih =>
    cases rest with
    | nil => simp
    | cons next rest =>
      rw [List.intercalate_cons_cons]
      rw [List.filter_append, List.filter_append]
      rw [ih]
      exact List.intercalate_cons_cons.symm

theorem intercalate_nil_eq_flatten (parts : List (List String))
    : [].intercalate parts = parts.flatten := by
  induction parts with
  | nil => rfl
  | cons part rest ih =>
    cases rest with
    | nil => simp
    | cons next rest =>
      rw [List.intercalate_cons_cons]
      rw [ih]
      rw [List.append_nil]
      rfl

section Lines

variable {config : Config}

theorem map_text_ne_nil (h : ∀ lines ∈ config.sections, lines ≠ [])
    : ∀ part ∈ config.sections.map (List.map Line.text), part ≠ [] := by
  intro part hpart
  obtain ⟨lines, hlines, rfl⟩ := List.mem_map.1 hpart
  simpa using h lines hlines

theorem empty_notMem (config : Config)
    : ∀ part ∈ config.sections.map (List.map Line.text), "" ∉ part := by
  intro part hpart
  obtain ⟨lines, hlines, rfl⟩ := List.mem_map.1 hpart
  rw [List.mem_map]
  rintro ⟨line, hline, htext⟩
  exact line.text_ne_empty htext

theorem filter_rows (config : Config)
    : config.rows.filter (· != "") = config.sections.flatten.map Line.text := by
  have hparts : (config.sections.map (List.map Line.text)).map (List.filter (· != ""))
      = config.sections.map (List.map Line.text) := by
    rw [List.map_congr_left (g := id), List.map_id]
    intro part hpart
    rw [id_eq, List.filter_eq_self]
    intro row hrow
    rw [bne_iff_ne]
    exact fun h => empty_notMem config part hpart (h ▸ hrow)
  unfold rows
  rw [filter_intercalate]
  rw [hparts]
  rw [List.map_flatten]
  exact intercalate_nil_eq_flatten _

theorem eq_text_of_mem_rows {row : String} (hrow : row ∈ config.rows)
    : row = "" ∨ ∃ lines ∈ config.sections, ∃ line ∈ lines, row = line.text := by
  by_cases hempty : row = ""
  . exact .inl hempty
  . have hmem : row ∈ config.rows.filter (· != "") := by
      rw [List.mem_filter, bne_iff_ne]
      exact ⟨hrow, hempty⟩
    rw [filter_rows] at hmem
    obtain ⟨line, hline, rfl⟩ := List.mem_map.1 hmem
    obtain ⟨lines, hlines, hline⟩ := List.mem_flatten.1 hline
    exact .inr ⟨lines, hlines, line, hline, rfl⟩

theorem text_eq (hne : config.sections ≠ []) (h : ∀ lines ∈ config.sections, lines ≠ [])
    : config.text = "\n".intercalate (config.rows ++ [""]) := by
  have hrows : config.rows ≠ [] :=
    intercalate_ne_nil (by simpa using hne) (map_text_ne_nil h)
  rw [String.intercalate_append_of_ne_nil hrows (by simp)]
  unfold text rows
  rw [← intercalate_sections (map_text_ne_nil h)]
  rw [List.map_map]
  simp only [String.intercalate_singleton, String.append_empty]
  rfl

theorem exists_text_around {above : List (List Line)} (h : above ≠ []) (below : List (List Line))
    : ∃ head tail, (∀ lines, text ⟨above ++ lines :: below⟩
          = head ++ "\n\n" ++ sectionText lines ++ "\n" ++ tail)
        ∧ text ⟨above ++ below⟩ = head ++ "\n" ++ tail := by
  have habove : above.map sectionText ≠ [] := by simpa using h
  unfold text
  cases below with
  | nil =>
    refine ⟨"\n\n".intercalate (above.map sectionText), "", ?_, by simp⟩
    intro lines
    rw [List.map_append, String.intercalate_append_of_ne_nil habove (by simp)]
    simp [String.append_assoc]
  | cons next rest =>
    refine ⟨"\n\n".intercalate (above.map sectionText),
      "\n" ++ "\n\n".intercalate ((next :: rest).map sectionText) ++ "\n", ?_, ?_⟩
    . intro lines
      rw [List.map_append, String.intercalate_append_of_ne_nil habove (by simp)]
      rw [List.map_cons, String.intercalate_cons_of_ne_nil (by simp)]
      simp only [String.append_assoc]
      rfl
    . rw [List.map_append, String.intercalate_append_of_ne_nil habove (by simp)]
      simp only [String.append_assoc]
      rfl

theorem exists_text_line {first : List Line} {rest : List (List Line)} (hfirst : first ≠ [])
    (hrest : ∀ lines ∈ rest, lines ≠ []) {line : Line} (hline : line ∈ rest.flatten)
    : ∃ head tail, text ⟨first :: rest⟩ = head ++ "\n" ++ line.text ++ "\n" ++ tail := by
  have hmem : line.text ∈ rows ⟨rest⟩ := by
    have hfilter : line.text ∈ (rows ⟨rest⟩).filter (· != "") := by
      rw [filter_rows]
      exact List.mem_map_of_mem hline
    exact (List.mem_filter.1 hfilter).1
  obtain ⟨before, after, hsplit⟩ := List.append_of_mem hmem
  have hrows : rows ⟨first :: rest⟩ = first.map Line.text ++ [""] ++ rows ⟨rest⟩ := by
    cases rest with
    | nil => cases hline
    | cons lines rest =>
      unfold rows
      rw [List.map_cons, List.map_cons, List.intercalate_cons_cons]
  have htext : text ⟨first :: rest⟩ = "\n".intercalate
      ((first.map Line.text ++ [""] ++ before) ++ line.text :: (after ++ [""])) := by
    rw [text_eq (List.cons_ne_nil first rest) (List.forall_mem_cons.2 ⟨hfirst, hrest⟩)]
    rw [hrows, hsplit]
    simp only [List.append_assoc, List.cons_append]
  rw [String.intercalate_append_of_ne_nil (by simp) (by simp)] at htext
  rw [String.intercalate_cons_of_ne_nil (by simp)] at htext
  exact ⟨_, _, by simpa only [String.append_assoc] using htext⟩

theorem lines_text (hne : config.sections ≠ []) (h : ∀ lines ∈ config.sections, lines ≠ [])
    (hlines : ∀ lines ∈ config.sections, ∀ line ∈ lines, '\n' ∉ line.text.toList)
    : Text.lines config.text = config.rows ++ [""] := by
  unfold Text.lines
  rw [text_eq hne h]
  rw [String.toList_intercalate]
  change ((['\n'].intercalate _).splitOn '\n').map _ = _
  rw [List.splitOn_intercalate]
  . simp
  . intro cs hcs
    obtain ⟨row, hrow, rfl⟩ := List.mem_map.1 hcs
    rw [List.mem_append, List.mem_singleton] at hrow
    rcases hrow with hrow | rfl
    . obtain rfl | ⟨lines, hmem, line, hline, rfl⟩ := eq_text_of_mem_rows hrow
      . simp
      . exact hlines lines hmem line hline
    . simp
  . simp

end Lines

namespace Plain

variable {config : Config}

theorem oneLine_of_mem_rows (h : config.Plain) {row : String} (hrow : row ∈ config.rows)
    : OneLine row := by
  obtain rfl | ⟨lines, hlines, line, hline, rfl⟩ := eq_text_of_mem_rows hrow
  . decide
  . exact (h.plain lines hlines line hline).oneLine_text

theorem count_rows (h : config.Plain) {line : Line} (hline : line.Plain)
    : config.rows.count line.text = config.sections.flatten.count line := by
  have hne : (line.text != "") = true := by
    rw [bne_iff_ne]
    exact line.text_ne_empty
  rw [← List.count_filter (p := (· != "")) hne]
  rw [filter_rows]
  apply hline.count_map_text
  intro other hother
  obtain ⟨lines, hlines, hother⟩ := List.mem_flatten.1 hother
  exact h.plain lines hlines other hother

theorem lines_text (h : config.Plain) : Text.lines config.text = config.rows ++ [""] :=
  Config.lines_text h.sections_ne_nil h.section_ne_nil fun lines hlines line hline =>
    (h.plain lines hlines line hline).oneLine_text.2

theorem carriageReturn_notMem_text (h : config.Plain) : '\r' ∉ config.text.toList := by
  rw [text_eq h.sections_ne_nil h.section_ne_nil]
  apply carriageReturn_notMem_intercalate
  intro row hrow
  rw [List.mem_append, List.mem_singleton] at hrow
  rcases hrow with hrow | rfl
  . exact (h.oneLine_of_mem_rows hrow).1
  . simp

theorem splitOn_rows (h : config.Plain)
    : config.rows.splitOn "" = config.sections.map (List.map Line.text) := by
  unfold rows
  rw [List.splitOn_intercalate]
  . exact empty_notMem config
  . simpa using h.sections_ne_nil

end Plain

end Config

end WireMesh
