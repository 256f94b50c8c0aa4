import WireMesh.Config.FileName

/-!
This module contains what the name of a configuration file looks like. Its stem is short and made of
allowed characters, with no two hyphens in a row and, unless it was cut, none at the end. A name
that looks like this already is its own stem. Names that differ only inside runs of hyphens and
characters that are not allowed have the same stem.
-/

namespace WireMesh

namespace FileName

def Allowed (c : Char) : Prop :=
  ('a' ≤ c ∧ c ≤ 'z') ∨ ('A' ≤ c ∧ c ≤ 'Z') ∨ ('0' ≤ c ∧ c ≤ '9') ∨ c ∈ ['_', '=', '+', '.', '-']

structure Tidy (cs : List Char) : Prop where
  allowed : ∀ c ∈ cs, Allowed c
  single : ¬ ['-', '-'] <:+: cs

def IsGap (c : Char) : Prop :=
  c = '-' ∨ ¬ Allowed c

/--
Whether two names are the same up to the characters in runs of gaps and the lengths of these runs.
-/
inductive SameButGaps : List Char → List Char → Prop where
  | nil : SameButGaps [] []
  | same (c : Char) {cs ds : List Char} (h : SameButGaps cs ds) : SameButGaps (c :: cs) (c :: ds)
  | gaps {run other cs ds : List Char} (hrun : run ≠ []) (hother : other ≠ [])
    (hgaps : ∀ c ∈ run ++ other, IsGap c) (h : SameButGaps cs ds)
    : SameButGaps (run ++ cs) (other ++ ds)

structure Reduces (name whole : List Char) : Prop where
  tidy : Tidy whole
  last : whole.getLast? ≠ some '-'
  same : SameButGaps name whole ∨ SameButGaps name (whole ++ ['-'])

def hyphenated (c : Char) : Char :=
  if isSafe c then c else '-'

theorem isSafe_iff_allowed {c : Char} : isSafe c = true ↔ Allowed c := by
  unfold isSafe Allowed Char.isAlphanum Char.isAlpha Char.isUpper Char.isLower Char.isDigit
  simp only [Bool.or_eq_true, Bool.and_eq_true, decide_eq_true_eq, beq_iff_eq, Char.le_def,
    ge_iff_le, List.mem_cons, List.not_mem_nil, or_false]
  grind

section Collapse

variable {cs ds run : List Char}

theorem head?_collapse (cs : List Char) : (collapse cs).head? = cs.head? := by
  cases cs with
  | nil => rfl
  | cons c rest =>
    rw [collapse]
    split
    . next h =>
      simp only [Bool.and_eq_true, decide_eq_true_eq, beq_iff_eq] at h
      rw [h.1, h.2]
      rfl
    . rfl

theorem collapse_sublist (cs : List Char) : (collapse cs).Sublist cs := by
  induction cs with
  | nil => exact .slnil
  | cons c rest ih =>
    rw [collapse]
    split
    . exact ih.cons c
    . exact ih.cons_cons c

theorem single_collapse (cs : List Char) : ¬ ['-', '-'] <:+: collapse cs := by
  induction cs with
  | nil => simp [collapse]
  | cons c rest ih =>
    rw [collapse]
    split
    . exact ih
    . next h =>
      rw [List.infix_cons_iff, not_or]
      refine ⟨?_, ih⟩
      intro hstart
      rw [List.cons_prefix_cons] at hstart
      obtain ⟨hc, tail, htail⟩ := hstart
      apply h
      rw [← htail, ← hc]
      rfl

theorem collapse_of_single (h : ¬ ['-', '-'] <:+: cs) : collapse cs = cs := by
  induction cs with
  | nil => rfl
  | cons c rest ih =>
    rw [List.infix_cons_iff, not_or] at h
    rw [collapse]
    rw [ih h.2]
    rw [if_neg]
    intro hdouble
    simp only [Bool.and_eq_true, decide_eq_true_eq, beq_iff_eq] at hdouble
    obtain ⟨hc, hhead⟩ := hdouble
    obtain ⟨tail, rfl⟩ := List.head?_eq_some_iff.1 hhead
    apply h.1
    rw [hc]
    exact ⟨tail, rfl⟩

theorem collapse_cons_congr (c : Char) (h : collapse cs = collapse ds)
    : collapse (c :: cs) = collapse (c :: ds) := by
  rw [collapse, collapse, h]

theorem collapse_run_append (hne : run ≠ []) (hrun : ∀ c ∈ run, c = '-') (cs : List Char)
    : collapse (run ++ cs) = collapse ('-' :: cs) := by
  induction run with
  | nil => exact absurd rfl hne
  | cons c rest ih =>
    rw [List.forall_mem_cons] at hrun
    obtain ⟨rfl, hrest⟩ := hrun
    cases rest with
    | nil => rfl
    | cons d rest =>
      rw [List.cons_append]
      rw [collapse_cons_congr '-' (ih (List.cons_ne_nil d rest) hrest)]
      rw [collapse]
      rw [head?_collapse]
      rfl

end Collapse

section Sanitize

variable {cs ds : List Char}

theorem dropLastHyphen_isPrefix (cs : List Char) : dropLastHyphen cs <+: cs := by
  unfold dropLastHyphen
  split
  . exact List.dropLast_prefix cs
  . exact List.prefix_refl cs

theorem getLast?_dropLastHyphen (h : ¬ ['-', '-'] <:+: cs)
    : (dropLastHyphen cs).getLast? ≠ some '-' := by
  unfold dropLastHyphen
  split
  . next hlast =>
    obtain ⟨init, rfl⟩ := List.getLast?_eq_some_iff.1 hlast
    rw [List.dropLast_concat]
    intro hagain
    obtain ⟨before, rfl⟩ := List.getLast?_eq_some_iff.1 hagain
    exact h ⟨before, [], by simp⟩
  . next hlast => exact hlast

theorem Tidy.of_isPrefix (h : Tidy cs) (hstart : ds <+: cs) : Tidy ds where
  allowed := fun c hc => h.allowed c (hstart.mem hc)
  single := fun hdouble => h.single (hdouble.trans hstart.isInfix)

theorem allowed_hyphenated (c : Char) : Allowed (hyphenated c) := by
  rw [← isSafe_iff_allowed]
  unfold hyphenated
  split
  . assumption
  . rfl

theorem hyphenated_of_allowed {c : Char} (h : Allowed c) : hyphenated c = c :=
  if_pos (isSafe_iff_allowed.2 h)

theorem hyphenated_eq_hyphen_iff {c : Char} : hyphenated c = '-' ↔ IsGap c := by
  unfold hyphenated IsGap
  rw [← isSafe_iff_allowed]
  split
  . next hsafe => simp [hsafe]
  . next hsafe => simp [hsafe]

theorem tidy_collapse_map (cs : List Char) : Tidy (collapse (cs.map hyphenated)) where
  allowed := by
    intro c hc
    obtain ⟨d, -, rfl⟩ := List.mem_map.1 ((collapse_sublist _).mem hc)
    exact allowed_hyphenated d
  single := single_collapse _

theorem tidy_sanitize (cs : List Char) : Tidy (sanitize cs) :=
  (tidy_collapse_map cs).of_isPrefix (dropLastHyphen_isPrefix _)

theorem getLast?_sanitize (cs : List Char) : (sanitize cs).getLast? ≠ some '-' :=
  getLast?_dropLastHyphen (single_collapse _)

theorem sanitize_of_tidy (h : Tidy cs) (hlast : cs.getLast? ≠ some '-') : sanitize cs = cs := by
  have hmap : cs.map hyphenated = cs := by
    rw [List.map_congr_left fun c hc => hyphenated_of_allowed (h.allowed c hc)]
    exact List.map_id' cs
  change dropLastHyphen (collapse (cs.map hyphenated)) = cs
  rw [hmap]
  rw [collapse_of_single h.single]
  exact if_neg hlast

theorem SameButGaps.collapse_map (h : SameButGaps cs ds)
    : collapse (cs.map hyphenated) = collapse (ds.map hyphenated) := by
  induction h with
  | nil => rfl
  | same c h ih => exact collapse_cons_congr _ ih
  | @gaps run other cs ds hrun hother hgaps h ih =>
    rw [List.forall_mem_append] at hgaps
    have hhyphens : ∀ part : List Char, (∀ c ∈ part, IsGap c)
        → ∀ d ∈ part.map hyphenated, d = '-' := by
      intro part hpart d hd
      obtain ⟨c, hc, rfl⟩ := List.mem_map.1 hd
      exact hyphenated_eq_hyphen_iff.2 (hpart c hc)
    rw [List.map_append, List.map_append]
    rw [collapse_run_append (by simpa using hrun) (hhyphens run hgaps.1)]
    rw [collapse_run_append (by simpa using hother) (hhyphens other hgaps.2)]
    exact collapse_cons_congr '-' ih

theorem SameButGaps.refl (cs : List Char) : SameButGaps cs cs := by
  induction cs with
  | nil => exact .nil
  | cons c rest ih => exact .same c ih

theorem SameButGaps.cons_gap {c d : Char} (hc : IsGap c) (hd : IsGap d)
    (h : SameButGaps (d :: cs) ds) : SameButGaps (c :: d :: cs) ds := by
  generalize hwhole : d :: cs = whole at h
  cases h with
  | nil => cases hwhole
  | same e h =>
    cases hwhole
    exact .gaps (List.cons_ne_nil c [d]) (List.cons_ne_nil d []) (by simp [hc, hd]) h
  | @gaps run other cs' ds' hrun hother hgaps h =>
    exact .gaps (List.cons_ne_nil c run) hother (List.forall_mem_cons.2 ⟨hc, hgaps⟩) h

theorem sameButGaps_collapse_map (cs : List Char)
    : SameButGaps cs (collapse (cs.map hyphenated)) := by
  induction cs with
  | nil => exact .nil
  | cons c rest ih =>
    rw [List.map_cons]
    by_cases hgap : IsGap c
    . rw [hyphenated_eq_hyphen_iff.2 hgap, collapse]
      split
      . next h =>
        -- The next character is a gap too, so this one only makes the run longer.
        rw [head?_collapse, List.head?_map] at h
        cases rest with
        | nil => cases h
        | cons d rest => exact ih.cons_gap hgap (hyphenated_eq_hyphen_iff.1 (by simpa using h))
      . refine @SameButGaps.gaps [c] ['-'] _ _ (by simp) (by simp) ?_ ih
        simpa [IsGap] using hgap
    . have hkept : hyphenated c = c := by
        rw [IsGap, not_or, Classical.not_not] at hgap
        exact hyphenated_of_allowed hgap.2
      rw [hkept, collapse, if_neg]
      . exact .same c ih
      . simp only [Bool.and_eq_true, decide_eq_true_eq, not_and]
        exact fun hc => absurd (.inl hc) hgap

theorem reduces_sanitize (cs : List Char) : Reduces cs (sanitize cs) where
  tidy := tidy_sanitize cs
  last := getLast?_sanitize cs
  same := by
    have h := sameButGaps_collapse_map cs
    change SameButGaps cs (dropLastHyphen _) ∨ SameButGaps cs (dropLastHyphen _ ++ ['-'])
    unfold dropLastHyphen
    split
    . next hlast =>
      obtain ⟨init, hinit⟩ := List.getLast?_eq_some_iff.1 hlast
      right
      rw [hinit, List.dropLast_concat, ← hinit]
      exact h
    . exact .inl h

theorem SameButGaps.stem_eq {name other : String} (h : SameButGaps name.toList other.toList)
    : stem name = stem other := by
  have hsanitize : sanitize name.toList = sanitize other.toList :=
    congrArg dropLastHyphen h.collapse_map
  unfold stem
  rw [hsanitize]

end Sanitize

structure IsStem (name stem : String) : Prop where
  reduces : Reduces name.toList (sanitize name.toList)
  eq_take : stem.toList = (sanitize name.toList).take 32
  length_le : stem.length ≤ 32
  tidy : Tidy stem.toList
  cut : stem.toList.getLast? = some '-' → 32 < (sanitize name.toList).length
  unchanged : name.length ≤ 32 → Tidy name.toList → name.toList.getLast? ≠ some '-' → stem = name

theorem isStem_stem (name : String) : IsStem name (stem name) where
  reduces := reduces_sanitize name.toList
  eq_take := String.toList_ofList
  length_le := by
    unfold stem
    rw [String.length_ofList]
    exact List.length_take_le ..
  tidy := by
    unfold stem
    rw [String.toList_ofList]
    apply (tidy_sanitize name.toList).of_isPrefix
    exact List.take_prefix maxLength _
  cut := by
    intro hlast
    unfold stem at hlast
    rw [String.toList_ofList] at hlast
    apply Nat.lt_of_not_le
    intro hlength
    change _ ≤ maxLength at hlength
    rw [List.take_of_length_le hlength] at hlast
    exact getLast?_sanitize _ hlast
  unchanged := by
    intro hlength htidy hlast
    unfold stem
    rw [sanitize_of_tidy htidy hlast]
    rw [List.take_of_length_le]
    . exact String.ofList_toList
    . rw [String.length_toList]
      exact hlength

end FileName

namespace Network

open FileName

variable {n : Network} {peerId : String} {p : Peer}

theorem fileName_of_get? (hp : n.peers.get? peerId = some p)
    : n.fileName peerId = .ok (n.identifier ++ "-" ++ stem p.name ++ ".conf") := by
  unfold fileName peer
  rw [hp]

theorem fileName_isStem (hp : n.peers.get? peerId = some p)
    : (∃ stem, n.fileName peerId = .ok (n.identifier ++ "-" ++ stem ++ ".conf")
          ∧ IsStem p.name stem)
        ∧ ∀ (m : Network) (other : String) (q : Peer), m.peers.get? other = some q
          → m.identifier = n.identifier → SameButGaps p.name.toList q.name.toList
          → m.fileName other = n.fileName peerId := by
  constructor
  . exact ⟨stem p.name, fileName_of_get? hp, isStem_stem p.name⟩
  . intro m other q hq hidentifier hnames
    rw [fileName_of_get? hp, fileName_of_get? hq]
    rw [hidentifier, hnames.stem_eq]

def office (name : String) : Peer where
  id := "office"
  name := name
  address := "10.0.0.1"
  mobility := .roaming
  endpoint := ""
  privateKey := ""
  publicKey := ""
  dns := .off
  mtu := .off
  persistentKeepalive := .off
  hooks := .none
  id_ne_empty := by decide

def offices : Network where
  identifier := "lab"
  subnet := "10.0.0.0/24"
  peers := ⟨[("a", office "Büro 12: hub of the mesh at home (spare)"),
    ("b", office "B--ro 12: hub of the mesh at home (spare)")], by decide⟩
  connections := ∅

theorem fileName_isStem_offices
    : offices.peers.get? "a" = some (office "Büro 12: hub of the mesh at home (spare)")
        ∧ offices.fileName "a" = .ok "lab-B-ro-12-hub-of-the-mesh-at-home-.conf"
        ∧ (∃ stem, offices.fileName "a" = .ok (offices.identifier ++ "-" ++ stem ++ ".conf")
          ∧ IsStem "Büro 12: hub of the mesh at home (spare)" stem)
        ∧ offices.fileName "b" = offices.fileName "a" := by
  have hp : offices.peers.get? "a"
      = some (office "Büro 12: hub of the mesh at home (spare)") := rfl
  obtain ⟨hstem, hothers⟩ := fileName_isStem hp
  refine ⟨hp, rfl, hstem, hothers offices "b" _ rfl rfl ?_⟩
  refine .same 'B' (@SameButGaps.gaps ['ü'] ['-', '-'] _ _ (by simp) (by simp) ?_ (.refl _))
  simp [IsGap, Allowed]

end Network

end WireMesh
