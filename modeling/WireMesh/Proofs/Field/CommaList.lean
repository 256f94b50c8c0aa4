import WireMesh.Proofs.Address.DottedQuad
import WireMesh.Proofs.Field.Reported
import WireMesh.Proofs.Text.Joined

/-!
This module contains the fields that are lists: allowed IPs, whose entries are blocks of addresses,
and name servers, whose entries are addresses. A text is accepted if and only if it is written as
entries with commas between them and any number of spaces around each, and it is reported as it is.
-/

namespace WireMesh

open Text

namespace Text

def Padded (entry : List Char → Prop) (cs : List Char) : Prop :=
  ∃ before core after, entry core
    ∧ cs = List.replicate before ' ' ++ core ++ List.replicate after ' '

def CommaList (entry : List Char → Prop) (cs : List Char) : Prop :=
  ∃ parts, parts ≠ [] ∧ (∀ part ∈ parts, Padded entry part) ∧ cs = [','].intercalate parts

def Numeric (cs : List Char) : Prop :=
  ∀ c ∈ cs, c.isDigit = true ∨ c = '.' ∨ c = '/'

section Entries

variable {entry : List Char → Prop} {cs : List Char}

theorem padded_iff (h : ∀ core, entry core → Numeric core)
    : entry (trim ' ' cs) ↔ Padded entry cs := by
  have hspace : ∀ core, entry core → core.head? ≠ some ' ' ∧ core.getLast? ≠ some ' ' := by
    intro core hcore
    have hmem : ' ' ∉ core := fun hmem => absurd (h core hcore ' ' hmem) (by decide)
    exact ⟨fun hhead => hmem (List.mem_of_head? hhead),
      fun hlast => hmem (List.mem_of_getLast? hlast)⟩
  constructor
  . intro hentry
    obtain ⟨hhead, hlast⟩ := hspace _ hentry
    obtain ⟨before, after, hcs⟩ := (trim_eq_iff hhead hlast).1 rfl
    exact ⟨before, _, after, hentry, hcs⟩
  . rintro ⟨before, core, after, hentry, hcs⟩
    obtain ⟨hhead, hlast⟩ := hspace _ hentry
    rw [(trim_eq_iff hhead hlast).2 ⟨before, after, hcs⟩]
    exact hentry

theorem Padded.chars (hpadded : Padded entry cs) (h : ∀ core, entry core → Numeric core)
    : ∀ c ∈ cs, c = ' ' ∨ c.isDigit = true ∨ c = '.' ∨ c = '/' := by
  obtain ⟨before, core, after, hentry, rfl⟩ := hpadded
  intro c hc
  simp only [List.mem_append, List.mem_replicate] at hc
  obtain (⟨-, hspace⟩ | hcore) | ⟨-, hspace⟩ := hc
  . exact .inl hspace
  . exact .inr (h core hentry c hcore)
  . exact .inl hspace

theorem commaList_iff (h : ∀ core, entry core → Numeric core)
    : (∀ part ∈ cs.splitOn ',', entry (trim ' ' part)) ↔ CommaList entry cs := by
  simp only [padded_iff h]
  apply forall_mem_splitOn_iff
  intro part hpart hcomma
  exact absurd (hpart.chars h ',' hcomma) (by decide)

theorem CommaList.chars (hlist : CommaList entry cs) (h : ∀ core, entry core → Numeric core)
    : ∀ c ∈ cs, c = ',' ∨ c = ' ' ∨ c.isDigit = true ∨ c = '.' ∨ c = '/' := by
  obtain ⟨parts, -, hparts, rfl⟩ := hlist
  intro c hc
  obtain hcomma | ⟨part, hpart, hc⟩ := mem_intercalate hc
  . exact .inl hcomma
  . exact .inr ((hparts part hpart).chars h c hc)

theorem CommaList.oneLine {s : String} (hlist : CommaList entry s.toList)
    (h : ∀ core, entry core → Numeric core) : OneLine s :=
  ⟨fun hr => absurd (hlist.chars h '\r' hr) (by decide),
    fun hn => absurd (hlist.chars h '\n' hn) (by decide)⟩

end Entries

end Text

theorem Address.DottedQuad.numeric {cs : List Char} (h : ∃ v, DottedQuad cs v) : Numeric cs := by
  obtain ⟨v, h⟩ := h
  intro c hc
  obtain hdigit | hdot := h.isDigit_or_dot c hc
  . exact .inl hdigit
  . exact .inr (.inl hdot)

namespace Subnet

def IsBlock (cs : List Char) : Prop :=
  ∃ quad v digits, Address.DottedQuad quad v
    ∧ (digits.length = 1 ∨ digits.length = 2) ∧ (∀ c ∈ digits, c.isDigit = true)
    ∧ Decimal.value digits ≤ 32 ∧ cs = quad ++ '/' :: digits

variable {cs : List Char}

theorem IsBlock.numeric (h : IsBlock cs) : Numeric cs := by
  obtain ⟨quad, v, digits, hquad, -, hdigits, -, rfl⟩ := h
  intro c hc
  rw [List.mem_append, List.mem_cons] at hc
  obtain hc | hslash | hc := hc
  . exact Address.DottedQuad.numeric ⟨v, hquad⟩ c hc
  . exact .inr (.inr hslash)
  . exact .inl (hdigits c hc)

theorem isCidr_iff_isBlock : isCidr cs = true ↔ IsBlock cs := by
  unfold isCidr
  constructor
  . intro h
    split at h
    . cases h
    . next quad digits hsplit =>
      simp only [Bool.and_eq_true, decide_eq_true_eq] at h
      obtain ⟨⟨⟨haddress, hnumeral⟩, hlength⟩, hvalue⟩ := h
      obtain ⟨v, hquad⟩ := Address.isSome_ofChars?_iff.1 haddress
      obtain ⟨hne, hdigits⟩ := Decimal.isNumeral_iff.1 hnumeral
      have hpos := List.length_pos_iff.2 hne
      exact ⟨quad, v, digits, hquad, by omega, hdigits, hvalue, (splitFirst_eq_some_iff.1 hsplit).1⟩
  . rintro ⟨quad, v, digits, hquad, hlength, hdigits, hvalue, hcs⟩
    have hslash : '/' ∉ quad := fun hmem => absurd (hquad.isDigit_or_dot '/' hmem) (by decide)
    rw [splitFirst_eq_some_iff.2 ⟨hcs, hslash⟩]
    simp only [Bool.and_eq_true, decide_eq_true_eq]
    have hne : digits ≠ [] := List.length_pos_iff.1 (by omega)
    exact ⟨⟨⟨Address.isSome_ofChars?_iff.2 ⟨v, hquad⟩, Decimal.isNumeral_iff.2 ⟨hne, hdigits⟩⟩,
      by omega⟩, hvalue⟩

end Subnet

theorem TextRule.isCidrList_iff {cs : List Char}
    : isCidrList cs = true ↔ CommaList Subnet.IsBlock cs := by
  unfold isCidrList
  simp only [List.all_eq_true, Subnet.isCidr_iff_isBlock]
  exact commaList_iff fun core => Subnet.IsBlock.numeric

theorem ToggleRule.isAddressList_iff {cs : List Char}
    : isAddressList cs = true ↔ CommaList (fun entry => ∃ v, Address.DottedQuad entry v) cs := by
  unfold isAddressList
  simp only [List.all_eq_true, Address.isSome_ofChars?_iff]
  exact commaList_iff fun core => Address.DottedQuad.numeric

/--
Whether the check of a field accepts a value if a condition holds and rejects it otherwise. Either
way it reports the same.
-/
structure Decides (field : String) (v : Value) (context : Option Context) (holds : Prop)
    (reported : Value) : Prop where
  accepted : holds → validate field v context = .ok (.accepted reported)
  rejected : ¬ holds → ∃ complaint, validate field v context = .ok (.rejected complaint reported)

section Lists

variable {field : String} {v : Value} {context : Option Context} {s : String}

theorem decides_of_apply {rule : Rule} {f : Field} {holds : Prop}
    (hrule : Rule.ofField? field = some rule) (hf : Field.ofValue? v = some f)
    (hbreak : holds → f.hasLineBreak = false)
    (haccept : holds → rule.apply context f = .ok (.accepted f.toPlain))
    (hreject : ¬ holds → ∃ complaint, rule.apply context f = .ok (.rejected complaint f.toPlain))
    : Decides field v context holds f.toPlain := by
  -- The search for line breaks comes before the rule, so it must not find one where the rule
  -- accepts.
  constructor
  . intro h
    exact (validate_eq_accepted_iff_of_ofValue? hf).2 ⟨rule, hrule, hbreak h, haccept h⟩
  . intro h
    unfold validate
    rw [hrule, hf]
    dsimp only
    split
    . exact ⟨_, rfl⟩
    . exact hreject h

theorem decides_allowedIps (hrule : Rule.ofField? field = some (.text .allowedIps))
    (hv : Field.ofValue? v = some (.text s))
    : Decides field v context (CommaList Subnet.IsBlock s.toList) (.text s) := by
  apply decides_of_apply hrule hv
  . intro hlist
    exact Value.hasLineBreak_text.2 (hlist.oneLine fun _ => Subnet.IsBlock.numeric)
  . intro hlist
    refine congrArg Except.ok (TextRule.apply_eq_accepted_iff.2 ⟨s, rfl, ?_, rfl⟩)
    exact if_pos (TextRule.isCidrList_iff.2 hlist)
  . intro hlist
    rw [← TextRule.isCidrList_iff] at hlist
    refine ⟨.notAllowedIps, ?_⟩
    unfold Rule.apply TextRule.apply TextRule.check
    simp [hlist]

theorem decides_dns (hv : Field.ofValue? v = some (.toggle (.bool true) (.text s)))
    : Decides "dns" v context (CommaList (fun entry => ∃ n, Address.DottedQuad entry n) s.toList)
        (.pair (.bool true) (.text s)) := by
  apply @decides_of_apply _ _ _ (.toggle .dns) _ _ rfl hv
  . intro hlist
    exact Value.hasLineBreak_text.2 (hlist.oneLine fun _ => Address.DottedQuad.numeric)
  . intro hlist
    rw [← ToggleRule.isAddressList_iff] at hlist
    unfold Rule.apply ToggleRule.apply ToggleRule.accept?
    simp [hlist, Value.isTruthy, Value.text?, Field.toPlain]
  . intro hlist
    rw [← ToggleRule.isAddressList_iff] at hlist
    refine ⟨.notDns, ?_⟩
    unfold Rule.apply ToggleRule.apply ToggleRule.accept?
    simp [hlist, Value.isTruthy, Value.text?, ToggleRule.complaint]

theorem commaLists_decided (s : String) (context : Option Context)
    : (∀ field ∈ ["allowed_ips_a_to_b", "allowed_ips_b_to_a"],
          ∀ v, Field.ofValue? v = some (.text s)
            → Decides field v context (CommaList Subnet.IsBlock s.toList) (.text s))
        ∧ ∀ v, Field.ofValue? v = some (.toggle (.bool true) (.text s))
          → Decides "dns" v context
              (CommaList (fun entry => ∃ n, Address.DottedQuad entry n) s.toList)
              (.pair (.bool true) (.text s)) := by
  constructor
  . intro field hfield v hv
    simp only [List.mem_cons, List.not_mem_nil, or_false] at hfield
    obtain rfl | rfl := hfield
    . exact decides_allowedIps rfl hv
    . exact decides_allowedIps rfl hv
  . intro v hv
    exact decides_dns hv

theorem commaLists_decided_spaced
    : validate "allowed_ips_a_to_b" (.text " 10.0.0.0/8 ,10.0.0.7/32  ") none
          = .ok (.accepted (.text " 10.0.0.0/8 ,10.0.0.7/32  "))
        ∧ validate "dns" (.object [("value", .text "1.1.1.1, 9.9.9.9"), ("enabled", .bool true)])
            none
          = .ok (.accepted (.pair (.bool true) (.text "1.1.1.1, 9.9.9.9")))
        ∧ (¬ CommaList Subnet.IsBlock "10.0.0.0/8,".toList)
        ∧ ¬ CommaList Subnet.IsBlock "10.0.0.0/8,\t10.0.0.7/32".toList := by
  have hblocks := commaLists_decided " 10.0.0.0/8 ,10.0.0.7/32  " none
  have haddresses := commaLists_decided "1.1.1.1, 9.9.9.9" none
  refine ⟨?_, ?_, ?_, ?_⟩
  . exact (hblocks.1 _ List.mem_cons_self _ rfl).accepted
      (TextRule.isCidrList_iff.1 (by decide))
  . exact (haddresses.2 _ rfl).accepted (ToggleRule.isAddressList_iff.1 (by decide))
  . rw [← TextRule.isCidrList_iff]
    decide
  . rw [← TextRule.isCidrList_iff]
    decide

end Lists

end WireMesh
