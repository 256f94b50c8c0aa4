import WireMesh.Proofs.ChangeSet.Resubmission
import WireMesh.Proofs.Field.HookByHook

/-!
This module contains the numbers that a setting can be switched on with. A value stands for a number
if it is that integer or a text that writes it out, with a sign that may be left out and any number
of spaces around it. It is accepted if and only if the number is from 1 to 65535, and what is
reported is the number itself. While the setting is off any value is accepted and reported as it is,
as long as it is no text of more than one line.
-/

namespace WireMesh

open Text

namespace ToggleRule

def Numeral (s : String) (n : Int) : Prop :=
  ∃ before sign digits after,
    s.toList = List.replicate before ' ' ++ (sign ++ digits) ++ List.replicate after ' '
      ∧ sign ∈ signs ∧ digits ≠ [] ∧ (∀ c ∈ digits, c.isDigit = true)
      ∧ n = if sign = ['-'] then -(Decimal.value digits : Int) else Decimal.value digits

theorem readSigned_eq_some_iff {cs : List Char} {n : Int}
    : readSigned cs = .ok (some n)
        ↔
      ∃ sign ∈ signs, ∃ digits, cs = sign ++ digits ∧ Decimal.isNumeral digits = true
        ∧ digits.length ≤ Decimal.digitLimit
        ∧ n = if sign = ['-'] then -(Decimal.value digits : Int) else Decimal.value digits := by
  constructor
  . intro hread
    obtain ⟨sign, hsign, digits, rfl, hnumeral⟩ := exists_sign_of_readSigned cs (by simp [hread])
    refine ⟨sign, hsign, digits, rfl, hnumeral, ?_⟩
    rw [readSigned_append hsign hnumeral] at hread
    split at hread
    . cases hread
    . next value hvalue =>
      cases hread
      obtain ⟨hlength, rfl⟩ := Decimal.read_eq_ok_iff.1 hvalue
      exact ⟨hlength, rfl⟩
  . rintro ⟨sign, hsign, digits, rfl, hnumeral, hlength, rfl⟩
    rw [readSigned_append hsign hnumeral]
    rw [Decimal.read_eq_ok_iff.2 ⟨hlength, rfl⟩]

theorem Numeral.oneLine {s : String} {n : Int} (h : Numeral s n) : OneLine s := by
  obtain ⟨before, sign, digits, after, hs, hsign, -, hdigits, -⟩ := h
  have hbreak : ∀ c : Char, c ≠ ' ' → c.isDigit = false → (∀ sign ∈ signs, c ∉ sign)
      → c ∉ s.toList := by
    intro c hspace hdigit hsigns
    rw [hs]
    simp only [List.mem_append, not_or, List.mem_replicate, not_and]
    refine ⟨⟨fun _ => hspace, hsigns sign hsign, ?_⟩, fun _ => hspace⟩
    intro hmem
    rw [hdigits c hmem] at hdigit
    cases hdigit
  exact ⟨hbreak '\r' (by decide) (by decide) (by decide),
    hbreak '\n' (by decide) (by decide) (by decide)⟩

theorem readSigned_trim_eq_some_iff {s : String} {n : Int}
    (hcount : s.toList.countP Char.isDigit ≤ Decimal.digitLimit)
    : readSigned (trim ' ' s.toList) = .ok (some n) ↔ Numeral s n := by
  rw [readSigned_eq_some_iff]
  constructor
  . rintro ⟨sign, hsign, digits, htrim, hnumeral, -, hn⟩
    obtain ⟨hne, hdigits⟩ := Decimal.isNumeral_iff.1 hnumeral
    obtain ⟨hhead, hlast⟩ := ends_ne_space hsign hdigits hne
    obtain ⟨before, after, hs⟩ := (trim_eq_iff hhead hlast).1 htrim
    exact ⟨before, sign, digits, after, hs, hsign, hne, hdigits, hn⟩
  . rintro ⟨before, sign, digits, after, hs, hsign, hne, hdigits, hn⟩
    obtain ⟨hhead, hlast⟩ := ends_ne_space hsign hdigits hne
    refine ⟨sign, hsign, digits, (trim_eq_iff hhead hlast).2 ⟨before, after, hs⟩,
      Decimal.isNumeral_iff.2 ⟨hne, hdigits⟩, ?_, hn⟩
    -- The digits are among those that have been counted.
    have hsublist : digits.Sublist s.toList := by
      rw [hs]
      exact ((List.sublist_append_right sign digits).trans
        (List.sublist_append_right ..)).trans (List.sublist_append_left ..)
    have hall := List.countP_eq_length.2 hdigits
    have hle := hsublist.countP_le (p := Char.isDigit)
    omega

end ToggleRule

namespace Value

def StandsFor (v : Value) (n : Int) : Prop :=
  v = .int n ∨ ∃ s, v = .text s ∧ ToggleRule.Numeral s n

def Countable (v : Value) : Prop :=
  ∀ s, v = .text s → s.toList.countP Char.isDigit ≤ Decimal.digitLimit

theorem StandsFor.hasLineBreak {v : Value} {n : Int} (h : v.StandsFor n)
    : v.hasLineBreak = false := by
  obtain rfl | ⟨s, rfl, hs⟩ := h
  . rfl
  . exact hasLineBreak_text.2 hs.oneLine

theorem readInt_eq_some_iff {v : Value} (hplain : v.isPlain = true) (hcount : v.Countable)
    {n : Int} : ToggleRule.readInt v = .ok (some n) ↔ v.StandsFor n := by
  unfold StandsFor ToggleRule.readInt
  split
  . next m => simp
  . next hint =>
    have hne : v ≠ .int n := hint n
    simp only [hne, false_or, ← text?_eq_some_iff hplain]
    split
    . next s hs =>
      rw [ToggleRule.readSigned_trim_eq_some_iff (hcount s ((text?_eq_some_iff hplain).1 hs))]
      simp [hs]
    . next hs => simp [hs]

theorem inRange_readInt_eq_some_iff {v normal : Value} (hplain : v.isPlain = true)
    (hcount : v.Countable)
    : ToggleRule.inRange <$> ToggleRule.readInt v = .ok (some normal)
        ↔
      ∃ m : Nat, 1 ≤ m ∧ m ≤ 65535 ∧ v.StandsFor m ∧ normal = .int m := by
  constructor
  . intro h
    obtain ⟨n, hread, rfl⟩ := ToggleRule.exists_of_inRange_readInt h
    rw [hread] at h
    have hrange := Except.ok.inj h
    unfold ToggleRule.inRange at hrange
    dsimp only at hrange
    split at hrange
    . next hbounds =>
      obtain ⟨m, rfl⟩ := Int.eq_ofNat_of_zero_le (Int.le_of_lt hbounds.1)
      exact ⟨m, by omega, by omega, (readInt_eq_some_iff hplain hcount).1 hread, rfl⟩
    . cases hrange
  . rintro ⟨m, hpos, hle, hstands, rfl⟩
    rw [(readInt_eq_some_iff hplain hcount).2 hstands]
    exact congrArg Except.ok (if_pos (by omega))

end Value

theorem Field.ofValue?_of_perm {members : List (String × Value)} {b : Bool} {x : Value}
    (hplain : x.isPlain = true) (h : members.Perm [("enabled", .bool b), ("value", x)])
    : ofValue? (.object members) = some (.toggle (.bool b) x) := by
  have hmembers : (Value.object members).isPlain = true := by
    rw [Value.isPlain_object_iff]
    constructor
    . exact (h.map Prod.fst).nodup_iff.2 (by simp)
    . intro entry hentry
      have hmem := h.mem_iff.1 hentry
      simp only [List.mem_cons, List.not_mem_nil, or_false] at hmem
      obtain rfl | rfl := hmem
      . rfl
      . exact hplain
  exact (ofValue?_eq_toggle_iff hmembers).2 ⟨members, rfl, h⟩

section Number

variable {field : String} {v x reported : Value} {context : Option Context}

theorem Rule.exists_number_of_mem (h : field ∈ numberFields)
    : ∃ rule : ToggleRule, ofField? field = some (.toggle rule)
        ∧ ∀ x, rule.accept? x = ToggleRule.inRange <$> ToggleRule.readInt x := by
  unfold numberFields at h
  simp only [List.mem_cons, List.not_mem_nil, or_false] at h
  obtain rfl | rfl := h
  . exact ⟨.mtu, rfl, fun _ => rfl⟩
  . exact ⟨.keepalive, rfl, fun _ => rfl⟩

theorem validate_number_on_iff (hfield : field ∈ Rule.numberFields) (hplain : x.isPlain = true)
    (hcount : x.Countable) (hf : Field.ofValue? v = some (.toggle (.bool true) x))
    : validate field v context = .ok (.accepted reported)
        ↔
      ∃ m : Nat, 1 ≤ m ∧ m ≤ 65535 ∧ x.StandsFor m ∧ reported = .pair (.bool true) (.int m) := by
  obtain ⟨rule, hrule, haccept⟩ := Rule.exists_number_of_mem hfield
  rw [validate_eq_accepted_iff_of_ofValue? hf]
  constructor
  . rintro ⟨_, hrule', -, happly⟩
    rw [hrule] at hrule'
    cases hrule'
    rw [Rule.apply_toggle] at happly
    obtain ⟨_, _, hshape, hnormal⟩ := ToggleRule.apply_eq_accepted_iff.1 happly
    cases hshape
    obtain ⟨normal, hnormal, rfl⟩ := hnormal
    rw [haccept, Value.inRange_readInt_eq_some_iff hplain hcount] at hnormal
    obtain ⟨m, hpos, hle, hstands, rfl⟩ := hnormal
    exact ⟨m, hpos, hle, hstands, rfl⟩
  . rintro ⟨m, hpos, hle, hstands, rfl⟩
    refine ⟨_, hrule, hstands.hasLineBreak, ?_⟩
    rw [Rule.apply_toggle, ToggleRule.apply_eq_accepted_iff]
    refine ⟨_, _, rfl, .int m, ?_, rfl⟩
    rw [haccept, Value.inRange_readInt_eq_some_iff hplain hcount]
    exact ⟨m, hpos, hle, hstands, rfl⟩

theorem validate_number_off (hfield : field ∈ Rule.numberFields)
    (hone : ∀ s, x = .text s → OneLine s) (hplain : x.isPlain = true)
    (hf : Field.ofValue? v = some (.toggle (.bool false) x))
    : validate field v context = .ok (.accepted (.pair (.bool false) x)) := by
  obtain ⟨rule, hrule, -⟩ := Rule.exists_number_of_mem hfield
  rw [validate_eq_accepted_iff_of_ofValue? hf]
  refine ⟨_, hrule, ?_, ?_⟩
  . change x.hasLineBreak = false
    rw [Value.hasLineBreak_eq_false_iff]
    intro s hs
    exact hone s ((Value.text?_eq_some_iff hplain).1 hs)
  . rw [Rule.apply_toggle, ToggleRule.apply_eq_accepted_iff]
    exact ⟨_, _, rfl, rfl⟩

end Number

end WireMesh
