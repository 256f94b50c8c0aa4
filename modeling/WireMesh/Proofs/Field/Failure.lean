import Mathlib.Data.List.Nodup
import WireMesh.Proofs.Field.PlainForm

/-!
This module contains the inputs on which the check of a field fails. On every other input it returns
a ruling, whatever the field, the value and the network are. It fails on a numeral that has more
digits than are read, and reads one in two places only: the port of an endpoint, and the text of a
number that is switched on. A text of more than one line is rejected before it is read. The message
of a ruling is empty if and only if the ruling accepts.
-/

namespace WireMesh

open Text

theorem Decimal.isNumeral_iff_of_lt {cs : List Char} {bound : Nat} (h : bound < cs.length)
    : isNumeral cs = true ↔ ∀ c ∈ cs, c.isDigit = true := by
  have hne : cs ≠ [] := List.ne_nil_of_length_pos (by omega)
  simp [isNumeral, hne]

def Endpoint.LongPort (s : String) (count : Nat) : Prop :=
  ∃ host port, s.toList = host ++ ':' :: port ∧ (∀ c ∈ port, c.isDigit = true)
    ∧ port.length = count ∧ Decimal.digitLimit < count

theorem Endpoint.isText_eq_error_iff_longPort {s : String} {e : Decimal.TooManyDigits}
    : isText s.toList = .error e ↔ LongPort s e.count := by
  rw [isText_eq_error_iff]
  constructor
  . rintro ⟨host, port, hsplit, hport, hlength, rfl⟩
    obtain ⟨hs, -⟩ := splitLast_eq_some_iff.1 hsplit
    exact ⟨host, port, hs, (Decimal.isNumeral_iff_of_lt hlength).1 hport, rfl, hlength⟩
  . rintro ⟨host, port, hs, hport, hcount, hlength⟩
    rw [← hcount] at hlength
    refine ⟨host, port, ?_, (Decimal.isNumeral_iff_of_lt hlength).2 hport, hlength, ?_⟩
    . rw [splitLast_eq_some_iff]
      refine ⟨hs, ?_⟩
      intro hcolon
      exact absurd (hport _ hcolon) (by decide)
    . rw [hcount]

namespace ToggleRule

def signs : List (List Char) := [[], ['+'], ['-']]

theorem readSigned_append {sign digits : List Char} (hsign : sign ∈ signs)
    (h : Decimal.isNumeral digits = true)
    : readSigned (sign ++ digits)
        =
      match Decimal.read digits with
      | .error e => .error e
      | .ok n => .ok (some (if sign = ['-'] then -(n : Int) else n)) := by
  unfold signs at hsign
  simp only [List.mem_cons, List.not_mem_nil, or_false] at hsign
  obtain rfl | rfl | rfl := hsign
  . unfold readSigned
    rw [List.nil_append]
    split
    next negative rest hsplit =>
      -- A digit is no sign.
      split at hsplit
      . exact absurd h (by simp [Decimal.isNumeral])
      . exact absurd h (by simp [Decimal.isNumeral])
      . cases hsplit
        rw [if_pos h]
        cases Decimal.read digits with
        | error e => rfl
        | ok n => rfl
  . exact if_pos h
  . exact if_pos h

theorem exists_sign_of_readSigned (cs : List Char) (h : readSigned cs ≠ .ok none)
    : ∃ sign ∈ signs, ∃ digits, cs = sign ++ digits ∧ Decimal.isNumeral digits = true := by
  unfold readSigned at h
  split at h
  next negative digits hsplit =>
    split at h
    . next hnumeral =>
      split at hsplit
      . cases hsplit
        exact ⟨['-'], by decide, _, rfl, hnumeral⟩
      . cases hsplit
        exact ⟨['+'], by decide, _, rfl, hnumeral⟩
      . cases hsplit
        exact ⟨[], by decide, _, rfl, hnumeral⟩
    . exact (h rfl).elim

theorem readSigned_eq_error_iff {cs : List Char} {e : Decimal.TooManyDigits}
    : readSigned cs = .error e
        ↔
      ∃ sign ∈ signs, ∃ digits, cs = sign ++ digits ∧ Decimal.isNumeral digits = true
        ∧ Decimal.digitLimit < digits.length ∧ e = ⟨digits.length⟩ := by
  constructor
  . intro herror
    obtain ⟨sign, hsign, digits, rfl, hnumeral⟩ := exists_sign_of_readSigned cs (by simp [herror])
    refine ⟨sign, hsign, digits, rfl, hnumeral, ?_⟩
    rw [readSigned_append hsign hnumeral] at herror
    split at herror
    . next hread =>
      cases herror
      exact Decimal.read_eq_error_iff.1 hread
    . cases herror
  . rintro ⟨sign, hsign, digits, rfl, hnumeral, hread⟩
    rw [readSigned_append hsign hnumeral]
    rw [Decimal.read_eq_error_iff.2 hread]

def LongNumeral (s : String) (count : Nat) : Prop :=
  ∃ before sign digits after,
    s.toList = List.replicate before ' ' ++ (sign ++ digits) ++ List.replicate after ' '
      ∧ sign ∈ signs ∧ (∀ c ∈ digits, c.isDigit = true) ∧ digits.length = count
      ∧ Decimal.digitLimit < count

theorem ends_ne_space {sign digits : List Char} (hsign : sign ∈ signs)
    (hdigits : ∀ c ∈ digits, c.isDigit = true) (hne : digits ≠ [])
    : (sign ++ digits).head? ≠ some ' ' ∧ (sign ++ digits).getLast? ≠ some ' ' := by
  constructor
  . intro hhead
    have hmem : ' ' ∈ sign ∨ ' ' ∈ digits := List.mem_append.1 (List.mem_of_head? hhead)
    obtain hspace | hspace := hmem
    . unfold signs at hsign
      simp only [List.mem_cons, List.not_mem_nil, or_false] at hsign
      obtain rfl | rfl | rfl := hsign
      . cases hspace
      . exact absurd hspace (by decide)
      . exact absurd hspace (by decide)
    . exact absurd (hdigits _ hspace) (by decide)
  . intro hlast
    rw [List.getLast?_append, List.getLast?_eq_some_getLast hne, Option.some_or] at hlast
    rw [← List.getLast?_eq_some_getLast hne] at hlast
    exact absurd (hdigits _ (List.mem_of_getLast? hlast)) (by decide)

theorem readSigned_trim_eq_error_iff {s : String} {e : Decimal.TooManyDigits}
    : readSigned (trim ' ' s.toList) = .error e ↔ LongNumeral s e.count := by
  rw [readSigned_eq_error_iff]
  constructor
  . rintro ⟨sign, hsign, digits, htrim, hnumeral, hlength, rfl⟩
    have hdigits := (Decimal.isNumeral_iff_of_lt hlength).1 hnumeral
    obtain ⟨hhead, hlast⟩ :=
      ends_ne_space hsign hdigits (List.ne_nil_of_length_pos (by omega))
    obtain ⟨before, after, hs⟩ := (trim_eq_iff hhead hlast).1 htrim
    exact ⟨before, sign, digits, after, hs, hsign, hdigits, rfl, hlength⟩
  . rintro ⟨before, sign, digits, after, hs, hsign, hdigits, hcount, hlength⟩
    rw [← hcount] at hlength
    obtain ⟨hhead, hlast⟩ :=
      ends_ne_space hsign hdigits (List.ne_nil_of_length_pos (by omega))
    refine ⟨sign, hsign, digits, (trim_eq_iff hhead hlast).2 ⟨before, after, hs⟩,
      (Decimal.isNumeral_iff_of_lt hlength).2 hdigits, hlength, ?_⟩
    rw [hcount]

theorem readInt_eq_error_iff {v : Value} {e : Decimal.TooManyDigits}
    : readInt v = .error e ↔ ∃ s, v.text? = some s ∧ LongNumeral s e.count := by
  simp only [← readSigned_trim_eq_error_iff]
  unfold readInt
  split
  . next n => simp [Value.text?]
  . split
    . next s hs => simp [hs]
    . next hs => simp [hs]

theorem accept?_eq_error_iff {rule : ToggleRule} {v : Value} {e : Decimal.TooManyDigits}
    : rule.accept? v = .error e
        ↔
      (rule = .mtu ∨ rule = .keepalive) ∧ ∃ s, v.text? = some s ∧ LongNumeral s e.count := by
  have hnumber : inRange <$> readInt v = .error e ↔ readInt v = .error e := by
    cases readInt v with
    | error cause =>
      constructor
      . rintro ⟨⟩
        rfl
      . rintro ⟨⟩
        rfl
    | ok n => exact ⟨nofun, nofun⟩
  cases rule with
  | dns => simp [accept?]
  | script => simp [accept?]
  | mtu => simpa [accept?, ← readInt_eq_error_iff] using hnumber
  | keepalive => simpa [accept?, ← readInt_eq_error_iff] using hnumber

end ToggleRule

def Field.SwitchesOn (f : Field) (s : String) : Prop :=
  match f with
  | .toggle flag value => flag.isTruthy = true ∧ value.text? = some s
  | _ => False

namespace Rule

variable {f : Field} {e : Decimal.TooManyDigits}

theorem toggleRule_apply_eq_error_iff {rule : ToggleRule}
    : rule.apply f = .error e
        ↔
      (rule = .mtu ∨ rule = .keepalive)
        ∧ ∃ s, f.SwitchesOn s ∧ ToggleRule.LongNumeral s e.count := by
  unfold ToggleRule.apply Field.SwitchesOn
  cases f with
  | text t => simp
  | group members => simp
  | toggle flag value =>
    dsimp only
    split
    . next hflag =>
      have haccept := @ToggleRule.accept?_eq_error_iff rule value e
      cases h : rule.accept? value with
      | error cause => simpa [h, hflag] using haccept
      | ok normal =>
        rw [h] at haccept
        cases normal with
        | some reported => simpa [hflag] using haccept
        | none => simpa [hflag] using haccept
    . next hflag => simp [hflag]

theorem applyEndpoint_eq_error_iff
    : applyEndpoint f = .error e
        ↔
      ∃ s, (f = .text s ∨ f.SwitchesOn s) ∧ Endpoint.LongPort s e.count := by
  simp only [← Endpoint.isText_eq_error_iff_longPort]
  unfold applyEndpoint Field.SwitchesOn
  cases f with
  | group members => simp
  | text t =>
    dsimp only
    split
    . next htext => simp [htext]
    . next htext => simp [htext]
    . next htext => simp [htext]
  | toggle flag value =>
    dsimp only
    split
    . next hflag =>
      split
      . next hs => simp [hs]
      . next s hs =>
        split
        . next htext => simp [hs, hflag, htext]
        . next htext => simp [hs, hflag, htext]
        . next htext => simp [hs, hflag, htext]
    . next hflag => simp [hflag]

theorem applyHooks_ne_error (members : List (String × Value)) (hooks : List Hook)
    : applyHooks members hooks ≠ .error e := by
  induction hooks with
  | nil => simp [applyHooks]
  | cons hook rest ih =>
    unfold applyHooks
    split
    . simp
    . split
      . simp
      . split
        . next cause hscript => simp [toggleRule_apply_eq_error_iff] at hscript
        . simp
        . exact ih

theorem apply_eq_error_iff {rule : Rule} {context : Option Context}
    : rule.apply context f = .error e
        ↔
      (∃ s, rule = .endpoint ∧ (f = .text s ∨ f.SwitchesOn s) ∧ Endpoint.LongPort s e.count)
        ∨ ∃ s, (rule = .toggle .mtu ∨ rule = .toggle .keepalive) ∧ f.SwitchesOn s
            ∧ ToggleRule.LongNumeral s e.count := by
  cases rule with
  | text rule => simp [apply]
  | toggle rule =>
    rw [apply_toggle, toggleRule_apply_eq_error_iff]
    simp
  | endpoint =>
    rw [apply_endpoint, applyEndpoint_eq_error_iff]
    simp
  | hooks =>
    cases f with
    | text t => simp [apply]
    | toggle flag value => simp [apply]
    | group members => simpa [apply] using applyHooks_ne_error members Hook.all

end Rule

theorem Complaint.message_ne_empty (complaint : Complaint) : complaint.message ≠ "" := by
  have happend : ∀ s t : String, s ≠ "" ∨ t ≠ "" → s ++ t ≠ "" := by
    intro s t h
    rw [ne_eq, String.append_eq_empty_iff]
    grind
  cases complaint with
  | lineBreak field | empty field | missingHook hook | unreadableSubnet subnet =>
    exact happend _ _ (.inr (by decide))
  | notMobility | outsideSubnet subnet | networkAddress subnet | broadcastAddress subnet
  | taken name =>
    exact happend _ _ (.inl (by decide))
  | _ => decide

theorem Ruling.message_eq_empty_iff (ruling : Ruling)
    : ruling.verdict.message = "" ↔ ruling.verdict.accepted = true := by
  cases ruling with
  | accepted reported => exact iff_of_true rfl rfl
  | rejected complaint reported => exact iff_of_false complaint.message_ne_empty nofun

section Plain

variable {v : Value}

theorem Value.text?_eq_some_iff (hplain : v.isPlain = true) {s : String}
    : v.text? = some s ↔ v = .text s := by
  cases v with
  | text t => simp [text?]
  | mobility m => cases hplain
  | _ => simp [text?]

theorem Field.ofValue?_eq_text_iff (hplain : v.isPlain = true) {s : String}
    : ofValue? v = some (.text s) ↔ v = .text s := by
  cases v with
  | text t => simp [ofValue?]
  | object members =>
    simp only [ofValue?, ofMembers?, reduceCtorEq, iff_false]
    split
    . exact nofun
    . exact nofun
    . exact nofun
  | mobility m => cases hplain
  | textField t => cases hplain
  | _ => simp [ofValue?]

theorem Field.pair?_eq_some_iff {members : List (String × Value)}
    (h : (Entries.keys members).Nodup) {flag value : Value}
    : pair? members = some (flag, value)
        ↔
      members.Perm [("enabled", flag), ("value", value)] := by
  -- The keys of a pair are distinct, so it has the two members and no more.
  constructor
  . intro hpair
    unfold pair? at hpair
    split at hpair
    . next hflag hvalue =>
      split at hpair
      . next hkeys =>
        cases hpair
        rw [List.perm_ext_iff_of_nodup (List.Nodup.of_map _ h) (by simp)]
        rintro ⟨key, w⟩
        rw [← Entries.get?_eq_some_iff h]
        have hkey : Entries.get? members key = some w → key = "enabled" ∨ key = "value" := by
          intro hw
          have hmem := List.mem_map_of_mem (f := Prod.fst) (Entries.mem_of_get?_eq_some hw)
          simpa using List.all_eq_true.1 hkeys _ hmem
        simp only [List.mem_cons, Prod.mk.injEq, List.not_mem_nil, or_false]
        grind
      . cases hpair
    . cases hpair
  . intro hperm
    have hflag : Entries.get? members "enabled" = some flag := by
      rw [Entries.get?_eq_some_iff h, hperm.mem_iff]
      exact List.mem_cons_self
    have hvalue : Entries.get? members "value" = some value := by
      rw [Entries.get?_eq_some_iff h, hperm.mem_iff]
      exact List.mem_cons_of_mem _ List.mem_cons_self
    unfold pair?
    rw [hflag, hvalue]
    apply if_pos
    rw [List.all_eq_true]
    intro key hkey
    have hmem := (hperm.map Prod.fst).mem_iff.1 hkey
    simpa using hmem

def Value.SwitchesOn (v content : Value) : Prop :=
  ∃ members, v = .object members ∧ members.Perm [("enabled", .bool true), ("value", content)]

theorem Field.ofValue?_eq_toggle_iff (hplain : v.isPlain = true) {b : Bool} {value : Value}
    : ofValue? v = some (.toggle (.bool b) value)
        ↔
      ∃ members, v = .object members
        ∧ members.Perm [("enabled", .bool b), ("value", value)] := by
  cases v with
  | object members =>
    rw [Value.isPlain, Bool.and_eq_true, decide_eq_true_eq] at hplain
    simp only [Value.object.injEq, exists_eq_left', ← pair?_eq_some_iff hplain.1]
    simp only [ofValue?, ofMembers?]
    split
    . next hpair => simp [hpair]
    . next pair hbool hpair =>
      simp only [hpair, reduceCtorEq, Option.some.injEq, false_iff]
      exact hbool b value
    . next hpair => simp [hpair]
  | override o => cases hplain
  | toggleField flag value => cases hplain
  | _ => simp [ofValue?]

theorem Field.isPlain_of_toggle (hplain : v.isPlain = true) {flag value : Value}
    (h : ofValue? v = some (.toggle flag value)) : value.isPlain = true := by
  obtain ⟨b, rfl⟩ := flag_of_isPlain hplain h
  obtain ⟨members, rfl, hperm⟩ := (ofValue?_eq_toggle_iff hplain).1 h
  rw [Value.isPlain, Bool.and_eq_true, decide_eq_true_eq] at hplain
  have hget : Entries.get? members "value" = some value := by
    rw [Entries.get?_eq_some_iff hplain.1, hperm.mem_iff]
    exact List.mem_cons_of_mem _ List.mem_cons_self
  exact Value.isPlain_of_get? hplain.2 hget

theorem Value.switchesOn_iff (hplain : v.isPlain = true) {s : String}
    : (∃ f, Field.ofValue? v = some f ∧ f.SwitchesOn s) ↔ v.SwitchesOn (.text s) := by
  -- The flag of a plain switch is a truth value, so one that counts as yes is true itself.
  constructor
  . rintro ⟨f, hf, hon⟩
    cases f with
    | text t => cases hon
    | group members => cases hon
    | toggle flag value =>
      obtain ⟨hflag, hs⟩ := hon
      obtain ⟨b, rfl⟩ := Field.flag_of_isPlain hplain hf
      obtain rfl : b = true := hflag
      rw [text?_eq_some_iff (Field.isPlain_of_toggle hplain hf)] at hs
      rw [hs] at hf
      exact (Field.ofValue?_eq_toggle_iff hplain).1 hf
  . rintro ⟨members, rfl, hperm⟩
    exact ⟨_, (Field.ofValue?_eq_toggle_iff hplain).2 ⟨members, rfl, hperm⟩, rfl, rfl⟩

end Plain

theorem Rule.ofField?_eq_endpoint_iff {field : String}
    : ofField? field = some .endpoint ↔ field = "endpoint" := by
  constructor
  . exact eq_endpoint_of_ofField?
  . rintro rfl
    rfl

theorem Rule.ofField?_eq_number_iff {field : String}
    : (ofField? field = some (.toggle .mtu) ∨ ofField? field = some (.toggle .keepalive))
        ↔
      field = "mtu" ∨ field = "persistent_keepalive" := by
  constructor
  . intro h
    obtain h | h := h
    . have hmem := Entries.mem_of_get?_eq_some h
      exact .inl (by simpa [table] using hmem)
    . have hmem := Entries.mem_of_get?_eq_some h
      exact .inr (by simpa [table] using hmem)
  . intro h
    obtain rfl | rfl := h
    . exact .inl rfl
    . exact .inr rfl

/--
Whether the check of a field comes to read, in a value, a numeral of `count` digits, which are too
many. Only a text on a single line is read.
-/
inductive Overlong (field : String) (v : Value) (count : Nat) : Prop where
  | port (s : String) (hfield : field = "endpoint") (hline : OneLine s)
    (hv : v = .text s ∨ v.SwitchesOn (.text s)) (hlong : Endpoint.LongPort s count)
  | number (s : String) (hfield : field = "mtu" ∨ field = "persistent_keepalive")
    (hline : OneLine s) (hv : v.SwitchesOn (.text s)) (hlong : ToggleRule.LongNumeral s count)

theorem Field.hasLineBreak_of_text {f : Field} {s : String} (h : f = .text s ∨ f.SwitchesOn s)
    : f.hasLineBreak = false ↔ OneLine s := by
  rw [← any_isLineBreak_eq_false_iff]
  cases f with
  | text t =>
    obtain h | h := h
    . cases h
      rfl
    . cases h
  | toggle flag value =>
    obtain h | h := h
    . cases h
    . obtain ⟨-, hs⟩ := h
      simp [hasLineBreak, content?, Value.hasLineBreak, hs]
  | group members =>
    obtain h | h := h
    . cases h
    . cases h

theorem validate_eq_error_iff_overlong {field : String} {v : Value} (hplain : v.isPlain = true)
    {context : Option Context} {e : Decimal.TooManyDigits}
    : validate field v context = .error e ↔ Overlong field v e.count := by
  rw [validate_eq_iff (by simp)]
  simp only [Rule.apply_eq_error_iff]
  constructor
  . rintro ⟨rule, f, hrule, hf, hbreak, ⟨s, rfl, hs, hlong⟩ | ⟨s, hnumber, hs, hlong⟩⟩
    . refine .port s (Rule.ofField?_eq_endpoint_iff.1 hrule)
        ((Field.hasLineBreak_of_text hs).1 hbreak) ?_ hlong
      obtain rfl | hs := hs
      . exact .inl ((Field.ofValue?_eq_text_iff hplain).1 hf)
      . exact .inr ((Value.switchesOn_iff hplain).1 ⟨f, hf, hs⟩)
    . refine .number s (Rule.ofField?_eq_number_iff.1 ?_)
        ((Field.hasLineBreak_of_text (.inr hs)).1 hbreak)
        ((Value.switchesOn_iff hplain).1 ⟨f, hf, hs⟩) hlong
      rw [hrule]
      simpa using hnumber
  . intro h
    cases h with
    | port s hfield hline hv hlong =>
      have hf : ∃ f, Field.ofValue? v = some f ∧ (f = .text s ∨ f.SwitchesOn s) := by
        obtain rfl | hv := hv
        . exact ⟨_, rfl, .inl rfl⟩
        . obtain ⟨f, hf, hs⟩ := (Value.switchesOn_iff hplain).2 hv
          exact ⟨f, hf, .inr hs⟩
      obtain ⟨f, hf, hs⟩ := hf
      exact ⟨.endpoint, f, Rule.ofField?_eq_endpoint_iff.2 hfield, hf,
        (Field.hasLineBreak_of_text hs).2 hline, .inl ⟨s, rfl, hs, hlong⟩⟩
    | number s hfield hline hv hlong =>
      obtain ⟨f, hf, hs⟩ := (Value.switchesOn_iff hplain).2 hv
      have hbreak := (Field.hasLineBreak_of_text (.inr hs)).2 hline
      obtain hrule | hrule := Rule.ofField?_eq_number_iff.2 hfield
      . exact ⟨_, f, hrule, hf, hbreak, .inr ⟨s, .inl rfl, hs, hlong⟩⟩
      . exact ⟨_, f, hrule, hf, hbreak, .inr ⟨s, .inr rfl, hs, hlong⟩⟩

theorem validate_fails_iff_overlong {v : Value} (hplain : v.isPlain = true) (field : String)
    (context : Option Context)
    : (∀ e, validate field v context = .error e ↔ Overlong field v e.count)
        ∧ ((∃ ruling, validate field v context = .ok ruling) ↔ ∀ count, ¬Overlong field v count)
        ∧ ∀ ruling, validate field v context = .ok ruling
            → (ruling.verdict.message = "" ↔ ruling.verdict.accepted = true) := by
  refine ⟨fun e => validate_eq_error_iff_overlong hplain, ?_, fun ruling _ =>
    ruling.message_eq_empty_iff⟩
  constructor
  . rintro ⟨ruling, hruling⟩ count hlong
    rw [(validate_eq_error_iff_overlong (e := ⟨count⟩) hplain).2 hlong] at hruling
    cases hruling
  . intro hlong
    cases hresult : validate field v context with
    | ok ruling => exact ⟨ruling, rfl⟩
    | error e => exact (hlong _ ((validate_eq_error_iff_overlong hplain).1 hresult)).elim

def zeroPort (count : Nat) : String :=
  String.ofList ('h' :: ':' :: List.replicate count '0')

theorem oneLine_zeroPort (count : Nat) : OneLine (zeroPort count) := by
  simp [OneLine, zeroPort]

theorem longPort_zeroPort {count : Nat} (h : Decimal.digitLimit < count)
    : Endpoint.LongPort (zeroPort count) count :=
  ⟨['h'], List.replicate count '0', String.toList_ofList, by simp, List.length_replicate, h⟩

theorem validate_fails_iff_overlong_zeroPort
    : (Value.pair (.bool true) (.text (zeroPort 4301))).isPlain = true
        ∧ validate "endpoint" (.pair (.bool true) (.text (zeroPort 4301))) none = .error ⟨4301⟩
        ∧ ∃ ruling, validate "dns" (.pair (.bool true) (.text (zeroPort 4301))) none = .ok ruling
            ∧ (ruling.verdict.message = "" ↔ ruling.verdict.accepted = true) := by
  have hplain : (Value.pair (.bool true) (.text (zeroPort 4301))).isPlain = true := rfl
  obtain ⟨hendpoint, -⟩ := validate_fails_iff_overlong hplain "endpoint" none
  obtain ⟨-, hreturns, hmessage⟩ := validate_fails_iff_overlong hplain "dns" none
  refine ⟨hplain, (hendpoint ⟨4301⟩).2 ?_, ?_⟩
  . exact .port _ rfl (oneLine_zeroPort 4301) (.inr ⟨_, rfl, .rfl⟩) (longPort_zeroPort (by decide))
  . obtain ⟨ruling, hruling⟩ := hreturns.2 (by
      intro count h
      cases h with
      | port s hfield => exact absurd hfield (by decide)
      | number s hfield => exact absurd hfield (by decide))
    exact ⟨ruling, hruling, hmessage ruling hruling⟩

end WireMesh
