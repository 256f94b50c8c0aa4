import WireMesh.Proofs.Field.Stable

/-!
This module contains the check of all hooks at once as the check of one hook after the other. A
group of hooks is accepted if and only if every hook is there and accepted by its own field, and no
member of the group, whether it is a hook or not, carries a text of more than one line. If it is not
accepted, the first hook that is absent or not accepted says why.
-/

namespace WireMesh

open Text Value

namespace Value

def Carries (v : Value) (s : String) : Prop :=
  v = .text s
    ∨ ∃ b members, v = .object members
      ∧ members.Perm [("enabled", .bool b), ("value", .text s)]

def Nests (v : Value) : Prop :=
  ∃ members, v = .object members ∧ ¬ (Entries.keys members).Perm ["enabled", "value"]

def IsScript (v : Value) : Prop :=
  ∃ s body blanks, v = .text s ∧ OneLine s ∧ s.toList = body ++ ';' :: blanks
    ∧ ∀ c ∈ blanks, c = ' ' ∨ c = '\t'

end Value

section Shape

variable {v : Value} {members : List (String × Value)}

theorem Field.pair?_eq_none_iff (h : (Entries.keys members).Nodup)
    : pair? members = none ↔ ¬ (Entries.keys members).Perm ["enabled", "value"] := by
  rw [← Option.not_isSome_iff_eq_none, not_iff_not]
  constructor
  . intro hpair
    obtain ⟨⟨flag, value⟩, hpair⟩ := Option.isSome_iff_exists.1 hpair
    exact ((pair?_eq_some_iff h).1 hpair).map Prod.fst
  . intro hperm
    have hget : ∀ key ∈ ["enabled", "value"], ∃ w, Entries.get? members key = some w := by
      intro key hkey
      exact Entries.mem_keys_iff.1 (hperm.mem_iff.2 hkey)
    obtain ⟨flag, hflag⟩ := hget "enabled" (by decide)
    obtain ⟨value, hvalue⟩ := hget "value" (by decide)
    unfold pair?
    rw [hflag, hvalue]
    dsimp only
    rw [if_pos]
    . rfl
    . rw [List.all_eq_true]
      intro key hkey
      simpa using hperm.mem_iff.1 hkey

theorem Field.ofValue?_object_eq_group_iff (h : (Entries.keys members).Nodup)
    : ofValue? (.object members) = some (.group members)
        ↔
      ¬ (Entries.keys members).Perm ["enabled", "value"] := by
  rw [← pair?_eq_none_iff h]
  change ofMembers? members = _ ↔ _
  unfold ofMembers?
  split
  . next hpair => simp [hpair]
  . next hpair => simp [hpair]
  . next hpair => simp [hpair]

theorem Value.carries_iff (hplain : v.isPlain = true) {s : String}
    : v.Carries s ↔ ∃ f w, Field.ofValue? v = some f ∧ f.content? = some w ∧ w.text? = some s := by
  constructor
  . rintro (rfl | ⟨b, members, hpair⟩)
    . exact ⟨_, _, rfl, rfl, rfl⟩
    . exact ⟨_, _, (Field.ofValue?_eq_toggle_iff hplain).2 ⟨members, hpair⟩, rfl, rfl⟩
  . rintro ⟨f, w, hf, hw, hs⟩
    cases f with
    | group members => cases hw
    | text t =>
      cases hw
      cases hs
      exact .inl ((Field.ofValue?_eq_text_iff hplain).1 hf)
    | toggle flag value =>
      cases hw
      obtain ⟨b, rfl⟩ := Field.flag_of_isPlain hplain hf
      rw [text?_eq_some_iff (Field.isPlain_of_toggle hplain hf)] at hs
      rw [hs] at hf
      exact .inr ⟨b, (Field.ofValue?_eq_toggle_iff hplain).1 hf⟩

theorem Value.hasLineBreak_eq_false_iff {w : Value}
    : w.hasLineBreak = false ↔ ∀ s, w.text? = some s → OneLine s := by
  unfold hasLineBreak
  split
  . next s hs =>
    rw [any_isLineBreak_eq_false_iff]
    simp [hs]
  . next hs => simp [hs]

theorem Field.hasLineBreak_group_iff (hplain : ∀ entry ∈ members, entry.2.isPlain = true)
    : (group members).hasLineBreak = false
        ↔
      ∀ entry ∈ members, ∀ s, entry.2.Carries s → OneLine s := by
  change members.any _ = false ↔ _
  rw [List.any_eq_false]
  apply forall₂_congr
  intro entry hentry
  simp only [Value.carries_iff (hplain entry hentry)]
  cases hf : ofValue? entry.2 with
  | none => simp
  | some f =>
    cases hw : f.content? with
    | none => simp [hw]
    | some w =>
      simp only [Option.bind_some, hw, Option.any_some, Bool.not_eq_true]
      rw [Value.hasLineBreak_eq_false_iff]
      simp [hw]

end Shape

section Script

variable {v : Value}

theorem ToggleRule.isScript_iff {cs : List Char}
    : isScript cs = true
        ↔
      cs.any isLineBreak = false
        ∧ ∃ body blanks, cs = body ++ ';' :: blanks ∧ ∀ c ∈ blanks, c = ' ' ∨ c = '\t' := by
  unfold isScript
  rw [Bool.and_eq_true, Bool.not_eq_true', beq_iff_eq]
  apply and_congr_right
  intro _
  constructor
  . intro hhead
    obtain ⟨front, hfront⟩ := List.head?_eq_some_iff.1 hhead
    obtain ⟨blanks, hsplit, hblanks⟩ : ∃ blanks, blanks ++ ';' :: front = cs.reverse
        ∧ ∀ c ∈ blanks, c = ' ' ∨ c = '\t' := by
      rw [← hfront]
      refine ⟨_, List.takeWhile_append_dropWhile, ?_⟩
      intro c hc
      simpa using List.all_eq_true.1 List.all_takeWhile c hc
    refine ⟨front.reverse, blanks.reverse, ?_, ?_⟩
    . rw [← List.reverse_inj, ← hsplit]
      simp
    . simpa using hblanks
  . rintro ⟨body, blanks, rfl, hblanks⟩
    rw [List.reverse_append, List.reverse_cons, List.append_assoc]
    rw [List.dropWhile_append_of_pos (by simpa using hblanks)]
    rfl

theorem Value.isScript_iff (hplain : v.isPlain = true)
    : v.IsScript ↔ ∃ s, v.text? = some s ∧ ToggleRule.isScript s.toList = true := by
  simp only [text?_eq_some_iff hplain, ToggleRule.isScript_iff, any_isLineBreak_eq_false_iff]
  constructor
  . rintro ⟨s, body, blanks, hv, hone, hs, hblanks⟩
    exact ⟨s, hv, hone, body, blanks, hs, hblanks⟩
  . rintro ⟨s, hv, hone, body, blanks, hs, hblanks⟩
    exact ⟨s, body, blanks, hv, hone, hs, hblanks⟩

theorem ToggleRule.accept?_script_iff {normal : Value}
    : script.accept? v = .ok (some normal)
        ↔
      (∃ s, v.text? = some s ∧ isScript s.toList = true) ∧ v = normal := by
  unfold accept?
  simp [Option.any_eq_true]

end Script

section Hooks

variable {members : List (String × Value)} {context : Option Context} {hook : Hook} {v : Value}

def HookAccepted (members : List (String × Value)) (context : Option Context) (hook : Hook)
    : Prop :=
  ∃ v, Entries.get? members hook.key = some v ∧ Accepts hook.key v context

/--
What a complaint says if a hook is absent or its field does not accept it. In the second case it is
the message of that field, unless the hook is an object of another shape.
-/
inductive HookFault (members : List (String × Value)) (context : Option Context) (hook : Hook)
    (complaint : Complaint) : Prop where
  | absent (h : Entries.get? members hook.key = none)
    (hmessage : complaint.message = "scripts must include '" ++ hook.key ++ "'")
  | rejected (v : Value) (h : Entries.get? members hook.key = some v)
    (hnot : ¬ Accepts hook.key v context)
    (hmessage : ¬ v.Nests → ∃ own reported,
      validate hook.key v context = .ok (.rejected own reported)
        ∧ complaint.message = own.message)

theorem Field.hasLineBreak_content? (hplain : v.isPlain = true)
    (hone : ∀ s, v.Carries s → OneLine s) {f : Field} (hf : ofValue? v = some f) {w : Value}
    (hw : f.content? = some w) : w.hasLineBreak = false := by
  rw [hasLineBreak_eq_false_iff]
  intro s hs
  exact hone s ((carries_iff hplain).2 ⟨f, w, hf, hw, hs⟩)

theorem Field.hasLineBreak_of_not_nests (hplain : v.isPlain = true)
    (hone : ∀ s, v.Carries s → OneLine s) (hnests : ¬ v.Nests) {f : Field}
    (hf : ofValue? v = some f) : f.hasLineBreak = false := by
  cases f with
  | text s => exact hasLineBreak_content? hplain hone hf rfl
  | toggle flag value => exact hasLineBreak_content? hplain hone hf rfl
  | group inner =>
    obtain ⟨hkeys, -⟩ := isPlain_group hplain hf
    obtain rfl := eq_object_of_isPlain hplain hf
    exact (hnests ⟨inner, rfl, (ofValue?_object_eq_group_iff hkeys).1 hf⟩).elim

theorem accepts_hook_iff (hplain : v.isPlain = true) (hone : ∀ s, v.Carries s → OneLine s)
    : Accepts hook.key v context
        ↔
      ∃ f reported, Field.ofValue? v = some f
        ∧ ToggleRule.script.apply f = .ok (.accepted reported) := by
  -- The field of a hook looks for line breaks first, the check of the group has done so before.
  constructor
  . rintro ⟨reported, h⟩
    obtain ⟨_, f, hrule, hf, -, happly⟩ := validate_eq_accepted_iff.1 h
    rw [Rule.ofField?_key] at hrule
    cases hrule
    exact ⟨f, reported, hf, happly⟩
  . rintro ⟨f, reported, hf, happly⟩
    rw [accepts_iff (Rule.ofField?_key hook) hf]
    refine ⟨?_, reported, happly⟩
    obtain ⟨⟨flag, value, rfl⟩, -⟩ := ToggleRule.script_apply_eq_accepted happly
    exact Field.hasLineBreak_content? hplain hone hf rfl

namespace Rule

theorem applyHooks_cons_of_accepted (h : HookAccepted members context hook) (rest : List Hook)
    : applyHooks members (hook :: rest) = applyHooks members rest := by
  obtain ⟨v, hv, reported, haccepts⟩ := h
  obtain ⟨_, f, hrule, hf, -, happly⟩ := validate_eq_accepted_iff.1 haccepts
  rw [ofField?_key] at hrule
  cases hrule
  rw [apply_toggle] at happly
  rw [applyHooks]
  simp only [hv, hf, happly]

theorem applyHooks_cons_of_not_accepted (hplain : ∀ entry ∈ members, entry.2.isPlain = true)
    (hone : ∀ entry ∈ members, ∀ s, entry.2.Carries s → OneLine s)
    (h : ¬ HookAccepted members context hook) (rest : List Hook)
    : ∃ complaint reported, applyHooks members (hook :: rest) = .ok (.rejected complaint reported)
        ∧ HookFault members context hook complaint := by
  rw [applyHooks]
  cases hv : Entries.get? members hook.key with
  | none => exact ⟨_, _, rfl, .absent hv rfl⟩
  | some v =>
    have hmem := Entries.mem_of_get?_eq_some hv
    have hnot : ¬ Accepts hook.key v context := fun haccepts => h ⟨v, hv, haccepts⟩
    have hrejected := hnot
    rw [accepts_hook_iff (hplain _ hmem) (hone _ hmem)] at hrejected
    dsimp only
    cases hf : Field.ofValue? v with
    | none =>
      refine ⟨_, _, rfl, .rejected v hv hnot fun _ => ⟨.badShape, .null, ?_, rfl⟩⟩
      unfold validate
      rw [ofField?_key]
      dsimp only
      rw [hf]
    | some f =>
      dsimp only
      cases happly : ToggleRule.script.apply f with
      | error e => exact absurd happly (by simp [toggleRule_apply_eq_error_iff])
      | ok ruling =>
        cases ruling with
        | accepted reported => exact absurd ⟨f, reported, hf, happly⟩ hrejected
        | rejected complaint reported =>
          refine ⟨_, _, rfl, .rejected v hv hnot fun hnests => ⟨complaint, reported, ?_, rfl⟩⟩
          have hbreak := Field.hasLineBreak_of_not_nests (hplain _ hmem) (hone _ hmem) hnests hf
          unfold validate
          rw [ofField?_key]
          dsimp only
          rw [hf]
          dsimp only
          rw [hbreak]
          exact happly

theorem applyHooks_of_not_all_accepted (hplain : ∀ entry ∈ members, entry.2.isPlain = true)
    (hone : ∀ entry ∈ members, ∀ s, entry.2.Carries s → OneLine s) {hooks : List Hook}
    (h : ¬ ∀ hook ∈ hooks, HookAccepted members context hook)
    : ∃ complaint reported before hook after,
        applyHooks members hooks = .ok (.rejected complaint reported)
          ∧ hooks = before ++ hook :: after
          ∧ (∀ earlier ∈ before, HookAccepted members context earlier)
          ∧ HookFault members context hook complaint := by
  -- The induction is on the hooks that are left. Those before the first fault make no difference.
  induction hooks with
  | nil => exact (h (by simp)).elim
  | cons hook rest ih =>
    by_cases hhook : HookAccepted members context hook
    . rw [List.forall_mem_cons, not_and] at h
      obtain ⟨complaint, reported, before, later, after, happly, rfl, hbefore, hfault⟩ :=
        ih (h hhook)
      refine ⟨complaint, reported, hook :: before, later, after, ?_, rfl, ?_, hfault⟩
      . rw [applyHooks_cons_of_accepted hhook]
        exact happly
      . exact List.forall_mem_cons.2 ⟨hhook, hbefore⟩
    . obtain ⟨complaint, reported, happly, hfault⟩ :=
        applyHooks_cons_of_not_accepted hplain hone hhook rest
      exact ⟨complaint, reported, [], hook, rest, happly, rfl, by simp, hfault⟩

theorem applyHooks_of_all_accepted {hooks : List Hook}
    (h : ∀ hook ∈ hooks, HookAccepted members context hook)
    : applyHooks members hooks = .ok (.accepted (Field.group members).toPlain) := by
  induction hooks with
  | nil => rfl
  | cons hook rest ih =>
    rw [List.forall_mem_cons] at h
    rw [applyHooks_cons_of_accepted h.1]
    exact ih h.2

end Rule

theorem validate_scripts_group (hf : Field.ofValue? v = some (.group members))
    (hbreak : (Field.group members).hasLineBreak = false)
    : validate "scripts" v context = Rule.applyHooks members Hook.all := by
  have hrule : Rule.ofField? "scripts" = some .hooks := rfl
  unfold validate
  rw [hrule]
  dsimp only
  rw [hf]
  dsimp only
  rw [hbreak]
  rfl

theorem accepts_scripts_iff (hplain : (Value.object members).isPlain = true)
    : Accepts "scripts" (.object members) context
        ↔
      (∀ hook, HookAccepted members context hook)
        ∧ ∀ entry ∈ members, ∀ s, entry.2.Carries s → OneLine s := by
  obtain ⟨hkeys, hmembers⟩ := isPlain_object_iff.1 hplain
  rw [← Field.hasLineBreak_group_iff hmembers]
  constructor
  . intro h
    obtain ⟨reported, hreported⟩ := h
    obtain ⟨inner, hf, -, hall⟩ := reported_group hreported
    cases Field.eq_object_of_isPlain hplain hf
    constructor
    . intro hook
      obtain ⟨w, hw, haccepted⟩ := hall hook
      exact ⟨w, hw, _, haccepted⟩
    . obtain ⟨_, _, -, hf', hbreak, -⟩ := validate_eq_accepted_iff.1 hreported
      rw [hf] at hf'
      cases hf'
      exact hbreak
  . rintro ⟨hall, hbreak⟩
    -- The key of a hook is neither of the two of a pair.
    have hf : Field.ofValue? (.object members) = some (.group members) := by
      rw [Field.ofValue?_object_eq_group_iff hkeys]
      intro hperm
      obtain ⟨w, hw, -⟩ := hall .preUp
      have hkey := hperm.mem_iff.1 (Entries.mem_keys_of_get?_eq_some hw)
      revert hkey
      decide
    refine ⟨(Field.group members).toPlain, ?_⟩
    rw [validate_scripts_group hf hbreak]
    exact Rule.applyHooks_of_all_accepted fun hook _ => hall hook

theorem accepts_hook_iff_isScript (hplain : v.isPlain = true) {content : Value}
    (hon : v.SwitchesOn content) : Accepts hook.key v context ↔ content.IsScript := by
  have hf : Field.ofValue? v = some (.toggle (.bool true) content) :=
    (Field.ofValue?_eq_toggle_iff hplain).2 hon
  have hcontent := Field.isPlain_of_toggle hplain hf
  rw [accepts_iff (Rule.ofField?_key hook) hf]
  rw [isScript_iff hcontent]
  constructor
  . rintro ⟨-, reported, happly⟩
    rw [Rule.apply_toggle] at happly
    obtain ⟨_, _, hshape, hnormal⟩ := ToggleRule.apply_eq_accepted_iff.1 happly
    cases hshape
    obtain ⟨normal, haccept, -⟩ := hnormal
    exact (ToggleRule.accept?_script_iff.1 haccept).1
  . intro hscript
    constructor
    . obtain ⟨s, hs, hscript⟩ := hscript
      change content.hasLineBreak = false
      unfold hasLineBreak
      rw [hs]
      exact (ToggleRule.isScript_iff.1 hscript).1
    . refine ⟨.pair (.bool true) content, ?_⟩
      rw [Rule.apply_toggle, ToggleRule.apply_eq_accepted_iff]
      exact ⟨_, _, rfl, content, ToggleRule.accept?_script_iff.2 ⟨hscript, rfl⟩, rfl⟩

end Hooks

theorem validate_scripts_hookByHook {members : List (String × Value)}
    (hplain : (Value.object members).isPlain = true) (context : Option Context)
    : (Accepts "scripts" (.object members) context
          ↔
        (∀ hook : Hook, HookAccepted members context hook)
          ∧ ∀ entry ∈ members, ∀ s, entry.2.Carries s → OneLine s)
        ∧ ((∀ entry ∈ members, ∀ s, entry.2.Carries s → OneLine s)
          → ¬ Accepts "scripts" (.object members) context
          → ¬ (Entries.keys members).Perm ["enabled", "value"]
          → ∃ complaint reported before hook after,
              validate "scripts" (.object members) context = .ok (.rejected complaint reported)
                ∧ Hook.all = before ++ hook :: after
                ∧ (∀ earlier ∈ before, HookAccepted members context earlier)
                ∧ HookFault members context hook complaint)
        ∧ ∀ (hook : Hook) (v content : Value), Entries.get? members hook.key = some v
          → v.SwitchesOn content → (Accepts hook.key v context ↔ content.IsScript) := by
  obtain ⟨hkeys, hmembers⟩ := isPlain_object_iff.1 hplain
  refine ⟨accepts_scripts_iff hplain, ?_, ?_⟩
  . intro hone hnot hpair
    rw [accepts_scripts_iff hplain] at hnot
    rw [validate_scripts_group ((Field.ofValue?_object_eq_group_iff hkeys).2 hpair)
      ((Field.hasLineBreak_group_iff hmembers).2 hone)]
    apply Rule.applyHooks_of_not_all_accepted hmembers hone
    exact fun hall => hnot ⟨fun hook => hall hook hook.mem_all, hone⟩
  . intro hook v content hv hon
    exact accepts_hook_iff_isScript (hmembers _ (Entries.mem_of_get?_eq_some hv)) hon

def unfinishedHooks : List (String × Value) :=
  [("post_up", .pair (.bool true) (.text "ip link set wg0 up")),
   ("note", .pair (.bool true) (.text "not a hook")),
   ("pre_up", .pair (.bool true) (.text "sysctl -w net.ipv4.ip_forward=1; \t")),
   ("pre_down", .text "no pair")]

theorem validate_scripts_hookByHook_unfinishedHooks
    : (Value.object unfinishedHooks).isPlain = true
        ∧ (∀ entry ∈ unfinishedHooks, ∀ s, entry.2.Carries s → OneLine s)
        ∧ ¬ Accepts "scripts" (.object unfinishedHooks) none
        ∧ (∃ reported before hook after, validate "scripts" (.object unfinishedHooks) none
              = .ok (.rejected .notScript reported)
            ∧ Hook.all = before ++ hook :: after
            ∧ (∀ earlier ∈ before, HookAccepted unfinishedHooks none earlier)
            ∧ HookFault unfinishedHooks none hook .notScript)
        ∧ Accepts "pre_up" (.pair (.bool true) (.text "sysctl -w net.ipv4.ip_forward=1; \t")) none
        := by
  have hplain : (Value.object unfinishedHooks).isPlain = true := rfl
  have hone : ∀ entry ∈ unfinishedHooks, ∀ s, entry.2.Carries s → OneLine s :=
    (Field.hasLineBreak_group_iff (isPlain_object_iff.1 hplain).2).1 rfl
  obtain ⟨-, hfirst, hscript⟩ := validate_scripts_hookByHook hplain none
  have hnot : ¬ Accepts "scripts" (.object unfinishedHooks) none := by
    rintro ⟨reported, h⟩
    cases h
  obtain ⟨complaint, reported, before, hook, after, hvalidate, hall, hbefore, hfault⟩ :=
    hfirst hone hnot (fun hperm => absurd hperm.length_eq (by decide))
  cases hvalidate
  refine ⟨hplain, hone, hnot, ⟨_, before, hook, after, rfl, hall, hbefore, hfault⟩, ?_⟩
  refine (hscript .preUp _ _ rfl ⟨_, rfl, .rfl⟩).2 ?_
  exact ⟨_, "sysctl -w net.ipv4.ip_forward=1".toList, [' ', '\t'], rfl, by decide, rfl, by simp⟩

end WireMesh
