import WireMesh.Proofs.Value.Given

/-!
This module contains when two values are equal in the sense of `Value.same`. A plain value equals
itself, and what is read from a value is written as one that equals it.
-/

namespace WireMesh

namespace Value

theorem sameMembers_iff {members others : List (String × Value)}
    : sameMembers members others = true
        ↔
      ∀ entry ∈ members, ∃ w, Entries.get? others entry.1 = some w ∧ entry.2.same w = true := by
  induction members with
  | nil => simp [sameMembers]
  | cons entry rest ih =>
    obtain ⟨key, v⟩ := entry
    rw [sameMembers, Bool.and_eq_true]
    rw [ih]
    rw [List.forall_mem_cons]
    apply and_congr_left
    intro _
    cases Entries.get? others key with
    | none => simp
    | some w => simp

theorem same_object_iff {members others : List (String × Value)}
    : (Value.object members).same (.object others) = true
        ↔
      members.length = others.length
        ∧ ∀ entry ∈ members, ∃ w, Entries.get? others entry.1 = some w
            ∧ entry.2.same w = true := by
  rw [same, Bool.and_eq_true, beq_iff_eq]
  rw [sameMembers_iff]

-- The proofs follow the recursion of `isPlain`: a value, the items of a list, the members of an
-- object.
mutual

theorem same_self {v : Value} (h : v.isPlain = true) : v.same v = true := by
  cases v with
  | list items => exact sameItems_self h
  | object members =>
    rw [isPlain, Bool.and_eq_true, decide_eq_true_eq] at h
    rw [same_object_iff]
    refine ⟨rfl, ?_⟩
    intro entry hentry
    exact ⟨entry.2, (Entries.get?_eq_some_iff h.1).2 hentry, same_self_of_mem h.2 entry hentry⟩
  | null => rfl
  | bool b => exact beq_self_eq_true _
  | int n => exact beq_self_eq_true _
  | real x => exact beq_self_eq_true _
  | text s => exact beq_self_eq_true _
  | _ => cases h
termination_by structural v

theorem sameItems_self {items : List Value} (h : arePlain items = true)
    : sameItems items items = true := by
  cases items with
  | nil => rfl
  | cons v rest =>
    rw [arePlain, Bool.and_eq_true] at h
    rw [sameItems, Bool.and_eq_true]
    exact ⟨same_self h.1, sameItems_self h.2⟩
termination_by structural items

theorem same_self_of_mem {members : List (String × Value)} (h : haveMembersPlain members = true)
    : ∀ entry ∈ members, entry.2.same entry.2 = true := by
  cases members with
  | nil => simp
  | cons entry rest =>
    rw [haveMembersPlain, Bool.and_eq_true] at h
    rw [List.forall_mem_cons]
    exact ⟨same_self h.1, same_self_of_mem h.2⟩
termination_by structural members

end

theorem same_text_of_text? {v : Value} {s : String} (h : v.text? = some s)
    : v.same (.text s) = true := by
  cases v with
  | text t => exact beq_iff_eq.2 h
  | mobility m => exact beq_iff_eq.2 h
  | _ => cases h

theorem same_int_of_number? {v : Value} {n : Int} (h : v.number? = some (n : Rat))
    : v.same (.int n) = true := by
  cases v with
  | bool b => exact beq_iff_eq.2 h
  | int m => exact beq_iff_eq.2 h
  | real x => exact beq_iff_eq.2 h
  | _ => cases h

theorem same_of_readContent {v : Value} {content : OverrideValue}
    (h : v.readContent = .ok content) : v.same content.toValue = true := by
  cases content with
  | number n => exact same_int_of_number? (number?_of_readContent h)
  | text s => exact same_text_of_text? (text?_of_readContent h)

end Value

theorem Override.same_of_ofValue {b : Bool} {value : Value} {o : Override}
    (h : ofValue (.pair (.bool b) value) = .ok o)
    : (Value.pair (.bool b) value).same o.toValue = true := by
  obtain ⟨hflag, hvalue⟩ := ofMembers_pair_eq_ok_iff.1 h
  cases hflag
  unfold Value.pair toValue
  rw [Value.same_object_iff]
  refine ⟨rfl, ?_⟩
  simp only [List.forall_mem_cons]
  exact ⟨⟨_, rfl, beq_self_eq_true _⟩, ⟨_, rfl, Value.same_of_readContent hvalue⟩,
    List.forall_mem_nil _⟩

end WireMesh
