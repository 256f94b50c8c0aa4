import WireMesh.Proofs.Value.Same

/-!
This module contains when two values are the same but for the order of the members of objects. This
is finer than equality in the sense of `Value.same`, which takes the number one for true: what is
rearranged has the same texts, numbers and truth values in the same places.
-/

namespace WireMesh.Value

/--
Whether two values are the same but for the order in which objects, and objects inside of objects,
hold their members. What stands in a list is the same.
-/
inductive Rearranged : Value → Value → Prop where
  | refl (v : Value) : Rearranged v v
  | object {members others : List (String × Value)}
      (keys : (Entries.keys members).Perm (Entries.keys others))
      (values : ∀ key v w, Entries.get? members key = some v → Entries.get? others key = some w
        → Rearranged v w)
      : Rearranged (.object members) (.object others)

namespace Rearranged

variable {members others : List (String × Value)}

theorem of_perm (h : members.Perm others) (hkeys : (Entries.keys others).Nodup)
    : (Value.object members).Rearranged (.object others) := by
  apply object (h.map Prod.fst)
  intro key v w hv hw
  have hmem := h.mem_iff.1 (Entries.mem_of_get?_eq_some hv)
  rw [← Entries.get?_eq_some_iff hkeys, hw] at hmem
  cases hmem
  exact refl v

theorem same {v w : Value} (h : v.Rearranged w) (hplain : w.isPlain = true) : v.same w = true := by
  induction h with
  | refl v => exact same_self hplain
  | @object members others hkeys _ ih =>
    obtain ⟨hnodup, hothers⟩ := isPlain_object_iff.1 hplain
    rw [same_object_iff]
    constructor
    . simpa [Entries.keys] using hkeys.length_eq
    . rintro ⟨key, v⟩ hmem
      have hv := (Entries.get?_eq_some_iff (hkeys.nodup_iff.2 hnodup)).2 hmem
      have hkey := hkeys.mem_iff.1 (Entries.mem_keys_of_get?_eq_some hv)
      obtain ⟨w, hw⟩ := Entries.mem_keys_iff.1 hkey
      exact ⟨w, hw, ih key v w hv hw (hothers _ (Entries.mem_of_get?_eq_some hw))⟩

end Rearranged

end WireMesh.Value
