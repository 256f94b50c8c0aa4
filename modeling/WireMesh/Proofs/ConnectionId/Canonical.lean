import WireMesh.ConnectionId.Reading
import WireMesh.Proofs.Field.Reported
import WireMesh.Proofs.Text.Joined

/-!
This module contains what the two forms of a connection id have in common. The wire form is put
together without a check and cut at its separator; the checked id holds the two peer ids sorted. For
peer ids without the separator they stand for the same unordered pair, and for all others both fail.
-/

namespace WireMesh

namespace ConnectionId

def sorted (a b : String) : String × String :=
  if b < a then (a, b) else (b, a)

theorem sorted_comm (a b : String) : sorted a b = sorted b a := by
  unfold sorted
  split
  . next hlt => rw [if_neg (String.lt_asymm hlt)]
  . next hle =>
    split
    . rfl
    . next hge =>
      rw [String.le_antisymm (String.not_lt.1 hle) (String.not_lt.1 hge)]

theorem sorted_of_le {a b : String} (h : b ≤ a) : sorted a b = (a, b) := by
  unfold sorted
  split
  . rfl
  . next hle => rw [String.le_antisymm h (String.not_lt.1 hle)]

theorem sorted_eq_iff {a b c d : String}
    : sorted a b = sorted c d ↔ (a = c ∧ b = d) ∨ (a = d ∧ b = c) := by
  constructor
  . intro h
    unfold sorted at h
    split at h
    . split at h
      . exact .inl (Prod.mk.inj h)
      . exact .inr (Prod.mk.inj h)
    . split at h
      . exact .inr (Prod.mk.inj h).symm
      . exact .inl (Prod.mk.inj h).symm
  . rintro (⟨rfl, rfl⟩ | ⟨rfl, rfl⟩)
    . rfl
    . exact sorted_comm _ _

theorem canonicalWire_eq_join (a b : String)
    : canonicalWire a b = join (sorted a b).1 (sorted a b).2 := by
  unfold canonicalWire sorted
  split
  . rfl
  . rfl

theorem toList_join (a b : String) : (join a b).toList = a.toList ++ '*' :: b.toList := by
  unfold join
  simp

theorem splitWire?_eq_some_iff {wire a b : String}
    : splitWire? wire = some (a, b)
        ↔
      wire = join a b ∧ '*' ∉ a.toList ∧ '*' ∉ b.toList := by
  unfold splitWire? separator
  constructor
  . intro h
    split at h
    . next before after hsplit =>
      cases h
      rw [Text.splitOn_eq_pair_iff] at hsplit
      rw [String.toList_ofList, String.toList_ofList]
      refine ⟨?_, hsplit.2⟩
      rw [String.ext_iff]
      rw [toList_join]
      rw [String.toList_ofList, String.toList_ofList]
      exact hsplit.1
    . cases h
  . rintro ⟨rfl, ha, hb⟩
    have hsplit := Text.splitOn_eq_pair_iff.2 ⟨toList_join a b, ha, hb⟩
    rw [hsplit]
    dsimp only
    rw [String.ofList_toList, String.ofList_toList]

theorem exists_join_iff {wire : String}
    : (∃ a b, wire = join a b ∧ '*' ∉ a.toList ∧ '*' ∉ b.toList) ↔ wire.toList.count '*' = 1 := by
  constructor
  . rintro ⟨a, b, rfl, ha, hb⟩
    rw [toList_join]
    rw [List.count_append]
    rw [List.count_cons_self]
    rw [List.count_eq_zero.2 ha]
    rw [List.count_eq_zero.2 hb]
  . intro hcount
    have hlength : (wire.toList.splitOn '*').length = 2 := by
      rw [Text.length_splitOn]
      rw [hcount]
    obtain ⟨before, rest, hsplit⟩ := List.exists_cons_of_length_eq_add_one hlength
    rw [hsplit] at hlength
    obtain ⟨after, rfl⟩ := List.length_eq_one_iff.1 (Nat.succ.inj hlength)
    obtain ⟨heq, hbefore, hafter⟩ := Text.splitOn_eq_pair_iff.1 hsplit
    have hwire : wire = join (String.ofList before) (String.ofList after) := by
      apply String.toList_injective
      rw [toList_join]
      rw [String.toList_ofList, String.toList_ofList]
      exact heq
    rw [← String.toList_ofList (l := before)] at hbefore
    rw [← String.toList_ofList (l := after)] at hafter
    exact ⟨_, _, hwire, hbefore, hafter⟩

theorem splitWire?_join_eq_none_iff {a b : String}
    : splitWire? (join a b) = none ↔ '*' ∈ a.toList ∨ '*' ∈ b.toList := by
  constructor
  . intro h
    rw [Decidable.or_iff_not_not_and_not]
    intro hfree
    have hsome := splitWire?_eq_some_iff.2 ⟨rfl, hfree⟩
    rw [h] at hsome
    cases hsome
  . intro h
    rw [Option.eq_none_iff_forall_ne_some]
    rintro ⟨c, d⟩ hsome
    obtain ⟨hjoin, hc, hd⟩ := splitWire?_eq_some_iff.1 hsome
    -- The text has a separator more than its one on the left-hand side.
    have hcount := congrArg (List.count '*') (congrArg String.toList hjoin)
    rw [toList_join, toList_join] at hcount
    rw [List.count_append, List.count_cons_self, List.count_append, List.count_cons_self] at hcount
    rw [List.count_eq_zero.2 hc, List.count_eq_zero.2 hd] at hcount
    rw [← List.count_pos_iff, ← List.count_pos_iff] at h
    omega

theorem ofPeers_eq_ok_iff {a b : String} {id : ConnectionId}
    : ofPeers a b = .ok id
        ↔
      '*' ∉ a.toList ∧ '*' ∉ b.toList ∧ id.peers = sorted a b := by
  obtain ⟨greater, lesser, hle, hgreater, hlesser⟩ := id
  unfold ofPeers peers
  split
  . next ha => simp [ha]
  . next ha =>
    split
    . next hb => simp [hb]
    . next hb =>
      split
      . next hlt =>
        rw [sorted_comm]
        rw [sorted_of_le (String.not_lt.1 (String.lt_asymm hlt))]
        simp [ha, hb, eq_comm]
      . next hle =>
        rw [sorted_of_le (String.not_lt.1 hle)]
        simp [ha, hb, eq_comm]

theorem exists_ofPeers {a b : String} (ha : '*' ∉ a.toList) (hb : '*' ∉ b.toList)
    : ∃ id, ofPeers a b = .ok id := by
  unfold ofPeers
  rw [dif_neg ha]
  rw [dif_neg hb]
  split
  . exact ⟨_, rfl⟩
  . exact ⟨_, rfl⟩

theorem ofPeers_of_mem {a b : String} (h : '*' ∈ a.toList ∨ '*' ∈ b.toList)
    : ofPeers a b = .error (.separatorInPeer (if '*' ∈ a.toList then a else b)) := by
  unfold ofPeers
  split
  . rfl
  . next ha => rw [dif_pos (h.resolve_left ha)]

theorem ofWire_eq_ok_iff {wire : String} {id : ConnectionId}
    : ofWire wire = .ok id ↔ ∃ a b, wire = join a b ∧ ofPeers a b = .ok id := by
  unfold ofWire
  constructor
  . intro h
    split at h
    . next a b hsplit => exact ⟨a, b, (splitWire?_eq_some_iff.1 hsplit).1, h⟩
    . cases h
  . rintro ⟨a, b, rfl, hid⟩
    obtain ⟨ha, hb, -⟩ := ofPeers_eq_ok_iff.1 hid
    rw [splitWire?_eq_some_iff.2 ⟨rfl, ha, hb⟩]
    exact hid

theorem checked_eq_ok_iff {outcome : Except Error ConnectionId} {id : ConnectionId}
    : checked outcome = .ok id ↔ outcome = .ok id := by
  unfold checked
  cases outcome with
  | error error => simp [Checked.fault]
  | ok id => simp

theorem ofMembers_eq_ok_iff {members : List (String × Value)} {id : ConnectionId}
    : ofMembers members = .ok id
        ↔
      ∃ v w a b, Entries.get? members "a" = some v ∧ Entries.get? members "b" = some w
        ∧ v.display = .ok a ∧ w.display = .ok b ∧ ofPeers a b = .ok id := by
  constructor
  . intro h
    unfold ofMembers at h
    split at h
    . next v w hv hw =>
      split at h
      . next a b ha hb => exact ⟨v, w, a, b, hv, hw, ha, hb, checked_eq_ok_iff.1 h⟩
      . cases h
      . cases h
    . next habsent =>
      -- One of the two is absent, so they are not both read.
      split at h
      . next outcome hread =>
        simp only [Checked.seq_eq_ok_iff, Checked.map_eq_ok_iff] at hread
        obtain ⟨_, _, ⟨_, ha, -⟩, hb, -⟩ := hread
        obtain ⟨v, hv, -⟩ := Members.required_eq_ok_iff.1 ha
        obtain ⟨w, hw, -⟩ := Members.required_eq_ok_iff.1 hb
        exact (habsent v w hv hw).elim
      . cases h
  . rintro ⟨v, w, a, b, hv, hw, ha, hb, hid⟩
    unfold ofMembers
    rw [hv, hw]
    dsimp only
    rw [ha, hb]
    exact checked_eq_ok_iff.2 hid

/--
Whether a value names two peers: as a wire form, or as the members of an object by the texts that
display them.
-/
inductive Names : Value → String → String → Prop where
  | wire {v : Value} {a b : String} (h : v.text? = some (join a b)) : Names v a b
  | members {v a b : Value} {members : List (String × Value)} {s t : String}
      (h : v.members? = some members) (ha : Entries.get? members "a" = some a)
      (hb : Entries.get? members "b" = some b) (hs : a.display = .ok s) (ht : b.display = .ok t)
      : Names v s t

theorem ofValue_eq_ok_iff {v : Value} {id : ConnectionId}
    : ofValue v = .ok id ↔ ∃ a b, Names v a b ∧ ofPeers a b = .ok id := by
  unfold ofValue
  constructor
  . intro h
    split at h
    . next wire hwire =>
      rw [checked_eq_ok_iff] at h
      obtain ⟨a, b, rfl, hid⟩ := ofWire_eq_ok_iff.1 h
      exact ⟨a, b, .wire hwire, hid⟩
    . unfold Value.readModel at h
      split at h
      . next members hmembers =>
        obtain ⟨v, w, a, b, hv, hw, ha, hb, hid⟩ := ofMembers_eq_ok_iff.1 h
        exact ⟨a, b, .members hmembers hv hw ha hb, hid⟩
      . cases h
  . rintro ⟨a, b, hnames, hid⟩
    cases hnames with
    | wire hwire =>
      rw [hwire]
      dsimp only
      rw [checked_eq_ok_iff]
      exact ofWire_eq_ok_iff.2 ⟨a, b, rfl, hid⟩
    | members hmembers hv hw ha hb =>
      have htext : v.text? = none := by
        cases v with
        | text s => cases hmembers
        | mobility m => cases hmembers
        | _ => rfl
      rw [htext]
      dsimp only
      unfold Value.readModel
      rw [hmembers]
      exact ofMembers_eq_ok_iff.2 ⟨_, _, _, _, hv, hw, ha, hb, hid⟩

structure Joins (a b : String) (id : ConnectionId) : Prop where
  peers : id.peers = sorted a b
  wire : id.wire = canonicalWire a b
  peersOfWire : peersOfWire (canonicalWire a b) = .ok (sorted a b)
  ofValue_wire : ofValue (.text (canonicalWire a b)) = .ok id
  ofValue_swapped : ofValue (.text (join (sorted a b).2 (sorted a b).1)) = .ok id
  ofValue_members : ofValue (.object [("a", .text a), ("b", .text b)]) = .ok id

theorem ofPeers_greater_lesser (id : ConnectionId) : ofPeers id.greater id.lesser = .ok id := by
  rw [ofPeers_eq_ok_iff]
  rw [sorted_of_le id.lesser_le]
  exact ⟨id.greater_free, id.lesser_free, rfl⟩

theorem ofPeers_comm_eq_ok_iff {a b : String} {id : ConnectionId}
    : ofPeers a b = .ok id ↔ ofPeers b a = .ok id := by
  rw [ofPeers_eq_ok_iff, ofPeers_eq_ok_iff]
  rw [sorted_comm]
  rw [and_left_comm]

theorem splitWire?_wire (id : ConnectionId) : splitWire? id.wire = some id.peers :=
  splitWire?_eq_some_iff.2 ⟨rfl, id.greater_free, id.lesser_free⟩

theorem joins_of_ofPeers {a b : String} {id : ConnectionId} (h : ofPeers a b = .ok id)
    : Joins a b id := by
  have hpeers := (ofPeers_eq_ok_iff.1 h).2.2
  have hwire : id.wire = canonicalWire a b := by
    rw [canonicalWire_eq_join]
    rw [← hpeers]
    rfl
  refine ⟨hpeers, hwire, ?_, ?_, ?_, ?_⟩
  . unfold ConnectionId.peersOfWire
    rw [← hwire]
    rw [splitWire?_wire]
    rw [hpeers]
  . rw [← hwire]
    rw [ofValue_eq_ok_iff]
    exact ⟨_, _, .wire rfl, ofPeers_greater_lesser id⟩
  . rw [← hpeers]
    rw [ofValue_eq_ok_iff]
    refine ⟨id.lesser, id.greater, .wire rfl, ?_⟩
    rw [ofPeers_comm_eq_ok_iff]
    exact ofPeers_greater_lesser id
  . rw [ofValue_eq_ok_iff]
    exact ⟨_, _, .members rfl rfl rfl rfl rfl, h⟩

theorem canonicalWire_comm (a b : String) : canonicalWire a b = canonicalWire b a := by
  rw [canonicalWire_eq_join, canonicalWire_eq_join]
  rw [sorted_comm]

theorem canonicalWire_eq_iff {a b c d : String} {id other : ConnectionId}
    (h : ofPeers a b = .ok id) (hother : ofPeers c d = .ok other)
    : canonicalWire a b = canonicalWire c d ↔ (a = c ∧ b = d) ∨ (a = d ∧ b = c) := by
  rw [← sorted_eq_iff]
  constructor
  . intro hwire
    have hpeers := (joins_of_ofPeers h).peersOfWire
    rw [hwire] at hpeers
    rw [(joins_of_ofPeers hother).peersOfWire] at hpeers
    exact (Except.ok.inj hpeers).symm
  . intro hsorted
    rw [canonicalWire_eq_join, canonicalWire_eq_join]
    rw [hsorted]

theorem peersOfWire_canonicalWire_of_mem {a b : String} (h : '*' ∈ a.toList ∨ '*' ∈ b.toList)
    : peersOfWire (canonicalWire a b) = .error ⟨canonicalWire a b⟩ := by
  have hnone : splitWire? (canonicalWire a b) = none := by
    unfold canonicalWire
    split
    . exact splitWire?_join_eq_none_iff.2 h
    . exact splitWire?_join_eq_none_iff.2 h.symm
  unfold peersOfWire
  rw [hnone]

end ConnectionId

theorem TextRule.hex_or_hyphen_of_isUuid {cs : List Char} (h : isUuid cs = true) {c : Char}
    (hc : c ∈ cs) : isHexDigit c = true ∨ c = '-' := by
  unfold isUuid at h
  dsimp only at h
  rw [Bool.and_eq_true, List.all_eq_true] at h
  have hjoin : ['-'].intercalate (cs.splitOn '-') = cs := List.intercalate_splitOn '-'
  rw [← hjoin] at hc
  obtain hsep | ⟨group, hgroup, hmem⟩ := Text.mem_intercalate hc
  . exact .inr hsep
  . exact .inl (List.all_eq_true.1 (h.2 group hgroup) c hmem)

theorem Accepts.separator_notMem {field s : String} {context : Option Context}
    (hrule : Rule.ofField? field = some (.text .peerId)) (h : Accepts field (.text s) context)
    : '*' ∉ s.toList := by
  have hcheck := ((accepts_text_iff hrule).1 h).2
  unfold TextRule.check at hcheck
  dsimp only at hcheck
  split at hcheck
  . next huuid =>
    intro hmem
    have := TextRule.hex_or_hyphen_of_isUuid huuid hmem
    revert this
    decide
  . cases hcheck

namespace ConnectionId

theorem canonicalWire_agrees
    : (∀ a b : String, canonicalWire a b = canonicalWire b a)
      ∧ (∀ a b c d : String, (∀ peerId ∈ [a, b, c, d], '*' ∉ peerId.toList)
          → (canonicalWire a b = canonicalWire c d ↔ (a = c ∧ b = d) ∨ (a = d ∧ b = c)))
      ∧ (∀ a b : String, '*' ∉ a.toList → '*' ∉ b.toList
          → ∃ id, ofPeers a b = .ok id ∧ Joins a b id ∧ peersOfWire id.wire = .ok id.peers)
      ∧ (∀ a b : String, '*' ∈ a.toList ∨ '*' ∈ b.toList
          → peersOfWire (canonicalWire a b) = .error ⟨canonicalWire a b⟩
            ∧ ofPeers a b = .error (.separatorInPeer (if '*' ∈ a.toList then a else b)))
      ∧ (∀ (v : Value) (id : ConnectionId), ofValue v = .ok id
          ↔
        ∃ a b, Names v a b ∧ '*' ∉ a.toList ∧ '*' ∉ b.toList ∧ id.peers = sorted a b)
      ∧ (∀ (v : Value) (id : ConnectionId), ofValue v = .ok id
          → id.lesser ≤ id.greater ∧ '*' ∉ id.greater.toList ∧ '*' ∉ id.lesser.toList)
      ∧ ∀ (s : String) (context : Option Context), Accepts "peerId" (.text s) context
          → '*' ∉ s.toList := by
  refine ⟨canonicalWire_comm, ?_, ?_, ?_, ?_, ?_, ?_⟩
  . intro a b c d hfree
    simp only [List.forall_mem_cons] at hfree
    obtain ⟨ha, hb, hc, hd, -⟩ := hfree
    obtain ⟨id, hid⟩ := exists_ofPeers ha hb
    obtain ⟨other, hother⟩ := exists_ofPeers hc hd
    exact canonicalWire_eq_iff hid hother
  . intro a b ha hb
    obtain ⟨id, hid⟩ := exists_ofPeers ha hb
    refine ⟨id, hid, joins_of_ofPeers hid, ?_⟩
    unfold peersOfWire
    rw [splitWire?_wire]
  . intro a b h
    exact ⟨peersOfWire_canonicalWire_of_mem h, ofPeers_of_mem h⟩
  . intro v id
    rw [ofValue_eq_ok_iff]
    simp only [ofPeers_eq_ok_iff]
  . intro v id _
    exact ⟨id.lesser_le, id.greater_free, id.lesser_free⟩
  . intro s context h
    exact h.separator_notMem rfl

def laptopId : String := "a0000000-0000-4000-8000-000000000000"

def officeId : String := "b0000000-0000-4000-8000-000000000000"

theorem canonicalWire_agrees_office
    : (canonicalWire laptopId officeId = canonicalWire officeId laptopId
          ↔
        (laptopId = officeId ∧ officeId = laptopId)
          ∨ (laptopId = laptopId ∧ officeId = officeId))
      ∧ (∃ id, ofPeers laptopId officeId = .ok id ∧ Joins laptopId officeId id
          ∧ peersOfWire id.wire = .ok id.peers ∧ id.peers = (officeId, laptopId))
      ∧ peersOfWire (canonicalWire "a*b" officeId) = .error ⟨canonicalWire "a*b" officeId⟩
      ∧ (∃ id, ofValue (.object [("a", .int 10), ("b", .text "5")]) = .ok id
          ∧ id.wire = "5*10" ∧ id.lesser ≤ id.greater ∧ '*' ∉ id.greater.toList)
      ∧ '*' ∉ laptopId.toList := by
  have hread : ofValue (.object [("a", .int 10), ("b", .text "5")])
      = .ok ⟨"5", "10", by decide, by decide, by decide⟩ := by
    rfl
  have haccepted : Accepts "peerId" (.text laptopId) none := by
    exact ⟨_, rfl⟩
  obtain ⟨-, hpairs, hjoins, hfail, -, hread', hfree⟩ := canonicalWire_agrees
  refine ⟨hpairs _ _ _ _ (by decide), ?_, (hfail _ _ (by decide)).1, ?_, hfree _ _ haccepted⟩
  . obtain ⟨id, hid, hall, hpeers⟩ := hjoins laptopId officeId (by decide) (by decide)
    exact ⟨id, hid, hall, hpeers, hall.peers⟩
  . obtain ⟨hle, hgreater, -⟩ := hread' _ _ hread
    exact ⟨_, hread, rfl, hle, hgreater⟩

end ConnectionId

end WireMesh
