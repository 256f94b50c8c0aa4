/-!
This module contains mappings that keep the order in which their keys were first stored. Storing
under a key that is already there replaces the value and leaves the key where it is, so a key never
occurs twice.

The first half works on bare lists of entries, which is also how the members of an object are held;
`OrderedMap` adds the proof that the keys are distinct.
-/

namespace WireMesh

namespace Entries

variable {α β : Type}

def keys (entries : List (α × β)) : List α :=
  entries.map Prod.fst

@[simp]
theorem keys_nil : keys ([] : List (α × β)) = [] := rfl

@[simp]
theorem keys_cons (k : α) (v : β) (rest : List (α × β))
    : keys ((k, v) :: rest) = k :: keys rest := rfl

theorem keys_mapValues {γ : Type} (entries : List (α × β)) (f : α → β → γ)
    : keys (entries.map fun entry => (entry.1, f entry.1 entry.2)) = keys entries := by
  unfold keys
  rw [List.map_map]
  rfl

theorem keys_append (entries more : List (α × β))
    : keys (entries ++ more) = keys entries ++ keys more :=
  List.map_append

theorem nodup_keys_filter {entries : List (α × β)} (h : (keys entries).Nodup)
    (p : α × β → Bool) : (keys (entries.filter p)).Nodup :=
  h.sublist (List.filter_sublist.map _)

variable [DecidableEq α]

def get? (entries : List (α × β)) (key : α) : Option β :=
  match entries with
  | [] => none
  | (k, v) :: rest => if k = key then some v else get? rest key

def put (entries : List (α × β)) (key : α) (value : β) : List (α × β) :=
  match entries with
  | [] => [(key, value)]
  | (k, v) :: rest => if k = key then (key, value) :: rest else (k, v) :: put rest key value

def putAll (entries more : List (α × β)) : List (α × β) :=
  more.foldl (fun acc entry => put acc entry.1 entry.2) entries

@[simp]
theorem get?_nil (key : α) : get? ([] : List (α × β)) key = none := rfl

theorem get?_cons (k : α) (v : β) (rest : List (α × β)) (key : α)
    : get? ((k, v) :: rest) key = if k = key then some v else get? rest key := rfl

theorem get?_eq_none_iff {entries : List (α × β)} {key : α}
    : get? entries key = none ↔ key ∉ keys entries := by
  induction entries with
  | nil => simp
  | cons entry rest ih =>
    obtain ⟨k, v⟩ := entry
    rw [get?_cons, keys_cons]
    grind

theorem mem_of_get?_eq_some {entries : List (α × β)} {key : α} {value : β}
    (h : get? entries key = some value) : (key, value) ∈ entries := by
  induction entries with
  | nil => simp at h
  | cons entry rest ih =>
    obtain ⟨k, v⟩ := entry
    rw [get?_cons] at h
    grind

theorem mem_keys_of_get?_eq_some {entries : List (α × β)} {key : α} {value : β}
    (h : get? entries key = some value) : key ∈ keys entries :=
  List.mem_map_of_mem (mem_of_get?_eq_some h)

theorem mem_keys_iff {entries : List (α × β)} {key : α}
    : key ∈ keys entries ↔ ∃ value, get? entries key = some value := by
  constructor
  . intro h
    cases hget : get? entries key with
    | none => exact (get?_eq_none_iff.1 hget h).elim
    | some value => exact ⟨value, rfl⟩
  . rintro ⟨value, h⟩
    exact mem_keys_of_get?_eq_some h

theorem get?_put (entries : List (α × β)) (key other : α) (value : β)
    : get? (put entries key value) other = if key = other then some value else get? entries other
    := by
  induction entries with
  | nil => rfl
  | cons entry rest ih =>
    obtain ⟨k, v⟩ := entry
    grind [put, get?]

@[simp]
theorem get?_put_self (entries : List (α × β)) (key : α) (value : β)
    : get? (put entries key value) key = some value := by
  simp [get?_put]

theorem keys_put (entries : List (α × β)) (key : α) (value : β)
    : keys (put entries key value) =
      if key ∈ keys entries then keys entries else keys entries ++ [key] := by
  induction entries with
  | nil => simp [put]
  | cons entry rest ih =>
    obtain ⟨k, v⟩ := entry
    grind [put, keys_cons]

theorem nodup_keys_put {entries : List (α × β)} (h : (keys entries).Nodup) (key : α) (value : β)
    : (keys (put entries key value)).Nodup := by
  rw [keys_put]
  split
  · exact h
  · next hk =>
    rw [List.nodup_append]
    refine ⟨h, by simp, ?_⟩
    rintro a ha b hb rfl
    exact hk (List.mem_singleton.1 hb ▸ ha)

theorem nodup_keys_putAll {entries : List (α × β)} (h : (keys entries).Nodup)
    (more : List (α × β)) : (keys (putAll entries more)).Nodup := by
  induction more generalizing entries with
  | nil => exact h
  | cons entry rest ih => exact ih (nodup_keys_put h _ _)

theorem get?_eq_some_iff {entries : List (α × β)} (h : (keys entries).Nodup) {key : α} {value : β}
    : get? entries key = some value ↔ (key, value) ∈ entries := by
  constructor
  . exact mem_of_get?_eq_some
  . intro hmem
    induction entries with
    | nil => cases hmem
    | cons entry rest ih =>
      obtain ⟨k, v⟩ := entry
      rw [keys_cons, List.nodup_cons] at h
      rw [get?_cons]
      cases hmem with
      | head => rw [if_pos rfl]
      | tail _ hmem =>
        rw [if_neg]
        . exact ih h.2 hmem
        . rintro rfl
          exact h.1 (List.mem_map_of_mem hmem)

theorem put_of_get?_eq_some {entries : List (α × β)} {key : α} {value : β}
    (h : get? entries key = some value) : put entries key value = entries := by
  induction entries with
  | nil => cases h
  | cons entry rest ih =>
    obtain ⟨k, v⟩ := entry
    rw [get?_cons] at h
    grind [put]

theorem get?_putAll {entries more : List (α × β)} (h : (keys more).Nodup) (key : α)
    : get? (putAll entries more) key = (get? more key).or (get? entries key) := by
  induction more generalizing entries with
  | nil => rfl
  | cons entry rest ih =>
    obtain ⟨k, v⟩ := entry
    rw [keys_cons, List.nodup_cons] at h
    change get? (putAll (put entries k v) rest) key = _
    rw [ih h.2]
    rw [get?_put]
    rw [get?_cons]
    split
    . next hk =>
      subst hk
      rw [get?_eq_none_iff.2 h.1]
      rfl
    . rfl

theorem get?_append (entries more : List (α × β)) (key : α)
    : get? (entries ++ more) key = (get? entries key).or (get? more key) := by
  induction entries with
  | nil => rfl
  | cons entry rest ih =>
    obtain ⟨k, v⟩ := entry
    rw [List.cons_append]
    rw [get?_cons, get?_cons]
    split
    . rfl
    . exact ih

theorem get?_map {γ : Type} (items : List γ) (key : γ → α) (value : γ → β) (k : α)
    : get? (items.map fun item => (key item, value item)) k
        =
      (items.find? fun item => key item = k).map value := by
  induction items with
  | nil => rfl
  | cons item rest ih =>
    rw [List.map_cons]
    rw [get?_cons]
    rw [List.find?_cons]
    split
    . next hk => simp [hk]
    . next hk => simpa [hk] using ih

theorem get?_mapValues {γ : Type} (entries : List (α × β)) (f : α → β → γ) (key : α)
    : get? (entries.map fun entry => (entry.1, f entry.1 entry.2)) key
        =
      (get? entries key).map (f key) := by
  induction entries with
  | nil => rfl
  | cons entry rest ih =>
    obtain ⟨k, v⟩ := entry
    rw [List.map_cons]
    rw [get?_cons, get?_cons]
    split
    . next hk => rw [hk, Option.map_some]
    . exact ih

theorem get?_putAll_reverse (entries more : List (α × β)) (key : α)
    : get? (putAll entries more) key = (get? more.reverse key).or (get? entries key) := by
  induction more generalizing entries with
  | nil => rfl
  | cons entry rest ih =>
    obtain ⟨k, v⟩ := entry
    change get? (putAll (put entries k v) rest) key = _
    rw [ih]
    rw [get?_put]
    rw [List.reverse_cons]
    rw [get?_append]
    rw [get?_cons, get?_nil]
    rw [Option.or_assoc]
    split
    . rfl
    . rfl

theorem keys_putAll (entries more : List (α × β))
    : keys (putAll entries more)
        =
      keys entries ++ ((keys more).filter fun key => key ∉ keys entries).eraseDups := by
  induction more generalizing entries with
  | nil => simp [putAll]
  | cons entry rest ih =>
    obtain ⟨k, v⟩ := entry
    change keys (putAll (put entries k v) rest) = _
    rw [ih]
    rw [keys_put]
    rw [keys_cons]
    split
    . next hk => rw [List.filter_cons_of_neg (by simpa using hk)]
    . next hk =>
      have hnew : ((keys rest).filter fun key => key ∉ keys entries ++ [k])
          = (keys rest).filter fun key => !key == k && decide (key ∉ keys entries) := by
        apply List.filter_congr
        intro key _
        rw [Bool.eq_iff_iff]
        simp [and_comm]
      rw [hnew]
      rw [List.filter_cons_of_pos (by simpa using hk)]
      rw [List.eraseDups_cons]
      rw [List.filter_filter]
      rw [List.append_assoc]
      rfl

theorem put_of_notMem {entries : List (α × β)} {key : α} (value : β) (h : key ∉ keys entries)
    : put entries key value = entries ++ [(key, value)] := by
  induction entries with
  | nil => rfl
  | cons entry rest ih =>
    obtain ⟨k, v⟩ := entry
    rw [keys_cons, List.mem_cons, not_or] at h
    rw [put, if_neg (Ne.symm h.1)]
    rw [ih h.2]
    rfl

theorem putAll_of_nodup {entries more : List (α × β)} (h : (keys (entries ++ more)).Nodup)
    : putAll entries more = entries ++ more := by
  induction more generalizing entries with
  | nil =>
    rw [List.append_nil]
    rfl
  | cons entry rest ih =>
    obtain ⟨k, v⟩ := entry
    have hk : k ∉ keys entries := by
      rw [keys_append, List.nodup_append] at h
      intro hmem
      exact h.2.2 k hmem k List.mem_cons_self rfl
    change putAll (put entries k v) rest = _
    rw [put_of_notMem v hk]
    rw [List.append_cons entries (k, v) rest] at h ⊢
    exact ih h

theorem eq_of_get?_eq {entries others : List (α × β)} (h : (keys entries).Nodup)
    (hkeys : keys entries = keys others) (hget : ∀ key, get? entries key = get? others key)
    : entries = others := by
  induction entries generalizing others with
  | nil => exact (List.map_eq_nil_iff.1 hkeys.symm).symm
  | cons entry rest ih =>
    obtain ⟨k, v⟩ := entry
    cases others with
    | nil => cases hkeys
    | cons other more =>
      obtain ⟨k', w⟩ := other
      rw [keys_cons, keys_cons, List.cons.injEq] at hkeys
      rw [keys_cons, List.nodup_cons] at h
      obtain ⟨rfl, hrest⟩ := hkeys
      have hhead := hget k
      rw [get?_cons, get?_cons, if_pos rfl, if_pos rfl] at hhead
      cases hhead
      rw [ih h.2 hrest]
      intro key
      by_cases hk : k = key
      . subst hk
        rw [get?_eq_none_iff.2 h.1, get?_eq_none_iff.2 (hrest ▸ h.1)]
      . have hother := hget key
        rw [get?_cons, get?_cons, if_neg hk, if_neg hk] at hother
        exact hother

theorem get?_filter {entries : List (α × β)} (h : (keys entries).Nodup) (p : α × β → Bool)
    (key : α)
    : get? (entries.filter p) key = (get? entries key).filter fun value => p (key, value) := by
  apply Option.ext
  intro value
  rw [get?_eq_some_iff (nodup_keys_filter h p)]
  rw [Option.filter_eq_some_iff]
  rw [get?_eq_some_iff h]
  rw [List.mem_filter]

end Entries

/--
A mapping whose entries keep the order in which their keys were first stored.
-/
structure OrderedMap (α β : Type) where
  entries : List (α × β)
  nodup : (Entries.keys entries).Nodup

namespace OrderedMap

variable {α β : Type}

theorem ext_entries {m n : OrderedMap α β} (h : m.entries = n.entries) : m = n := by
  cases m
  cases n
  cases h
  rfl

instance [DecidableEq α] [DecidableEq β] : DecidableEq (OrderedMap α β) := fun m n =>
  if h : m.entries = n.entries then
    isTrue (ext_entries h)
  else
    isFalse fun hm => h (hm ▸ rfl)

def empty : OrderedMap α β :=
  ⟨[], by simp [Entries.keys]⟩

instance : EmptyCollection (OrderedMap α β) := ⟨empty⟩

instance : Inhabited (OrderedMap α β) := ⟨empty⟩

def keys (m : OrderedMap α β) : List α :=
  Entries.keys m.entries

def values (m : OrderedMap α β) : List β :=
  m.entries.map Prod.snd

def isEmpty (m : OrderedMap α β) : Bool :=
  m.entries.isEmpty

def filter (p : α → β → Bool) (m : OrderedMap α β) : OrderedMap α β :=
  ⟨m.entries.filter fun entry => p entry.1 entry.2, Entries.nodup_keys_filter m.nodup _⟩

def mapValues {γ : Type} (f : α → β → γ) (m : OrderedMap α β) : OrderedMap α γ :=
  ⟨m.entries.map fun entry => (entry.1, f entry.1 entry.2), by
    rw [Entries.keys_mapValues]
    exact m.nodup⟩

theorem keys_mapValues {γ : Type} (m : OrderedMap α β) (f : α → β → γ)
    : (m.mapValues f).keys = m.keys :=
  Entries.keys_mapValues m.entries f

variable [DecidableEq α]

def get? (m : OrderedMap α β) (key : α) : Option β :=
  Entries.get? m.entries key

/--
Store `value` under `key`; a key that is already there keeps its place.
-/
def insert (m : OrderedMap α β) (key : α) (value : β) : OrderedMap α β :=
  ⟨Entries.put m.entries key value, Entries.nodup_keys_put m.nodup key value⟩

def erase (m : OrderedMap α β) (key : α) : OrderedMap α β :=
  m.filter fun k _ => k ≠ key

/--
Store a list of entries one after the other: a repeated key keeps its first place and takes the
last value.
-/
def ofList (entries : List (α × β)) : OrderedMap α β :=
  ⟨Entries.putAll [] entries, Entries.nodup_keys_putAll (by simp [Entries.keys]) entries⟩

theorem get?_insert (m : OrderedMap α β) (key other : α) (value : β)
    : (m.insert key value).get? other = if key = other then some value else m.get? other :=
  Entries.get?_put m.entries key other value

@[simp]
theorem get?_insert_self (m : OrderedMap α β) (key : α) (value : β)
    : (m.insert key value).get? key = some value := by
  simp [get?_insert]

theorem get?_insert_of_ne (m : OrderedMap α β) {key other : α} (value : β) (h : key ≠ other)
    : (m.insert key value).get? other = m.get? other := by
  simp [get?_insert, h]

theorem keys_insert (m : OrderedMap α β) (key : α) (value : β)
    : (m.insert key value).keys = if key ∈ m.keys then m.keys else m.keys ++ [key] :=
  Entries.keys_put m.entries key value

theorem get?_eq_none_iff {m : OrderedMap α β} {key : α} : m.get? key = none ↔ key ∉ m.keys :=
  Entries.get?_eq_none_iff

@[simp]
theorem get?_empty (key : α) : (∅ : OrderedMap α β).get? key = none := rfl

theorem get?_eq_some_iff {m : OrderedMap α β} {key : α} {value : β}
    : m.get? key = some value ↔ (key, value) ∈ m.entries :=
  Entries.get?_eq_some_iff m.nodup

theorem mem_keys_of_get?_eq_some {m : OrderedMap α β} {key : α} {value : β}
    (h : m.get? key = some value) : key ∈ m.keys :=
  Entries.mem_keys_of_get?_eq_some h

theorem ext_get? {m n : OrderedMap α β} (hkeys : m.keys = n.keys)
    (hget : ∀ key, m.get? key = n.get? key) : m = n :=
  ext_entries (Entries.eq_of_get?_eq m.nodup hkeys hget)

theorem insert_of_get?_eq_some {m : OrderedMap α β} {key : α} {value : β}
    (h : m.get? key = some value) : m.insert key value = m :=
  ext_entries (Entries.put_of_get?_eq_some h)

theorem insert_insert (m : OrderedMap α β) (key : α) (value other : β)
    : (m.insert key value).insert key other = m.insert key other := by
  apply ext_get?
  . rw [keys_insert, if_pos]
    . rw [keys_insert, keys_insert]
    . rw [keys_insert]
      split
      . assumption
      . exact List.mem_append_right _ List.mem_cons_self
  . intro k
    rw [get?_insert, get?_insert, get?_insert]
    split
    . rfl
    . rfl

theorem insert_comm {m : OrderedMap α β} {key key' : α} (hkey : key ∈ m.keys)
    (hkey' : key' ∈ m.keys) (hne : key ≠ key') (value value' : β)
    : (m.insert key value).insert key' value' = (m.insert key' value').insert key value := by
  have hkeys : ∀ k ∈ m.keys, ∀ v, (m.insert k v).keys = m.keys := by
    intro k hk v
    rw [keys_insert, if_pos hk]
  apply ext_get?
  . rw [keys_insert, hkeys key hkey, if_pos hkey', keys_insert, hkeys key' hkey', if_pos hkey]
  . intro k
    simp only [get?_insert]
    by_cases h : key = k
    . rw [if_pos h, if_pos h, if_neg]
      rintro rfl
      exact hne h
    . rw [if_neg h, if_neg h]

theorem entries_ofList {entries : List (α × β)} (h : (Entries.keys entries).Nodup)
    : (ofList entries).entries = entries :=
  Entries.putAll_of_nodup h

theorem ofList_entries (m : OrderedMap α β) : ofList m.entries = m :=
  ext_entries (entries_ofList m.nodup)

theorem get?_filter (m : OrderedMap α β) (p : α → β → Bool) (key : α)
    : (m.filter p).get? key = (m.get? key).filter (p key) :=
  Entries.get?_filter m.nodup _ key

theorem get?_mapValues {γ : Type} (m : OrderedMap α β) (f : α → β → γ) (key : α)
    : (m.mapValues f).get? key = (m.get? key).map (f key) :=
  Entries.get?_mapValues m.entries f key

end OrderedMap

end WireMesh
