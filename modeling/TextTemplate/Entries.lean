/-!
# Entries in order

Attributes, maps and groups are lists of key and value pairs whose order shows.  A key that is new
goes to the end; a key that is present keeps its place and its spelling, and takes the new value.
Look-up is `List.lookup`.
-/

namespace TextTemplate

namespace Entries

variable {α β : Type}

/-- The entries after `value` is put under `key`. -/
def put [BEq α] (key : α) (value : β) : List (α × β) → List (α × β)
  | [] => [(key, value)]
  | (k, v) :: rest => if key == k then (k, value) :: rest else (k, v) :: put key value rest

/-- The entries that result from putting pairs one after the other. -/
def ofList [BEq α] (pairs : List (α × β)) : List (α × β) :=
  pairs.foldl (fun entries pair => put pair.1 pair.2 entries) []

/-- The keys in order. -/
def keys (entries : List (α × β)) : List α := entries.map Prod.fst

variable {key k : α} {value : β} {entries later : List (α × β)}

@[simp] theorem keys_nil : keys ([] : List (α × β)) = [] := rfl

@[simp] theorem keys_cons {entry : α × β} : keys (entry :: entries) = entry.1 :: keys entries := rfl

@[simp] theorem keys_append : keys (entries ++ later) = keys entries ++ keys later :=
  List.map_append

/-- An entry may follow entries with distinct keys when its own key is new. -/
theorem nodup_keys_append_singleton {entry : α × β} :
    (keys (entries ++ [entry])).Nodup ↔ (keys entries).Nodup ∧ entry.1 ∉ keys entries := by
  simp only [keys_append, keys_cons, keys_nil, List.nodup_append, List.mem_singleton]
  grind

variable [DecidableEq α]

theorem lookup_cons {a : α} {b : β} :
    ((a, b) :: entries).lookup k = if k = a then some b else entries.lookup k := by
  by_cases h : k = a
  · simp [h]
  · have : (k == a) = false := by simpa using h
    simp only [List.lookup_cons, this, if_neg h]

theorem lookup_eq_none_iff : entries.lookup key = none ↔ key ∉ keys entries := by
  induction entries with
  | nil => simp
  | cons entry rest ih =>
    obtain ⟨a, b⟩ := entry
    by_cases h : key = a <;> simp [lookup_cons, h, ih]

theorem mem_keys_of_lookup_eq_some (h : entries.lookup key = some value) :
    key ∈ keys entries := by
  obtain ⟨before, after, rfl, -⟩ := List.lookup_eq_some_iff.1 h
  simp

theorem lookup_put : (put key value entries).lookup k =
    if k = key then some value else entries.lookup k := by
  induction entries with
  | nil => simp only [put, lookup_cons]
  | cons entry rest ih =>
    obtain ⟨a, b⟩ := entry
    by_cases h : key = a
    · subst h
      by_cases hk : k = key <;> simp [put, lookup_cons, hk]
    · by_cases hk : k = a
      · subst hk
        simp [put, h, Ne.symm h]
      · simp [put, lookup_cons, h, hk, ih]

theorem keys_put : keys (put key value entries) =
    if key ∈ keys entries then keys entries else keys entries ++ [key] := by
  induction entries with
  | nil => simp [put, keys]
  | cons entry rest ih =>
    obtain ⟨a, b⟩ := entry
    by_cases h : key = a
    · subst h
      simp [put, keys]
    · simp only [keys] at ih
      by_cases hm : key ∈ rest.map Prod.fst <;> simp_all [put, keys]

/-- A new key goes to the end. -/
theorem put_of_not_mem (h : key ∉ keys entries) :
    put key value entries = entries ++ [(key, value)] := by
  induction entries with
  | nil => rfl
  | cons entry rest ih =>
    obtain ⟨a, b⟩ := entry
    obtain ⟨hne, hr⟩ : key ≠ a ∧ key ∉ keys rest := by simpa using h
    rw [put, if_neg (by simpa using hne), ih hr, List.cons_append]

theorem nodup_keys_put (h : (keys entries).Nodup) : (keys (put key value entries)).Nodup := by
  by_cases hm : key ∈ keys entries
  · rwa [keys_put, if_pos hm]
  · rw [put_of_not_mem hm]
    exact nodup_keys_append_singleton.2 ⟨h, hm⟩

/-- A key that is present keeps its place. -/
theorem put_append_cons {old : β} (h : key ∉ keys entries) :
    put key value (entries ++ (key, old) :: later) = entries ++ (key, value) :: later := by
  induction entries with
  | nil => simp [put]
  | cons entry rest ih =>
    obtain ⟨a, b⟩ := entry
    obtain ⟨hne, hr⟩ : key ≠ a ∧ key ∉ keys rest := by simpa using h
    rw [List.cons_append, put, if_neg (by simpa using hne), ih hr, List.cons_append]

/-- Pairs with new keys go to the end in their order. -/
theorem foldl_put_of_nodup {pairs : List (α × β)} (h : (keys (entries ++ pairs)).Nodup) :
    pairs.foldl (fun entries pair => put pair.1 pair.2 entries) entries = entries ++ pairs := by
  induction pairs generalizing entries with
  | nil => simp
  | cons pair rest ih =>
    have hcut : entries ++ pair :: rest = (entries ++ [pair]) ++ rest := by simp
    rw [hcut] at h ⊢
    have hnew : pair.1 ∉ keys entries := by
      rw [keys_append] at h
      exact (nodup_keys_append_singleton.1 (List.nodup_append.1 h).1).2
    rw [List.foldl_cons, put_of_not_mem hnew, ih h]

theorem ofList_of_nodup {pairs : List (α × β)} (h : (keys pairs).Nodup) :
    ofList pairs = pairs :=
  foldl_put_of_nodup (by simpa using h)

/-- Of two pairs with the same key the later one counts, in the place of the earlier one. -/
theorem ofList_of_repeated {front middle back : List (α × β)} {old new : β}
    (h : (keys (front ++ (key, old) :: middle ++ back)).Nodup) :
    ofList (front ++ (key, old) :: middle ++ (key, new) :: back) =
      front ++ (key, new) :: middle ++ back := by
  have hkeys : keys (front ++ (key, new) :: middle ++ back) =
      keys (front ++ (key, old) :: middle ++ back) := by
    simp
  have hfront : (keys (front ++ (key, old) :: middle)).Nodup :=
    (List.nodup_append.1 (keys_append ▸ h)).1
  have hkey : key ∉ keys front := by
    intro hm
    rw [keys_append, List.nodup_append] at hfront
    exact hfront.2.2 key hm key (by simp) rfl
  calc ofList (front ++ (key, old) :: middle ++ (key, new) :: back)
      = back.foldl (fun entries pair => put pair.1 pair.2 entries)
          (put key new (ofList (front ++ (key, old) :: middle))) := by
        rw [ofList, List.foldl_append, List.foldl_cons]
        rfl
    _ = back.foldl (fun entries pair => put pair.1 pair.2 entries)
          (front ++ (key, new) :: middle) := by
        rw [ofList_of_nodup hfront, put_append_cons hkey]
    _ = front ++ (key, new) :: middle ++ back := foldl_put_of_nodup (hkeys ▸ h)

end Entries

end TextTemplate
