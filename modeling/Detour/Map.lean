/-!
# Maps

Entries under keys, each key once. Putting in an entry replaces the one under its key, so that of a list of
entries that are put in one after the other the last one with a key counts.

* `Map.insert` puts in one entry, `Map.ofList` puts in a list of them;
* `Map.get?_insert` and `Map.get?_ofList` say what is then found, the second by a search from behind;
* `Map.ofList_entries`: the entries of a map make up the map again.
-/

namespace Detour

/-- Entries under keys, in the order in which the keys were first put in. -/
@[ext]
structure Map (κ α : Type) where
  /-- the entries -/
  entries : List (κ × α)
  /-- no key has two of them -/
  distinct : (entries.map Prod.fst).Nodup
deriving Repr, DecidableEq

namespace Map

variable {κ α : Type} [DecidableEq κ]

/-- The map without entries. -/
def empty : Map κ α := ⟨[], List.nodup_nil⟩

omit [DecidableEq κ] in
/-- The number of entries. -/
def size (m : Map κ α) : Nat := m.entries.length

/-- What stands under a key. -/
def get? (m : Map κ α) (key : κ) : Option α := m.entries.lookup key

/-- Entries with the one under a key replaced, or with a new one behind them. -/
def insertInto (key : κ) (value : α) : List (κ × α) → List (κ × α)
  | [] => [(key, value)]
  | e :: rest => if key = e.1 then (key, value) :: rest else e :: insertInto key value rest

/-- What stands under a key is the first entry or stands behind it. -/
theorem lookup_cons_eq (e : κ × α) (rest : List (κ × α)) (key : κ) :
    (e :: rest).lookup key = if key = e.1 then some e.2 else rest.lookup key := by
  obtain ⟨k, v⟩ := e
  rw [List.lookup_cons]
  by_cases h : key = k
  · rw [h, beq_self_eq_true, if_pos rfl]
  · rw [beq_false_of_ne h, if_neg h]

/-- The keys after an entry was put in. -/
theorem keys_insertInto (key : κ) (value : α) (entries : List (κ × α)) :
    (insertInto key value entries).map Prod.fst =
      if key ∈ entries.map Prod.fst then entries.map Prod.fst else entries.map Prod.fst ++ [key] := by
  induction entries with
  | nil => rfl
  | cons e rest ih =>
    rw [insertInto]
    by_cases h : key = e.1
    · simp [h]
    · rw [if_neg h, List.map_cons, ih]
      by_cases hrest : key ∈ rest.map Prod.fst <;> simp [h, hrest]

/-- A map with an entry put in or replaced. -/
def insert (m : Map κ α) (key : κ) (value : α) : Map κ α where
  entries := insertInto key value m.entries
  distinct := by
    rw [keys_insertInto]
    split
    · exact m.distinct
    · rename_i h
      rw [List.nodup_append]
      refine ⟨m.distinct, by simp, fun a ha b hb heq => h ?_⟩
      rw [← List.mem_singleton.1 hb, ← heq]
      exact ha

/-- The map of some entries, put in one after the other. -/
def ofList (entries : List (κ × α)) : Map κ α := entries.foldl (fun m e => m.insert e.1 e.2) empty

/-! ### What is found -/

/-- The entry that was put in is found, and the others are as before. -/
theorem get?_insert (m : Map κ α) (key other : κ) (value : α) :
    (m.insert key value).get? other = if other = key then some value else m.get? other := by
  have hentries (entries : List (κ × α)) : (insertInto key value entries).lookup other =
      if other = key then some value else entries.lookup other := by
    induction entries with
    | nil => rw [insertInto, lookup_cons_eq]
    | cons e rest ih =>
      rw [insertInto]
      by_cases hkey : key = e.1
      · rw [if_pos hkey, lookup_cons_eq, lookup_cons_eq, ← hkey]
        split <;> rfl
      · rw [if_neg hkey, lookup_cons_eq, ih, lookup_cons_eq]
        by_cases h : other = key
        · rw [if_pos h, if_pos h, if_neg (h ▸ hkey)]
        · rw [if_neg h, if_neg h]
  exact hentries m.entries

/-- What is found is one of the entries. -/
theorem mem_entries_iff {m : Map κ α} {key : κ} {value : α} :
    (key, value) ∈ m.entries ↔ m.get? key = some value := by
  obtain ⟨entries, distinct⟩ := m
  rw [get?]
  induction entries with
  | nil => simp
  | cons e rest ih =>
    obtain ⟨hfirst, hrest⟩ := List.nodup_cons.1 distinct
    rw [lookup_cons_eq]
    dsimp only
    rw [List.mem_cons, Prod.ext_iff]
    by_cases h : key = e.1
    · have hnone : (key, value) ∉ rest := fun hmem => hfirst (h ▸ List.mem_map_of_mem hmem)
      simp [h ▸ hnone, h, eq_comm]
    · simp [h, ih hrest]

/-- Something is found under the keys of the entries. -/
theorem mem_keys_iff {m : Map κ α} {key : κ} :
    key ∈ m.entries.map Prod.fst ↔ (m.get? key).isSome := by
  rw [List.mem_map, Option.isSome_iff_exists]
  constructor
  · rintro ⟨⟨_, value⟩, hmem, rfl⟩
    exact ⟨value, mem_entries_iff.1 hmem⟩
  · rintro ⟨value, hvalue⟩
    exact ⟨(key, value), mem_entries_iff.2 hvalue, rfl⟩

/-- **The last entry with a key counts**, and it is found by a search from behind. -/
theorem get?_ofList (entries : List (κ × α)) (key : κ) :
    (ofList entries).get? key = entries.reverse.lookup key := by
  have hfold (entries : List (κ × α)) (m : Map κ α) :
      (entries.foldl (fun m e => m.insert e.1 e.2) m).get? key =
        (entries.reverse.lookup key).or (m.get? key) := by
    induction entries generalizing m with
    | nil => rfl
    | cons e rest ih =>
      rw [List.foldl_cons, ih, get?_insert, List.reverse_cons, List.lookup_append, Option.or_assoc]
      rw [lookup_cons_eq]
      split <;> rfl
  rw [ofList, hfold]
  exact Option.or_none

/-- What is found is one of the entries that were put in. -/
theorem mem_of_get?_ofList {entries : List (κ × α)} {key : κ} {value : α}
    (h : (ofList entries).get? key = some value) : (key, value) ∈ entries := by
  rw [get?_ofList, List.lookup_eq_some_iff] at h
  obtain ⟨behind, before, hentries, -⟩ := h
  rw [← List.mem_reverse, hentries]
  exact List.mem_append_right behind List.mem_cons_self

/-- Something is found under a key if the last entry with that key has it. -/
theorem get?_ofList_eq_some_iff {entries : List (κ × α)} {key : κ} {value : α} :
    (ofList entries).get? key = some value ↔
      ∃ front back, entries = front ++ (key, value) :: back ∧ ∀ e ∈ back, e.1 ≠ key := by
  rw [get?_ofList, List.lookup_eq_some_iff]
  constructor
  · rintro ⟨behind, before, hentries, hbehind⟩
    rw [List.reverse_eq_iff, List.reverse_append, List.reverse_cons, List.append_assoc] at hentries
    refine ⟨before.reverse, behind.reverse, hentries, fun e he => ?_⟩
    exact Ne.symm (bne_iff_ne.1 (hbehind e (List.mem_reverse.1 he)))
  · rintro ⟨front, back, rfl, hback⟩
    refine ⟨back.reverse, front.reverse, by simp, fun e he => ?_⟩
    exact bne_iff_ne.2 (Ne.symm (hback e (List.mem_reverse.1 he)))

/-- Nothing is found under a key that no entry has. -/
theorem get?_ofList_eq_none_iff {entries : List (κ × α)} {key : κ} :
    (ofList entries).get? key = none ↔ ∀ e ∈ entries, e.1 ≠ key := by
  rw [get?_ofList, List.lookup_eq_none_iff]
  simp only [List.mem_reverse, bne_iff_ne]
  exact forall₂_congr fun e _ => ne_comm

/-- The keys of a map are those of the entries that were put in. -/
theorem mem_keys_ofList {entries : List (κ × α)} {key : κ} :
    key ∈ (ofList entries).entries.map Prod.fst ↔ key ∈ entries.map Prod.fst := by
  rw [mem_keys_iff, ← Option.not_isNone, Bool.not_eq_true', ← Bool.not_eq_true, Option.isNone_iff_eq_none,
    get?_ofList_eq_none_iff, List.mem_map]
  simp

/-- Entries in front of others make no difference to a key that these have. -/
theorem get?_ofList_append {front back : List (κ × α)} {key : κ} (h : key ∈ back.map Prod.fst) :
    (ofList (front ++ back)).get? key = (ofList back).get? key := by
  have hfound : (back.reverse.lookup key).isSome := by
    rw [← get?_ofList, ← mem_keys_iff, mem_keys_ofList]
    exact h
  rw [get?_ofList, get?_ofList, List.reverse_append, List.lookup_append, Option.or_of_isSome hfound]

/-! ### Values changed -/

omit [DecidableEq κ] in
/-- The keys do not change with the values. -/
theorem keys_map {β : Type} (f : α → β) (entries : List (κ × α)) :
    (entries.map fun e => (e.1, f e.2)).map Prod.fst = entries.map Prod.fst := by
  rw [List.map_map]
  rfl

omit [DecidableEq κ] in
/-- A map with every value changed. -/
def mapValues {β : Type} (f : α → β) (m : Map κ α) : Map κ β where
  entries := m.entries.map fun e => (e.1, f e.2)
  distinct := keys_map f m.entries ▸ m.distinct

/-- What is found has changed. -/
theorem get?_mapValues {β : Type} (f : α → β) (m : Map κ α) (key : κ) :
    (m.mapValues f).get? key = (m.get? key).map f := by
  have hentries (entries : List (κ × α)) :
      (entries.map fun e => (e.1, f e.2)).lookup key = (entries.lookup key).map f := by
    induction entries with
    | nil => rfl
    | cons e rest ih =>
      rw [List.map_cons, lookup_cons_eq, lookup_cons_eq, ih]
      split <;> rfl
  exact hentries m.entries

/-- An entry that is put in changes with the others. -/
theorem mapValues_insert {β : Type} (f : α → β) (m : Map κ α) (key : κ) (value : α) :
    (m.insert key value).mapValues f = (m.mapValues f).insert key (f value) := by
  have hentries (entries : List (κ × α)) :
      (insertInto key value entries).map (fun e => (e.1, f e.2)) =
        insertInto key (f value) (entries.map fun e => (e.1, f e.2)) := by
    induction entries with
    | nil => rfl
    | cons e rest ih =>
      rw [List.map_cons, insertInto, insertInto, ← ih]
      split <;> rfl
  exact Map.ext (hentries m.entries)

/-- A map is as before if no value changes. -/
theorem mapValues_eq_self {f : α → α} {m : Map κ α}
    (h : ∀ key value, m.get? key = some value → f value = value) : m.mapValues f = m := by
  have hentries : m.entries.map (fun e => (e.1, f e.2)) = m.entries.map id :=
    List.map_congr_left fun e he => Prod.ext rfl (h e.1 e.2 (mem_entries_iff.1 he))
  exact Map.ext (hentries.trans (List.map_id m.entries))

/-! ### Entries put in again -/

/-- An entry with a new key is put in last. -/
theorem insertInto_of_notMem {key : κ} {value : α} {entries : List (κ × α)}
    (h : key ∉ entries.map Prod.fst) : insertInto key value entries = entries ++ [(key, value)] := by
  induction entries with
  | nil => rfl
  | cons e rest ih =>
    rw [List.map_cons, List.mem_cons, not_or] at h
    rw [insertInto, if_neg h.1, ih h.2, List.cons_append]

/-- Entries with distinct keys make up a map in their order. -/
theorem entries_ofList {entries : List (κ × α)} (h : (entries.map Prod.fst).Nodup) :
    (ofList entries).entries = entries := by
  have hfold (rest : List (κ × α)) (m : Map κ α)
      (h : ((m.entries ++ rest).map Prod.fst).Nodup) :
      (rest.foldl (fun m e => m.insert e.1 e.2) m).entries = m.entries ++ rest := by
    induction rest generalizing m with
    | nil => rw [List.foldl_nil, List.append_nil]
    | cons e rest ih =>
      have hnew : e.1 ∉ m.entries.map Prod.fst := by
        rw [List.map_append, List.nodup_append] at h
        exact fun hmem => h.2.2 _ hmem _ List.mem_cons_self rfl
      have hinsert : (m.insert e.1 e.2).entries = m.entries ++ [e] := insertInto_of_notMem hnew
      rw [List.foldl_cons, ih _ (by rw [hinsert]; simpa using h), hinsert, List.append_assoc]
      rfl
  exact hfold entries empty h

/-- Of entries with distinct keys each is found. -/
theorem get?_ofList_of_nodup {entries : List (κ × α)} (h : (entries.map Prod.fst).Nodup) {key : κ}
    {value : α} : (ofList entries).get? key = some value ↔ (key, value) ∈ entries := by
  rw [← mem_entries_iff, entries_ofList h]

/-- **The entries of a map make up the map.** -/
theorem ofList_entries (m : Map κ α) : ofList m.entries = m :=
  Map.ext (entries_ofList m.distinct)

end Map

end Detour
