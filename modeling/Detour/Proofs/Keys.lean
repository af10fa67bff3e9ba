import Detour.Store.RuleTable
import Mathlib.Data.List.Nodup
import Mathlib.Tactic.SplitIfs

/-!
# Keys of tables

A document that defines a key twice is no document, wherever the key stands: in a table with a header, in a
table in braces, or behind dots. So the entries of a table that is read can be told apart by their keys.

* `Toml.Distinct` and `Toml.Node.Distinct`: every key stands once in its table, at every depth, in a value and
  in what is under construction.
* `Toml.Node.distinct_of_descend`: a change at the end of a path that keeps keys apart does so for the whole.
  From it each kind of line has its lemma.
* `Toml.ReadsDistinct` is the invariant of the readers of values, carried by their fuel.
* `Toml.distinct_of_read?`, and from it `RuleTable.keyed_of_load`: the keys of the pages and the selectors
  of a table that is loaded are distinct.
-/

namespace Detour

section Entries

variable {α : Type} {n : α} {key : Text} {entries : List (Text × α)}

/-- What is found under a key stands under it. -/
theorem mem_of_lookup (h : entries.lookup key = some n) : (key, n) ∈ entries := by
  obtain ⟨front, behind, rfl, -⟩ := List.lookup_eq_some_iff.1 h
  exact List.mem_append_right front List.mem_cons_self

end Entries

namespace Toml

/-! ### Values -/

/-- Whether every key of a value stands once in its table, at every depth. -/
inductive Distinct : Toml → Prop
  /-- a text -/
  | text (s : Text) : Distinct (.text s)
  /-- a whole number -/
  | integer (n : Int) : Distinct (.integer n)
  /-- any other number -/
  | float : Distinct .float
  /-- a truth value -/
  | bool (b : Bool) : Distinct (.bool b)
  /-- a date -/
  | moment (s : Text) : Distinct (.moment s)
  /-- a list of such values -/
  | array {elements : List Toml} (values : ∀ v ∈ elements, Distinct v) : Distinct (.array elements)
  /-- a table of such values in which no key stands twice -/
  | table {entries : List (Text × Toml)} (keys : (entries.map Prod.fst).Nodup)
      (values : ∀ e ∈ entries, Distinct e.2) : Distinct (.table entries)

variable {v : Toml} {key : Text}

/-- A word is a value without entries. -/
theorem distinct_of_ofWord? {s : Text} (h : ofWord? s = some v) : v.Distinct := by
  have hwhole {n : Int} (h : ofInt? n = some v) : v.Distinct := by
    obtain ⟨-, h⟩ := Option.ite_none_right_eq_some.1 h
    exact Option.some.inj h ▸ .integer n
  have hinteger (h : integer? s = some v) : v.Distinct := by
    unfold integer? at h
    split at h
    all_goals
      obtain ⟨_, -, h⟩ := Option.bind_eq_some_iff.1 h
      exact hwhole h
  unfold ofWord? at h
  split_ifs at h with htrue hfalse hmoment hfloat
  · exact Option.some.inj h ▸ .bool true
  · exact Option.some.inj h ▸ .bool false
  · exact Option.some.inj h ▸ .moment s
  · exact Option.some.inj h ▸ .float
  · exact hinteger h

/-- The entries of such a value have distinct keys, and their values are such again. -/
theorem Distinct.entries? (hv : v.Distinct) {entries : List (Text × Toml)} (h : v.entries? = some entries) :
    (entries.map Prod.fst).Nodup ∧ ∀ e ∈ entries, e.2.Distinct := by
  cases hv with
  | table keys values => exact Option.some.inj h ▸ ⟨keys, values⟩
  | moment s =>
    obtain rfl : [(momentKey, Toml.text s)] = entries := Option.some.inj h
    exact ⟨List.nodup_singleton _, fun e he => List.mem_singleton.1 he ▸ .text s⟩
  | _ => cases h

/-- The fields of a record of such a value are such. -/
theorem Distinct.fields? (hv : v.Distinct) {names : List Text} {fields : List (Option Toml)}
    (h : v.fields? names = some fields) {w : Toml} (hw : some w ∈ fields) : w.Distinct := by
  have hentries (h : (v.entries?.map fun entries => names.map fun name => entries.lookup name) =
      some fields) : w.Distinct := by
    obtain ⟨entries, hentries, rfl⟩ := Option.map_eq_some_iff.1 h
    obtain ⟨name, -, hname⟩ := List.mem_map.1 hw
    exact (hv.entries? hentries).2 _ (mem_of_lookup hname)
  cases hv with
  | array values =>
    obtain rfl := Option.some.inj h
    obtain ⟨i, -, hi⟩ := List.mem_map.1 hw
    exact values w (List.mem_of_getElem? hi)
  | _ => exact hentries h

/-- Texts are read with their keys. -/
theorem keys_of_mapM {entries : List (Text × Toml)} {texts : List (Text × Text)}
    (h : entries.mapM (fun ((k, v) : Text × Toml) => v.toText?.map fun s => (k, s)) = some texts) :
    texts.map Prod.fst = entries.map Prod.fst := by
  induction entries generalizing texts with
  | nil => rw [← Option.some.inj h]; rfl
  | cons e entries ih =>
    rw [List.mapM_cons] at h
    obtain ⟨first, hfirst, h⟩ := Option.bind_eq_some_iff.1 h
    obtain ⟨rest, hrest, h⟩ := Option.bind_eq_some_iff.1 h
    obtain ⟨s, -, rfl⟩ := Option.map_eq_some_iff.1 hfirst
    rw [← Option.some.inj h, List.map_cons, List.map_cons, ih hrest]

/-- A table of texts has distinct keys. -/
theorem Distinct.toTexts? (hv : v.Distinct) {texts : List (Text × Text)} (h : v.toTexts? = some texts) :
    (texts.map Prod.fst).Nodup := by
  obtain ⟨entries, hentries, h⟩ := Option.bind_eq_some_iff.1 h
  exact keys_of_mapM h ▸ (hv.entries? hentries).1

/-! ### Tables under construction -/

namespace Node

/-- Whether every key under a node stands once in its table, at every depth. -/
inductive Distinct : Node → Prop
  /-- a finished value -/
  | value {v : Toml} (h : v.Distinct) : Distinct (.value v)
  /-- a table -/
  | table {opened dotted : Bool} {entries : Entries} (keys : (entries.map Prod.fst).Nodup)
      (nodes : ∀ e ∈ entries, Distinct e.2) : Distinct (.table opened dotted entries)
  /-- a list of tables -/
  | tables {elements : List Entries} (keys : ∀ entries ∈ elements, (entries.map Prod.fst).Nodup)
      (nodes : ∀ entries ∈ elements, ∀ e ∈ entries, Distinct e.2) : Distinct (.tables elements)

/-- Whether every key of entries stands once, at every depth. -/
structure Entries.Distinct (entries : Entries) : Prop where
  /-- the keys differ -/
  keys : (entries.map Prod.fst).Nodup
  /-- and so do those under them -/
  nodes : ∀ e ∈ entries, e.2.Distinct

variable {entries changed root : Entries} {n : Node} {path current : List Text} {dotted : Bool}

/-- There are entries without keys. -/
theorem distinct_nil : Entries.Distinct [] := ⟨List.nodup_nil, nofun⟩

/-- The entries of a table, opened or not. -/
theorem distinct_table {opened : Bool} : (Node.table opened dotted entries).Distinct ↔ entries.Distinct := by
  constructor
  · rintro (_ | ⟨keys, nodes⟩ | _)
    exact ⟨keys, nodes⟩
  · exact fun h => .table h.keys h.nodes

/-- The entries of the tables of a list. -/
theorem distinct_tables {elements : List Entries} :
    (Node.tables elements).Distinct ↔ ∀ entries ∈ elements, entries.Distinct := by
  constructor
  · rintro (_ | _ | ⟨keys, nodes⟩) entries h
    exact ⟨keys entries h, nodes entries h⟩
  · exact fun h => .tables (fun entries he => (h entries he).keys) fun entries he => (h entries he).nodes

/-- What is put in stands among the others. -/
theorem mem_set {e : Text × Node} (h : e ∈ set key n entries) : e = (key, n) ∨ e ∈ entries := by
  induction entries with
  | nil => exact .inl (List.mem_singleton.1 h)
  | cons kv rest ih =>
    obtain ⟨k, m⟩ := kv
    rw [set] at h
    split at h
    · rename_i hk
      rcases List.mem_cons.1 h with rfl | h
      · exact .inl (by rw [hk])
      · exact .inr (List.mem_cons_of_mem _ h)
    · rcases List.mem_cons.1 h with rfl | h
      · exact .inr List.mem_cons_self
      · exact (ih h).imp_right (List.mem_cons_of_mem _)

/-- What is put in takes the place of what stood under the key. -/
theorem Entries.Distinct.set (h : entries.Distinct) (hn : n.Distinct) : (set key n entries).Distinct := by
  refine ⟨?_, fun e he => ?_⟩
  · have hkeys := h.keys
    clear h
    induction entries with
    | nil => exact List.nodup_singleton _
    | cons kv rest ih =>
      obtain ⟨k, m⟩ := kv
      obtain ⟨hk, hrest⟩ := List.nodup_cons.1 hkeys
      rw [Node.set]
      split
      · exact hkeys
      · rename_i hne
        refine List.nodup_cons.2 ⟨fun hmem => ?_, ih hrest⟩
        obtain ⟨e, he, hek⟩ := List.mem_map.1 hmem
        rcases mem_set he with rfl | he
        · exact hne hek.symm
        · exact hk (List.mem_map.2 ⟨e, he, hek⟩)
  · rcases mem_set he with rfl | he
    · exact hn
    · exact h.nodes e he

/-- What stands under a key is such. -/
theorem Entries.Distinct.of_lookup (h : entries.Distinct) (hn : entries.lookup key = some n) : n.Distinct :=
  h.nodes _ (mem_of_lookup hn)

/-- **A change at the end of a path keeps keys apart** if it does so in the table there. -/
theorem distinct_of_descend {change : Bool → Entries → Option Entries}
    (hchange : ∀ {made entries changed}, change made entries = some changed → entries.Distinct →
      changed.Distinct) {made : Bool} (h : descend dotted change path made entries = some changed)
    (hentries : entries.Distinct) : changed.Distinct := by
  induction path generalizing made entries changed with
  | nil => exact hchange h hentries
  | cons first path ih =>
    unfold descend at h
    split at h
    · obtain ⟨sub, hsub, rfl⟩ := Option.map_eq_some_iff.1 h
      exact hentries.set (distinct_table.2 (ih hsub distinct_nil))
    · cases h
    · cases h
    · rename_i latest others hfound
      obtain ⟨sub, hsub, rfl⟩ := Option.map_eq_some_iff.1 h
      have helements := distinct_tables.1 (hentries.of_lookup hfound)
      refine hentries.set (distinct_tables.2 fun e he => ?_)
      rcases List.mem_cons.1 he with rfl | he
      · exact ih hsub (helements latest List.mem_cons_self)
      · exact helements e (List.mem_cons_of_mem latest he)
    · rename_i opened made sub hfound
      obtain ⟨-, h⟩ := Option.ite_none_left_eq_some.1 h
      obtain ⟨sub, hsub, rfl⟩ := Option.map_eq_some_iff.1 h
      exact hentries.set (distinct_table.2 (ih hsub (distinct_table.1 (hentries.of_lookup hfound))))

/-- A header of a table keeps keys apart. -/
theorem distinct_of_openTable (h : openTable path key root = some changed) (hroot : root.Distinct) :
    changed.Distinct := by
  refine distinct_of_descend (fun {_ entries changed} h hentries => ?_) h hroot
  split at h
  · exact Option.some.inj h ▸ hentries.set (distinct_table.2 distinct_nil)
  · rename_i sub hfound
    exact Option.some.inj h ▸ hentries.set (distinct_table.2 (distinct_table.1 (hentries.of_lookup hfound)))
  · cases h

/-- A header of an element of a list keeps keys apart. -/
theorem distinct_of_openElement (h : openElement path key root = some changed) (hroot : root.Distinct) :
    changed.Distinct := by
  refine distinct_of_descend (fun {_ entries changed} h hentries => ?_) h hroot
  split at h
  · refine Option.some.inj h ▸ hentries.set (distinct_tables.2 fun e he => ?_)
    exact List.mem_singleton.1 he ▸ distinct_nil
  · rename_i elements hfound
    refine Option.some.inj h ▸ hentries.set (distinct_tables.2 fun e he => ?_)
    rcases List.mem_cons.1 he with rfl | he
    · exact distinct_nil
    · exact distinct_tables.1 (hentries.of_lookup hfound) e he
  · cases h

/-- An entry keeps keys apart. -/
theorem distinct_of_assign (hv : v.Distinct) (h : assign path key v entries = some changed)
    (hentries : entries.Distinct) : changed.Distinct := by
  refine distinct_of_descend (fun {_ entries changed} h hentries => ?_) h hentries
  obtain ⟨-, h⟩ := Option.ite_none_left_eq_some.1 h
  split at h
  · exact Option.some.inj h ▸ hentries.set (.value hv)
  · cases h

/-- An entry in the current table keeps keys apart. -/
theorem distinct_of_assignAt (hv : v.Distinct) (h : assignAt current path key v root = some changed)
    (hroot : root.Distinct) : changed.Distinct :=
  distinct_of_descend (distinct_of_assign hv) h hroot

/-- Entries are finished one by one. -/
theorem finishEntries_eq_map (entries : Entries) :
    finishEntries entries = entries.map fun e => (e.1, e.2.finish) := by
  induction entries with
  | nil => rfl
  | cons e rest ih => rw [finishEntries, ih]; rfl

/-- The tables of a list are finished one by one. -/
theorem mem_finishElements {elements : List Entries} {others : List Toml}
    (h : v ∈ finishElements elements others) :
    v ∈ others ∨ ∃ entries ∈ elements, v = .table (finishEntries entries) := by
  induction elements generalizing others with
  | nil => exact .inl h
  | cons e rest ih =>
    rw [finishElements] at h
    rcases ih h with h | ⟨entries, hentries, rfl⟩
    · rcases List.mem_cons.1 h with rfl | h
      · exact .inr ⟨e, List.mem_cons_self, rfl⟩
      · exact .inl h
    · exact .inr ⟨entries, List.mem_cons_of_mem e hentries, rfl⟩

/-- Finished entries have the keys that they had. -/
theorem table_finishEntries (keys : (entries.map Prod.fst).Nodup)
    (values : ∀ e ∈ entries, e.2.finish.Distinct) : (Toml.table (finishEntries entries)).Distinct := by
  rw [finishEntries_eq_map]
  refine .table ?_ fun e he => ?_
  · rwa [List.map_map]
  · obtain ⟨e, hmem, rfl⟩ := List.mem_map.1 he
    exact values e hmem

/-- What has become of a node has the keys of the node. -/
theorem Distinct.finish (h : n.Distinct) : n.finish.Distinct := by
  induction h with
  | value hv => exact hv
  | table keys nodes ih => exact table_finishEntries keys ih
  | tables keys nodes ih =>
    refine .array fun v hv => ?_
    rcases mem_finishElements hv with hv | ⟨entries, hentries, rfl⟩
    · exact absurd hv List.not_mem_nil
    · exact table_finishEntries (keys entries hentries) (ih entries hentries)

/-- What has become of entries has their keys. -/
theorem Entries.Distinct.finish (h : entries.Distinct) : (Toml.table (finishEntries entries)).Distinct :=
  table_finishEntries h.keys fun e he => (h.nodes e he).finish

end Node

/-! ### Readers -/

/-- Whether all that is read with some fuel has distinct keys. -/
structure ReadsDistinct (fuel : Nat) : Prop where
  /-- values -/
  value : ∀ {depth s v rest}, value? fuel depth s = some (v, rest) → v.Distinct
  /-- lists -/
  elements : ∀ {depth s v rest}, elements? fuel depth s = some (v, rest) → v.Distinct
  /-- tables in braces, behind entries with distinct keys -/
  members : ∀ {depth before s v rest}, members? fuel depth before s = some (v, rest) →
    before.Distinct → v.Distinct

variable {fuel depth : Nat} {s rest : Text}

/-- A value is a list, a table in braces, a text or a word. -/
theorem ReadsDistinct.value?_succ (hfuel : ReadsDistinct fuel)
    (h : value? (fuel + 1) depth s = some (v, rest)) : v.Distinct := by
  unfold value? at h
  split at h
  · exact hfuel.elements (Option.ite_none_right_eq_some.1 h).2
  · obtain ⟨-, h⟩ := Option.ite_none_right_eq_some.1 h
    split at h
    · obtain ⟨rfl, -⟩ := Prod.mk.inj (Option.some.inj h)
      exact .table List.nodup_nil nofun
    · exact hfuel.members h Node.distinct_nil
  · obtain ⟨⟨t, rest⟩, -, h⟩ := Option.map_eq_some_iff.1 h
    exact (Prod.mk.inj h).1 ▸ .text t
  · obtain ⟨⟨t, rest⟩, -, h⟩ := Option.map_eq_some_iff.1 h
    exact (Prod.mk.inj h).1 ▸ .text t
  · obtain ⟨w, hw, h⟩ := Option.map_eq_some_iff.1 h
    exact (Prod.mk.inj h).1 ▸ distinct_of_ofWord? hw

/-- The elements of a list are values. -/
theorem ReadsDistinct.elements?_succ (hfuel : ReadsDistinct fuel)
    (h : elements? (fuel + 1) depth s = some (v, rest)) : v.Distinct := by
  unfold elements? at h
  obtain ⟨s, -, h⟩ := Option.bind_eq_some_iff.1 h
  split at h
  · obtain ⟨rfl, -⟩ := Prod.mk.inj (Option.some.inj h)
    exact .array nofun
  · obtain ⟨⟨w, s⟩, hw, h⟩ := Option.bind_eq_some_iff.1 h
    have hfirst := hfuel.value hw
    obtain ⟨s, -, h⟩ := Option.bind_eq_some_iff.1 h
    split at h
    · obtain ⟨rfl, -⟩ := Prod.mk.inj (Option.some.inj h)
      exact .array fun u hu => List.mem_singleton.1 hu ▸ hfirst
    · obtain ⟨⟨others, rest⟩, hothers, h⟩ := Option.bind_eq_some_iff.1 h
      split at h
      · rename_i vs _ heq
        obtain ⟨rfl, -⟩ := Prod.mk.inj (Option.some.inj h)
        obtain ⟨rfl, -⟩ := Prod.mk.inj heq
        cases hfuel.elements hothers with
        | array values =>
          refine .array fun u hu => ?_
          rcases List.mem_cons.1 hu with rfl | hu
          · exact hfirst
          · exact values u hu
      · cases h
    · cases h

/-- The entries of a table in braces are put in one by one. -/
theorem ReadsDistinct.members?_succ (hfuel : ReadsDistinct fuel) {before : Node.Entries}
    (h : members? (fuel + 1) depth before s = some (v, rest)) (hbefore : before.Distinct) : v.Distinct := by
  unfold members? at h
  obtain ⟨⟨path, key, s⟩, -, h⟩ := Option.bind_eq_some_iff.1 h
  dsimp only at h
  split at h
  · obtain ⟨⟨w, s⟩, hw, h⟩ := Option.bind_eq_some_iff.1 h
    obtain ⟨all, hall, h⟩ := Option.bind_eq_some_iff.1 h
    have hmore := Node.distinct_of_assign (hfuel.value hw) hall hbefore
    split at h
    · obtain ⟨rfl, -⟩ := Prod.mk.inj (Option.some.inj h)
      exact hmore.finish
    · exact hfuel.members h hmore
    · cases h
  · cases h

/-- **Values that are read have distinct keys.** -/
theorem readsDistinct (fuel : Nat) : ReadsDistinct fuel := by
  induction fuel with
  | zero => exact ⟨nofun, nofun, nofun⟩
  | succ fuel ih => exact ⟨ih.value?_succ, ih.elements?_succ, ih.members?_succ⟩

/-- A line that is read keeps the keys of a document apart. -/
theorem distinct_of_line? {r next : Reader} (h : line? r s = some (next, rest)) (hr : r.root.Distinct) :
    next.root.Distinct := by
  unfold line? at h
  split at h
  · obtain ⟨⟨path, key, s⟩, -, h⟩ := Option.bind_eq_some_iff.1 h
    dsimp only at h
    split at h
    · obtain ⟨root, hroot, h⟩ := Option.bind_eq_some_iff.1 h
      obtain ⟨rfl, -⟩ := Prod.mk.inj (Option.some.inj h)
      exact Node.distinct_of_openElement hroot hr
    · cases h
  · obtain ⟨⟨path, key, s⟩, -, h⟩ := Option.bind_eq_some_iff.1 h
    dsimp only at h
    split at h
    · obtain ⟨root, hroot, h⟩ := Option.bind_eq_some_iff.1 h
      obtain ⟨rfl, -⟩ := Prod.mk.inj (Option.some.inj h)
      exact Node.distinct_of_openTable hroot hr
    · cases h
  · obtain ⟨⟨path, key, s⟩, -, h⟩ := Option.bind_eq_some_iff.1 h
    dsimp only at h
    split at h
    · obtain ⟨⟨w, behind⟩, hw, h⟩ := Option.bind_eq_some_iff.1 h
      obtain ⟨root, hroot, h⟩ := Option.bind_eq_some_iff.1 h
      obtain ⟨rfl, -⟩ := Prod.mk.inj (Option.some.inj h)
      exact Node.distinct_of_assignAt ((readsDistinct _).value hw) hroot hr
    · cases h

/-- And so do all of them. -/
theorem distinct_of_lines? {r : Reader} {root : Node.Entries} (h : lines? fuel r s = some root)
    (hr : r.root.Distinct) : root.Distinct := by
  induction fuel generalizing r s with
  | zero => cases h
  | succ fuel ih =>
    unfold lines? at h
    dsimp only at h
    split at h
    · exact Option.some.inj h ▸ hr
    · split_ifs at h with hempty
      · split at h
        · exact ih h hr
        · cases h
      · split at h
        · cases h
        · rename_i next _ hline
          split at h
          · exact ih h (distinct_of_line? hline hr)
          · cases h

/-- **Every key of a document stands once in its table.** -/
theorem distinct_of_read? (h : read? s = some v) : v.Distinct := by
  obtain ⟨root, hroot, rfl⟩ := Option.map_eq_some_iff.1 h
  exact (distinct_of_lines? hroot Node.distinct_nil).finish

end Toml

/-! ### Tables of rules -/

namespace RuleTable

/-- Whether the pages of a table, and its selectors, can be told apart by their keys. -/
structure Keyed (t : RuleTable) : Prop where
  /-- no page stands twice under a key -/
  pages : (t.pages.map Prod.fst).Nodup
  /-- nor does a selector -/
  selectors : (t.selectors.map Prod.fst).Nodup

variable {t : RuleTable}

/-- The table that a document gives has the keys of the document. -/
theorem keyed_of_ofToml? {v : Toml} (hv : v.Distinct) (h : ofToml? v = some t) : t.Keyed := by
  have htexts {w : Option Toml} {fields : List (Option Toml)} {texts : List (Text × Text)}
      (hfields : ∀ u, some u ∈ fields → u.Distinct) (hw : w ∈ fields)
      (h : Toml.orDefault [] Toml.toTexts? w = some texts) : (texts.map Prod.fst).Nodup := by
    cases w with
    | none => exact Option.some.inj h ▸ List.nodup_nil
    | some w => exact (hfields w hw).toTexts? h
  obtain ⟨fields, hfields, h⟩ := Option.bind_eq_some_iff.1 h
  have hdistinct : ∀ u, some u ∈ fields → u.Distinct := fun u => hv.fields? hfields
  split at h
  · obtain ⟨rules, -, h⟩ := Option.bind_eq_some_iff.1 h
    obtain ⟨collections, -, h⟩ := Option.bind_eq_some_iff.1 h
    obtain ⟨pages, hpages, h⟩ := Option.bind_eq_some_iff.1 h
    obtain ⟨selectors, hselectors, h⟩ := Option.bind_eq_some_iff.1 h
    rw [← Option.some.inj h]
    exact ⟨htexts hdistinct (by simp) hpages, htexts hdistinct (by simp) hselectors⟩
  · cases h

/-- **A table that is loaded has distinct keys.** -/
theorem keyed_of_load {d : Disk} {p : Path} (h : load d p = .ok t) : t.Keyed := by
  unfold load at h
  split at h
  · exact Except.ok.inj h ▸ ⟨List.nodup_nil, List.nodup_nil⟩
  · unfold ofEntry at h
    split at h
    · cases h
    · split at h
      · cases h
      · rename_i hread
        obtain ⟨v, hv, ht⟩ := Option.bind_eq_some_iff.1 hread
        exact Except.ok.inj h ▸ keyed_of_ofToml? (Toml.distinct_of_read? hv) ht

end RuleTable

end Detour
