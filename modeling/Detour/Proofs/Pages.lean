import Detour.Proofs.Cleaning
import Detour.Proofs.Encoding
import Detour.Proofs.Keys
import Detour.Proofs.Mark
import Detour.Proofs.Numeral
import Detour.Proofs.Referral

/-!
# Pages that are found

A page has a number, and a table may hold it under many keys, as there are many ways to write a number. The
greatest of these keys counts.

* `Directory.Spells`: the ways to write a number, read as that number and no other, by
  `Directory.pageId?_eq_some_iff`.
* `Text.le_iff_encode`: texts are ordered as their bytes are, by `Utf8.encodeChar_append_lt`.
* `Directory.greatest_eq_some_iff`, and from it what is found in a table, `Directory.findPage_eq_some_iff`.
* `RuleTable.page_found` has this for tables, and what becomes of a destination that names a page.
-/

namespace Detour

/-! ### The order of texts -/

namespace Utf8

/-- The bytes of the lesser character are less, whatever follows. -/
theorem encodeChar_append_lt {c d : Char} (h : c.toNat < d.toNat) (x y : Bytes) :
    encodeChar c ++ x < encodeChar d ++ y := by
  have hbounds := toNat_bounds d
  simp only [encodeChar]
  -- what follows is not looked at, so that it makes no difference how it is ordered
  by_cases hxy : x < y
  all_goals
    split_ifs
    all_goals
      simp (disch := omega) only [List.cons_append, List.nil_append, List.cons_lt_cons_iff,
        UInt8.lt_iff_toNat_lt, ← UInt8.toNat_inj, toNat_toUInt8, hxy, and_true, and_false, or_false]
      omega

/-- Behind the same bytes the order is that of what follows. -/
theorem append_le_append_iff (front x y : Bytes) : front ++ x ≤ front ++ y ↔ x ≤ y := by
  induction front with
  | nil => rfl
  | cons b front ih => rw [List.cons_append, List.cons_append, List.cons_le_cons_iff, ih]; simp

/-- Texts with the same bytes are the same. -/
theorem encode_injective {a b : Text} (h : encode a = encode b) : a = b := by
  have hdecode := congrArg decode? h
  rw [decode?_encode, decode?_encode] at hdecode
  exact Option.some.inj hdecode

end Utf8

namespace Text

/-- **Texts are ordered as their bytes are.** -/
theorem le_iff_encode {a b : Text} : le a b ↔ Utf8.encode a ≤ Utf8.encode b := by
  induction a generalizing b with
  | nil => simp [le, Utf8.encode]
  | cons c a ih =>
    cases b with
    | nil =>
      refine ⟨fun h => absurd h (by simp [le]), fun h => ?_⟩
      have hnil : Utf8.encode [] = [] := rfl
      rw [hnil, List.le_nil] at h
      exact absurd (Utf8.encode_injective (h.trans hnil.symm)) (List.cons_ne_nil c a)
    | cons d b =>
      rw [Utf8.encode, Utf8.encode, List.flatMap_cons, List.flatMap_cons, le]
      rcases Nat.lt_trichotomy c.toNat d.toNat with hlt | heq | hgt
      · have hne : c ≠ d := fun h => absurd hlt (by simp [h])
        have hle : c ≤ d := Nat.le_of_lt hlt
        simp [hne, hle, List.le_of_lt (Utf8.encodeChar_append_lt hlt _ _)]
      · obtain rfl := Char.toNat_inj.1 heq
        rw [if_pos rfl, ih, Utf8.append_le_append_iff]
        rfl
      · have hne : c ≠ d := fun h => absurd hgt (by simp [h])
        have hle : ¬ c ≤ d := Nat.not_le_of_lt hgt
        simp [hne, hle, List.not_le.2 (Utf8.encodeChar_append_lt hgt _ _)]

/-- Of two texts, one comes first. -/
theorem le_total (a b : Text) : le a b ∨ le b a := by
  rw [le_iff_encode, le_iff_encode]
  exact List.le_total _ _

/-- What comes before a text comes before all that come behind it. -/
theorem le_trans {a b c : Text} (hab : le a b) (hbc : le b c) : le a c := by
  rw [le_iff_encode] at hab hbc ⊢
  exact List.le_trans hab hbc

/-- Texts that come before each other are the same. -/
theorem le_antisymm {a b : Text} (hab : le a b) (hba : le b a) : a = b := by
  rw [le_iff_encode] at hab hba
  exact Utf8.encode_injective (List.le_antisymm hab hba)

end Text

/-! ### Ways to write the number of a page -/

namespace Directory

variable {id : UInt64} {key path raw : Text} {pages : List (Text × Text)}

/-- The ways to write the number of a page: as decimal digits, perhaps with zeros before them, perhaps with a
plus sign before these, and perhaps with white space around it all. -/
def Spells (key : Text) (id : UInt64) : Prop :=
  ∃ front plus zeros back, key = front ++ (plus ++ (List.replicate zeros '0' ++ writeNat id.toNat)) ++ back ∧
    (∀ c ∈ front, isBlank c) ∧ (∀ c ∈ back, isBlank c) ∧ (plus = [] ∨ plus = ['+'])

/-- White space is no part of a number. -/
theorem not_isBlank_of_isDigit {c : Char} (h : c.isDigit) : isBlank c = false := by
  have halnum : c.isAlphanum := by simp [Char.isAlphanum, h]
  exact Cleaning.of_ascii (fun c => c.isDigit → isBlank c = false) (by decide)
    (Cleaning.ascii_of_isAlphanum halnum) h

/-- **A key is read as the number that it spells**, and as no other. -/
theorem pageId?_eq_some_iff : pageId? key = some id ↔ Spells key id := by
  rw [pageId?, readUInt64?_eq_some_iff]
  constructor
  · rintro ⟨plus, zeros, hkey, hplus⟩
    obtain ⟨front, back, hsplit, hfront, hback, -, -⟩ := Text.exists_trimBoth isBlank key
    have htrim : Text.trimBoth isBlank key = plus ++ (List.replicate zeros '0' ++ writeNat id.toNat) := hkey
    exact ⟨front, plus, zeros, back, htrim ▸ hsplit, hfront, hback, hplus⟩
  · rintro ⟨front, plus, zeros, back, rfl, hfront, hback, hplus⟩
    have hmid : ∀ c ∈ plus ++ (List.replicate zeros '0' ++ writeNat id.toNat), isBlank c = false := by
      intro c hc
      rcases List.mem_append.1 hc with hc | hc
      · obtain rfl | rfl := hplus
        · exact absurd hc List.not_mem_nil
        · rw [List.mem_singleton.1 hc]
          decide
      rcases List.mem_append.1 hc with hc | hc
      · rw [(List.mem_replicate.1 hc).2]
        decide
      · exact not_isBlank_of_isDigit ((writeNat_spec id.toNat).2.1 c hc)
    exact ⟨plus, zeros, Text.trimBoth_append hfront hback (fun c hc => hmid c (List.mem_of_head? hc))
      (fun c hc => hmid c (List.mem_of_getLast? hc)), hplus⟩

/-- A text that spells no number is read as none. -/
theorem pageId?_eq_none_iff : pageId? key = none ↔ ∀ id, ¬ Spells key id := by
  rw [Option.eq_none_iff_forall_ne_some]
  simp only [ne_eq, pageId?_eq_some_iff]

/-! ### Pages in a table -/

/-- The number of an entry's page, and its path. -/
def page? (e : Text × Text) : Option (UInt64 × Text) := (pageId? e.1).map fun id => (id, e.2)

/-- An entry with a page spells its number. -/
theorem page?_eq_some_iff {e : Text × Text} : page? e = some (id, path) ↔ Spells e.1 id ∧ e.2 = path := by
  rw [page?, Option.map_eq_some_iff]
  simp only [Prod.mk.injEq, pageId?_eq_some_iff]
  constructor
  · rintro ⟨_, hspells, rfl, hpath⟩
    exact ⟨hspells, hpath⟩
  · rintro ⟨hspells, hpath⟩
    exact ⟨id, hspells, rfl, hpath⟩

/-- The paths of pages are put in by their numbers, in the order of the keys. -/
theorem loadPages_eq (pages : List (Text × Text)) :
    loadPages pages = .ofList ((inOrder pages).filterMap page?) := by
  rw [Map.ofList, List.foldl_filterMap, loadPages]
  congr 1
  funext paths e
  rw [page?]
  cases pageId? e.1 <;> rfl

/-- The entries of a table in order: those before an entry have lesser keys, those behind it greater ones. -/
theorem pairwise_inOrder (pages : List (Text × Text)) :
    (inOrder pages).Pairwise fun a b => Text.le a.1 b.1 := by
  refine List.pairwise_mergeSort (fun a b c => ?_) (fun a b => ?_) pages
  · exact Text.le_trans
  · exact (Bool.or_eq_true _ _).mpr (Text.le_total a.1 b.1)

/-- **The path of a page** stands under the greatest of the keys that spell its number: the entry that is put
in last takes the place of the others. -/
theorem findPage_eq_some_iff (hkeys : (pages.map Prod.fst).Nodup) :
    findPage pages id = some path ↔ ∃ key, (key, path) ∈ pages ∧ Spells key id ∧
      ∀ e ∈ pages, Spells e.1 id → Utf8.encode e.1 ≤ Utf8.encode key := by
  have horder : (inOrder pages).Perm pages := List.mergeSort_perm pages _
  have hsorted := pairwise_inOrder pages
  have hdistinct := (horder.map Prod.fst).nodup_iff.2 hkeys
  rw [findPage, loadPages_eq, Map.get?_ofList_eq_some_iff]
  simp only [← Text.le_iff_encode, ← horder.mem_iff]
  generalize inOrder pages = sorted at hsorted hdistinct
  constructor
  · rintro ⟨front, back, hpages, hback⟩
    obtain ⟨above, rest, rfl, -, hrest⟩ := List.filterMap_eq_append_iff.1 hpages
    obtain ⟨passed, ⟨key, _⟩, below, rfl, -, hentry, hbelow⟩ := List.filterMap_eq_cons_iff.1 hrest
    obtain ⟨hspells, rfl⟩ := page?_eq_some_iff.1 hentry
    refine ⟨key, by simp, hspells, fun e he hspell => ?_⟩
    rw [← List.append_assoc, List.mem_append] at he
    rcases he with he | he
    · rw [← List.append_assoc] at hsorted
      exact (List.pairwise_append.1 hsorted).2.2 e he _ List.mem_cons_self
    rcases List.mem_cons.1 he with rfl | he
    · exact or_self_iff.1 (Text.le_total key key)
    · have hmem : (id, e.2) ∈ back := by
        rw [← hbelow]
        exact List.mem_filterMap.2 ⟨e, he, page?_eq_some_iff.2 ⟨hspell, rfl⟩⟩
      exact absurd rfl (hback _ hmem)
  · rintro ⟨key, hmem, hspells, hle⟩
    obtain ⟨above, below, rfl⟩ := List.append_of_mem hmem
    refine ⟨above.filterMap page?, below.filterMap page?, ?_, fun p hp hid => ?_⟩
    · rw [List.filterMap_append, List.filterMap_cons_some (page?_eq_some_iff.2 ⟨hspells, rfl⟩)]
    · -- an entry behind has a greater key, and the greatest key stands once
      obtain ⟨e, he, hpage⟩ := List.mem_filterMap.1 hp
      obtain ⟨hspell, -⟩ := page?_eq_some_iff.1 hpage
      rw [hid] at hspell
      have hgreater := (List.pairwise_cons.1 (List.pairwise_append.1 hsorted).2.1).1 e he
      have hsame : key = e.1 := Text.le_antisymm hgreater (hle e (by simp [he]) hspell)
      rw [List.map_append, List.nodup_append] at hdistinct
      exact (List.nodup_cons.1 hdistinct.2.1).1 (List.mem_map.2 ⟨e, he, hsame.symm⟩)

/-- A page is not found if no key spells its number. -/
theorem findPage_eq_none_iff : findPage pages id = none ↔ ∀ e ∈ pages, ¬ Spells e.1 id := by
  have horder : (inOrder pages).Perm pages := List.mergeSort_perm pages _
  rw [findPage, loadPages_eq, Map.get?_ofList_eq_none_iff]
  simp only [← horder.mem_iff, List.mem_filterMap]
  constructor
  · intro hnone e he hspell
    exact hnone (id, e.2) ⟨e, he, page?_eq_some_iff.2 ⟨hspell, rfl⟩⟩ rfl
  · rintro hnone ⟨_, other⟩ ⟨e, he, hpage⟩ rfl
    exact hnone e he (page?_eq_some_iff.1 hpage).1

instance (key : Text) (id : UInt64) : Decidable (Spells key id) := decidable_of_iff _ pageId?_eq_some_iff

end Directory

/-! ### Destinations that name a page -/

namespace Expander

open Template Directory

variable {x : Expander} {raw path : Text} {id : UInt64}

/-- The template of a destination that names a page. -/
theorem template_page (x : Expander) (raw : Text) : x.template (pageWord ++ raw) =
    match pageId? raw with
    | none => .error (.invalidPage raw)
    | some id =>
      match x.directory.page id with
      | none => .error (.missingPage id)
      | some path => .ok path := by
  rw [template, Text.after?_eq_some_iff.2 rfl]
  rfl

/-- A destination without a template has no URL, for the same reason. -/
theorem expand_of_template_error {destination : Text} {e : ExpansionError}
    (h : x.template destination = .error e) (wildcards : List Wildcard) (values : List Text) :
    x.expand destination wildcards values = .error e := by
  rw [expand, h]

/-- Only the template of a destination counts. -/
theorem expand_of_template_eq {destination other : Text} (h : x.template destination = x.template other)
    (wildcards : List Wildcard) (values : List Text) :
    x.expand destination wildcards values = x.expand other wildcards values := by
  rw [expand, expand, h]

end Expander

/-! ### Tables -/

namespace RuleTable

open Template Directory

/-- **A page is found under the greatest of the keys that spell its number**, in the order of their bytes, and
not at all if no key does. Keys that spell no number make no difference. A destination that names a page by
any spelling of its number has the path of the page for its template; one that names none, or a page that is
not found, has no URL, and the error says which. -/
theorem page_found {t : RuleTable} (ht : t.Keyed) :
    (∀ id path, t.directory.page id = some path ↔ ∃ key, (key, path) ∈ t.pages ∧ Spells key id ∧
      ∀ e ∈ t.pages, Spells e.1 id → Utf8.encode e.1 ≤ Utf8.encode key) ∧
    (∀ id, t.directory.page id = none ↔ ∀ e ∈ t.pages, ¬ Spells e.1 id) ∧
    (∀ u : RuleTable, u.Keyed →
      (∀ key path id, Spells key id → ((key, path) ∈ u.pages ↔ (key, path) ∈ t.pages)) →
      u.directory.page = t.directory.page) ∧
    ∀ (x : Expander) (raw : Text) (wildcards : List Wildcard) (values : List Text),
      x.directory = t.directory →
      (∀ id path, Spells raw id → t.directory.page id = some path →
        x.template (pageWord ++ raw) = .ok path ∧
        (¬ pageWord <+: path →
          x.expand (pageWord ++ raw) wildcards values = x.expand path wildcards values) ∧
        ∀ e, x.expand (pageWord ++ raw) wildcards values = .ok e → e.template = path) ∧
      (∀ id, Spells raw id → t.directory.page id = none →
        x.expand (pageWord ++ raw) wildcards values = .error (.missingPage id)) ∧
      ((∀ id, ¬ Spells raw id) →
        x.expand (pageWord ++ raw) wildcards values = .error (.invalidPage raw)) := by
  have hsome (u : RuleTable) (hu : u.Keyed) (id : UInt64) (path : Text) :
      u.directory.page id = some path ↔ ∃ key, (key, path) ∈ u.pages ∧ Spells key id ∧
        ∀ e ∈ u.pages, Spells e.1 id → Utf8.encode e.1 ≤ Utf8.encode key :=
    findPage_eq_some_iff hu.pages
  refine ⟨hsome t ht, fun id => findPage_eq_none_iff, fun u hu hsame => ?_, ?_⟩
  · funext id
    refine Option.ext fun path => ?_
    rw [hsome u hu, hsome t ht]
    constructor
    · rintro ⟨key, hmem, hspells, hle⟩
      exact ⟨key, (hsame key path id hspells).1 hmem, hspells,
        fun e he hspell => hle e ((hsame e.1 e.2 id hspell).2 he) hspell⟩
    · rintro ⟨key, hmem, hspells, hle⟩
      exact ⟨key, (hsame key path id hspells).2 hmem, hspells,
        fun e he hspell => hle e ((hsame e.1 e.2 id hspell).1 he) hspell⟩
  · intro x raw wildcards values hx
    refine ⟨fun id path hspells hpage => ?_, fun id hspells hpage => ?_, fun hnone => ?_⟩
    · have htemplate : x.template (pageWord ++ raw) = .ok path := by
        rw [Expander.template_page, pageId?_eq_some_iff.2 hspells, hx]
        simp only [hpage]
      refine ⟨htemplate, fun hplain => ?_, fun e he => ?_⟩
      · exact Expander.expand_of_template_eq
          (htemplate.trans (Expander.template_of_unpaged hplain).symm) wildcards values
      · exact Except.ok.inj ((Engine.template_of_expand he).symm.trans htemplate)
    · have htemplate : x.template (pageWord ++ raw) = .error (.missingPage id) := by
        rw [Expander.template_page, pageId?_eq_some_iff.2 hspells, hx]
        simp only [hpage]
      exact Expander.expand_of_template_error htemplate wildcards values
    · have htemplate : x.template (pageWord ++ raw) = .error (.invalidPage raw) := by
        rw [Expander.template_page, pageId?_eq_none_iff.2 hnone]
      exact Expander.expand_of_template_error htemplate wildcards values

/-- A table in which two keys spell the number 7, and one spells none. -/
def numbered : RuleTable :=
  ⟨[], [], [("+7".toList, "/a/".toList), ("007".toList, "/b/".toList), ("7x".toList, "/c/".toList)], []⟩

/-- A disk with the file of this table. -/
def numberedDisk : Disk :=
  ⟨[(["t".toList], .file (Utf8.encode "[pages]\n\"+7\"=\"/a/\"\n007=\"/b/\"\n7x=\"/c/\"\n".toList))]⟩

/-- It is loaded from there. -/
theorem load_numbered : load numberedDisk ["t".toList] = .ok numbered := by cbv

/-- Page 7 of this table is the second, though the first spells the same number, and a destination finds it by
yet another spelling. There is no page 8, and the third key is the number of no page. -/
theorem page_found_numbered : numbered.Keyed ∧ numbered.directory.page 7 = some "/b/".toList ∧
    numbered.directory.page 8 = none ∧
    ∀ x : Expander, x.directory = numbered.directory →
      x.template (pageWord ++ " +07".toList) = .ok "/b/".toList ∧
      x.expand (pageWord ++ "8".toList) [] [] = .error (.missingPage 8) ∧
      x.expand (pageWord ++ "7x".toList) [] [] = .error (.invalidPage "7x".toList) := by
  have hkeyed : numbered.Keyed := keyed_of_load load_numbered
  obtain ⟨hsome, hnone, -, hexpand⟩ := page_found hkeyed
  have hseven : numbered.directory.page 7 = some "/b/".toList :=
    (hsome _ _).2 ⟨"007".toList, by decide, by decide, by decide⟩
  have height : numbered.directory.page 8 = none := (hnone 8).2 (by decide)
  refine ⟨hkeyed, hseven, height, fun x hx => ⟨?_, ?_, ?_⟩⟩
  · exact ((hexpand x _ [] [] hx).1 7 _ (by decide) hseven).1
  · exact (hexpand x _ [] [] hx).2.1 8 (by decide) height
  · exact (hexpand x _ [] [] hx).2.2 (pageId?_eq_none_iff.1 (by decide))

end RuleTable

end Detour
