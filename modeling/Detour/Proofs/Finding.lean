import Detour.Proofs.Cleaning
import Detour.Proofs.Keys

/-!
# Selectors that are found

A selector is looked up without the white space around it, while a table keeps its keys as they are
written. So what is stored under a key with white space at its ends is out of reach, unless it is stored
under the bare key as well.

* `Directory.findSelector_eq_some_iff`: what is found under a query.
* `RuleTable.selector_found_iff`: which of the stored selectors are found, and what is found at all.
-/

namespace Detour

/-- A query finds the path of the key that it is without the white space around it. -/
theorem Directory.findSelector_eq_some_iff {selectors : List (Text × Text)}
    (hkeys : (selectors.map Prod.fst).Nodup) {query path : Text} :
    findSelector selectors query = some path ↔ (Text.trim query, path) ∈ selectors := by
  have horder : (inOrder selectors).Perm selectors := List.mergeSort_perm selectors _
  rw [← horder.mem_iff]
  exact Map.get?_ofList_of_nodup ((horder.map Prod.fst).nodup_iff.2 hkeys)

namespace RuleTable

/-- **A stored selector is found if no white space is around its key**, or if the key without it leads to
the same path; and only then. A query finds what stands under it without the white space around it, so
that it is a stored key with white space around it. -/
theorem selector_found_iff {t : RuleTable} (ht : t.Keyed) :
    (∀ key path, (key, path) ∈ t.selectors →
      (t.directory.selector key = some path ↔
        Text.trim key = key ∨ (Text.trim key, path) ∈ t.selectors)) ∧
    (∀ query path, t.directory.selector query = some path ↔ (Text.trim query, path) ∈ t.selectors) ∧
    ∀ query path, t.directory.selector query = some path →
      ∃ key front back, (key, path) ∈ t.selectors ∧ query = front ++ key ++ back ∧
        (∀ c ∈ front, isBlank c) ∧ ∀ c ∈ back, isBlank c := by
  have hfound (query path : Text) :
      t.directory.selector query = some path ↔ (Text.trim query, path) ∈ t.selectors :=
    Directory.findSelector_eq_some_iff ht.selectors
  refine ⟨fun key path hstored => ?_, hfound, fun query path hquery => ?_⟩
  · rw [hfound]
    refine ⟨.inr, ?_⟩
    rintro (hbare | hmem)
    · rwa [hbare]
    · exact hmem
  · obtain ⟨front, back, hsplit, hfront, hback, -, -⟩ := Text.exists_trimBoth isBlank query
    exact ⟨Text.trim query, front, back, (hfound query path).1 hquery, hsplit, hfront, hback⟩

/-- A table with two selectors, of which one has white space around its key. -/
def spaced : RuleTable := ⟨[], [], [], [(" only ".toList, "/x/".toList), ("home".toList, "/".toList)]⟩

/-- A disk with the file of this table. -/
def spacedDisk : Disk :=
  ⟨[(["t".toList], .file (Utf8.encode "[selectors]\n\" only \" = \"/x/\"\nhome = \"/\"\n".toList))]⟩

/-- It is loaded from there. -/
theorem load_spaced : load spacedDisk ["t".toList] = .ok spaced := by cbv

/-- One of its selectors is found, with white space around it as well, and the other is not. -/
theorem selector_found_iff_spaced : spaced.Keyed ∧
    spaced.directory.selector "\thome".toList = some "/".toList ∧
    spaced.directory.selector " only ".toList ≠ some "/x/".toList := by
  have hkeyed : spaced.Keyed := keyed_of_load load_spaced
  obtain ⟨hstored, hquery, -⟩ := selector_found_iff hkeyed
  refine ⟨hkeyed, (hquery _ _).2 (by decide +kernel), fun hfound => ?_⟩
  exact absurd ((hstored _ _ List.mem_cons_self).1 hfound) (by decide +kernel)

/-- A selector that is stored in a file is not found under its own key. -/
theorem selector_not_found : load spacedDisk ["t".toList] = .ok spaced ∧
    (" only ".toList, "/x/".toList) ∈ spaced.selectors ∧
    spaced.directory.selector " only ".toList = none := by
  refine ⟨load_spaced, List.mem_cons_self, Option.eq_none_iff_forall_ne_some.2 fun path hfound => ?_⟩
  have hmem := (Directory.findSelector_eq_some_iff (keyed_of_load load_spaced).selectors).1 hfound
  have hkeys : ∀ e ∈ spaced.selectors, e.1 ≠ Text.trim " only ".toList := by decide +kernel
  exact hkeys _ hmem rfl

end RuleTable

end Detour
