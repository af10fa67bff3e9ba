import Detour.Config.Fault
import Detour.Proofs.Asking
import Detour.Proofs.Transparency
import Mathlib.Data.List.TakeWhile

/-!
# Mounted sites

A site may be mounted below a path, which is taken off its requests. Slashes are taken off first, then the
mount path; so those in front of the mount path go, and those behind it stay.

* `Target.LeavesSlash`: the requests below a mount path that keep a slash in front.
* `Target.ofUri_below`, `Target.ofUri_slashes`: what is left of a request below the mount path.
* `Target.ofUri_mounted`: a mounted site is asked for the same as an unmounted one, unless a slash is
  left; `Target.ofUri_doubled` is a request where one is.
-/

namespace Detour

namespace Target

/-- Whether a slash is left in front of the path `p` below the mount path `root`: the path begins with one
and the mount path is more than slashes. -/
def LeavesSlash (root p : Text) : Prop := p.head? = some '/' ∧ ∃ c ∈ root, c ≠ '/'

/-! ### Slashes -/

/-- Nothing is left of slashes. -/
theorem withoutSlashes_eq_nil {s : Text} : withoutSlashes s = [] ↔ ∀ c ∈ s, c = '/' := by
  simp [withoutSlashes, Text.trimStart, List.dropWhile_eq_nil_iff]

/-- Behind slashes, the slashes in front of the rest go as well. -/
theorem withoutSlashes_append_of_slashes {lead : Text} (s : Text) (h : ∀ c ∈ lead, c = '/') :
    withoutSlashes (lead ++ s) = withoutSlashes s :=
  List.dropWhile_append_of_pos fun c hc => beq_iff_eq.2 (h c hc)

/-- Behind anything else, the rest stays as it is. -/
theorem withoutSlashes_append {lead : Text} (s : Text) (h : ∃ c ∈ lead, c ≠ '/') :
    withoutSlashes (lead ++ s) = withoutSlashes lead ++ s := by
  have hkept : withoutSlashes lead ≠ [] := fun hnil => by
    obtain ⟨c, hc, hne⟩ := h
    exact hne (withoutSlashes_eq_nil.1 hnil c hc)
  rw [withoutSlashes, Text.trimStart, List.dropWhile_append, if_neg]
  · rfl
  · rw [List.isEmpty_iff]
    exact hkept

/-- No slash is in front of what is left. -/
theorem head?_withoutSlashes (s : Text) : (withoutSlashes s).head? ≠ some '/' := by
  intro hslash
  have := List.head?_dropWhile_not (· == '/') s
  rw [withoutSlashes, Text.trimStart] at hslash
  rw [hslash] at this
  exact absurd this (by decide)

/-- A text that does not begin with a slash is left as it is. -/
theorem withoutSlashes_of_head? {s : Text} (h : s.head? ≠ some '/') : withoutSlashes s = s := by
  cases s with
  | nil => rfl
  | cons c s => exact withoutSlashes_cons s fun hc => h (congrArg some hc)

/-! ### Paths below the mount path -/

/-- A path keeps its first character. -/
theorem head?_of_ofPath {path p : Text} (h : ofPath path = .path p) : p.head? = path.head? := by
  rcases ofPath_path h with ⟨c, rest, rfl, -, rfl⟩ | ⟨-, rfl⟩
  · rfl
  · rfl

/-- A path that begins with a slash is neither the entry script nor goes on behind it. -/
theorem ofPath_slash (rest : Text) : ofPath ('/' :: rest) = .path ('/' :: rest) := rfl

/-- An unmounted site is asked for the path without its slashes. -/
theorem ofUri_slash (p : Text) : ofUri ['/'] ('/' :: p) = ofPath (withoutSlashes p) := rfl

/-- **Below the mount path** only what is behind it counts, and that as it is, if the mount path is more than
slashes. -/
theorem ofUri_below {root : Text} (p : Text) (h : ∃ c ∈ root, c ≠ '/') :
    ofUri root (root ++ p) = ofPath p := by
  have hroot : root ≠ ['/'] := by
    rintro rfl
    simp at h
  rw [ofUri, withoutSlashes_append p h, unmount, if_neg hroot, Text.after?_eq_some_iff.2 rfl,
    Option.getD_some]

/-- Below slashes alone, those in front of the rest go as well. -/
theorem ofUri_slashes {root : Text} (p : Text) (h : ∀ c ∈ root, c = '/') :
    ofUri root (root ++ p) = ofPath (withoutSlashes p) := by
  rw [ofUri, withoutSlashes_append_of_slashes p h, unmount]
  split
  · rfl
  · rw [withoutSlashes_eq_nil.2 h, Text.after?, Option.getD_some]

/-- **A mounted site is asked for the same as an unmounted one** exactly if no slash is left in front of the
path below the mount path. Then the path does not begin with a slash either; but if one is left, the whole
path is matched as it is, and the entry script is not seen in it. -/
theorem ofUri_mounted (root p : Text) :
    (ofUri root (root ++ p) = ofUri ['/'] ('/' :: p) ↔ ¬ LeavesSlash root p) ∧
      (∀ path, ofUri root (root ++ p) = .path path → (path.head? = some '/' ↔ LeavesSlash root p)) ∧
      (LeavesSlash root p → ofUri root (root ++ p) = .path p) := by
  have hleft (h : LeavesSlash root p) : ofUri root (root ++ p) = .path p := by
    obtain ⟨hslash, hmore⟩ := h
    obtain ⟨rest, rfl⟩ := List.head?_eq_some_iff.1 hslash
    rw [ofUri_below _ hmore, ofPath_slash]
  have hsame (h : ¬ LeavesSlash root p) : ofUri root (root ++ p) = ofUri ['/'] ('/' :: p) := by
    by_cases hmore : ∃ c ∈ root, c ≠ '/'
    · rw [ofUri_below p hmore, ofUri_slash, withoutSlashes_of_head? fun hslash => h ⟨hslash, hmore⟩]
    · simp only [not_exists, not_and, not_not] at hmore
      rw [ofUri_slashes p hmore, ofUri_slash]
  have hfree {path : Text} (h : ofUri ['/'] ('/' :: p) = .path path) : path.head? ≠ some '/' := by
    rw [head?_of_ofPath h]
    exact head?_withoutSlashes p
  refine ⟨⟨fun heq hslash => ?_, hsame⟩, fun path hpath => ⟨fun hslash => ?_, fun h => ?_⟩, hleft⟩
  · rw [hleft hslash] at heq
    exact hfree heq.symm hslash.1
  · by_contra hnone
    rw [hsame hnone] at hpath
    exact hfree hpath hslash
  · rw [hleft h] at hpath
    rw [← Target.path.inj hpath]
    exact h.1

/-- Behind two slashes a mounted site does not see the entry script, and an unmounted one does. -/
theorem ofUri_doubled :
    Config.isRoot "/site/".toList ∧
      ofUri ['/'] ('/' :: "/index.php".toList) = .entry ∧
      ofUri "/site/".toList ("/site/".toList ++ "/index.php".toList) = .path "/index.php".toList := by
  decide

end Target

end Detour
