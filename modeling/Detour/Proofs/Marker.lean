import Detour.Proofs.Cleaning
import Detour.Proofs.Slash

/-!
# Markers in a text

A destination may hold markers `(key|collection)`. They are replaced in one pass from left to right, and what
is put in for a marker is not read again.

* `isBasicLetter_iff`: the letters of a collection's name, two of which are not in ASCII.
* `Collections.IsMarker` and `Collections.HoldsMarker`: what a marker is, and the texts that hold one. By
  `Collections.exists_first_marker` one of the markers is the first.
* `Collections.apply_behind`: the first marker is replaced and the pass goes on behind it.
* `Collections.apply_markers` puts this together for every text, and `Collections.apply_long_s` is a marker
  with a name outside of ASCII.
-/

namespace Detour

/-- Of ASCII, the basic letters are the letters. -/
theorem isBasicLetter_ascii :
    ∀ n : Fin 128, isBasicLetter (Char.ofNat n) = (Char.ofNat n).isAlpha := by
  decide

/-- The basic letters are those of ASCII, the long s and the Kelvin sign. -/
theorem isBasicLetter_iff (c : Char) :
    isBasicLetter c ↔ c.isAlpha ∨ c = '\u017F' ∨ c = '\u212A' := by
  have hascii (hc : c.toNat < 128) : isBasicLetter c = c.isAlpha :=
    Cleaning.of_ascii (fun c => isBasicLetter c = c.isAlpha) isBasicLetter_ascii hc
  constructor
  · intro h
    have hletter := h
    simp only [isBasicLetter, Bool.and_eq_true, decide_eq_true_eq, Char.le_def,
      UInt32.le_iff_toNat_le] at h
    have hlo : 97 ≤ (fold c).toNat := h.1
    have hhi : (fold c).toNat ≤ 122 := h.2
    have hplace : c.toNat < 128 ∨ c.toNat = 383 ∨ c.toNat = 8490 := by
      rcases fold_eq_or c with hc | ⟨r, hr, hn, hc⟩
      · rw [hc] at hhi
        omega
      · have hbounds := CaseRun.bounds_of_has hn
        have hmoved := toNat_ofNat (c.toNat + r.shift).toNat
        rw [← hc] at hmoved
        have := foldRuns_small hr (by omega)
        omega
    rcases hplace with hplace | hplace | hplace
    · exact .inl (hascii hplace ▸ hletter)
    · exact .inr (.inl (Char.toNat_inj.1 hplace))
    · exact .inr (.inr (Char.toNat_inj.1 hplace))
  · rintro (halpha | rfl | rfl)
    · have hplace := Cleaning.ascii_of_isAlphanum (show c.isAlphanum by simp [Char.isAlphanum, halpha])
      rwa [hascii hplace]
    · decide
    · decide

namespace Collections

/-! ### What a marker is -/

/-- A marker as it is written. -/
def marker (key name : Text) : Text := '(' :: (key ++ '|' :: (name ++ [')']))

/-- What may stand in a marker as its key and its name. -/
structure IsMarker (key name : Text) : Prop where
  /-- there is a key -/
  key_ne : key ≠ []
  /-- of word characters, hyphens and slashes -/
  key : ∀ c ∈ key, isWord c ∨ c = '-' ∨ c = '/'
  /-- and a name -/
  name_ne : name ≠ []
  /-- of letters -/
  name : ∀ c ∈ name, c.isAlpha ∨ c = '\u017F' ∨ c = '\u212A'

/-- Whether a text holds a marker. -/
def HoldsMarker (s : Text) : Prop := ∃ key name, IsMarker key name ∧ marker key name <:+: s

/-- A marker is found where it stands, and nothing else is. -/
theorem markerForm_eq_some {s key name : Text} {size : Nat} :
    markerForm s = some ((key, name), size) ↔
      IsMarker key name ∧ size = (marker key name).length ∧ marker key name <+: s := by
  have hlength : (marker key name).length = key.length + name.length + 3 := by
    simp [marker]
    omega
  have hkeys : (∀ c ∈ key, isKeyChar c) ↔ ∀ c ∈ key, isWord c ∨ c = '-' ∨ c = '/' := by
    simp [isKeyChar, or_assoc]
  have hletters : (∀ c ∈ name, isBasicLetter c) ↔
      ∀ c ∈ name, c.isAlpha ∨ c = '\u017F' ∨ c = '\u212A' :=
    forall₂_congr fun c _ => isBasicLetter_iff c
  have hwritten (rest : Text) : '(' :: (key ++ '|' :: (name ++ ')' :: rest)) = marker key name ++ rest := by
    simp [marker]
  rw [markerForm_eq_some_iff, hkeys, hletters, hlength]
  constructor
  · rintro ⟨⟨rest, rfl⟩, hkey, hname, hkey_ne, hname_ne, rfl⟩
    exact ⟨⟨hkey_ne, hkey, hname_ne, hname⟩, rfl, rest, (hwritten rest).symm⟩
  · rintro ⟨⟨hkey_ne, hkey, hname_ne, hname⟩, rfl, rest, rfl⟩
    exact ⟨⟨rest, (hwritten rest).symm⟩, hkey, hname, hkey_ne, hname_ne, rfl⟩

/-- Where no marker begins nothing is found. -/
theorem markerForm_eq_none {s : Text} (h : ∀ key name, IsMarker key name → ¬ marker key name <+: s) :
    markerForm s = none := by
  cases hform : markerForm s with
  | none => rfl
  | some found =>
    obtain ⟨⟨key, name⟩, size⟩ := found
    obtain ⟨hmarker, -, hlead⟩ := markerForm_eq_some.1 hform
    exact absurd hlead (h key name hmarker)

/-- The round bracket at the beginning of a marker is the only one that opens. -/
theorem open_notMem_tail {key name : Text} (h : IsMarker key name) :
    '(' ∉ key ++ '|' :: (name ++ [')']) := by
  have hkey : '(' ∉ key := fun hmem => by
    rcases h.key _ hmem with hword | hc | hc
    · exact absurd hword (by decide)
    · exact absurd hc (by decide)
    · exact absurd hc (by decide)
  have hname : '(' ∉ name := fun hmem => by
    rcases h.name _ hmem with halpha | hc | hc
    · exact absurd halpha (by decide)
    · exact absurd hc (by decide)
    · exact absurd hc (by decide)
  simp [hkey, hname]

/-- A marker begins a text or is held by what is behind the first character. -/
theorem holdsMarker_cons {c : Char} {s : Text} :
    HoldsMarker (c :: s) ↔ (∃ key name, IsMarker key name ∧ marker key name <+: c :: s) ∨
      HoldsMarker s := by
  simp only [HoldsMarker, List.infix_cons_iff, and_or_left, exists_or]

/-- A text without opening brackets holds no marker. -/
theorem not_holdsMarker_of_notMem {s : Text} (h : '(' ∉ s) : ¬ HoldsMarker s := by
  rintro ⟨key, name, -, hmarker⟩
  exact h (hmarker.subset List.mem_cons_self)

/-- A marker that begins in front of another one ends in front of it. -/
theorem prefix_of_prefix_append {key name lead key' name' post : Text} (h : IsMarker key name)
    (hlead : lead ≠ []) (hmarker : marker key name <+: lead ++ (marker key' name' ++ post)) :
    marker key name <+: lead := by
  obtain ⟨rest, hrest⟩ := hmarker
  rcases List.append_eq_append_iff.1 hrest with ⟨behind, rfl, -⟩ | ⟨behind, hsplit, hbehind⟩
  · exact List.prefix_append _ behind
  · cases behind with
    | nil => exact ⟨[], hsplit ▸ by simp⟩
    | cons d behind =>
      -- the second marker would begin within the first
      obtain ⟨c, lead, rfl⟩ := List.exists_cons_of_ne_nil hlead
      have hopen : d = '(' := (List.cons.inj hbehind).1.symm
      have htail := (List.cons.inj hsplit).2
      refine absurd ?_ (open_notMem_tail h)
      rw [htail, hopen]
      exact List.mem_append_right lead List.mem_cons_self

/-! ### One pass over a text -/

/-- **A text that holds no marker** is kept. -/
theorem apply_of_not_holdsMarker (cs : Collections) {s : Text} (h : ¬ HoldsMarker s) :
    cs.apply s = s := by
  induction s with
  | nil => rfl
  | cons c s ih =>
    rw [holdsMarker_cons, not_or] at h
    have hnone : markerForm (c :: s) = none :=
      markerForm_eq_none fun key name hmarker hlead => h.1 ⟨key, name, hmarker, hlead⟩
    rw [apply, Text.rewrite_cons _ hnone]
    exact congrArg (c :: ·) (ih h.2)

/-- **The first marker of a text** is replaced, and the pass goes on behind it. -/
theorem apply_behind (cs : Collections) {lead key name : Text} (hlead : ¬ HoldsMarker lead)
    (hmarker : IsMarker key name) (post : Text) :
    cs.apply (lead ++ (marker key name ++ post)) = lead ++ (cs.mapOrSelf name key ++ cs.apply post) := by
  induction lead with
  | nil =>
    have hform : markerForm (marker key name ++ post) =
        some ((key, name), (marker key name).length) :=
      markerForm_eq_some.2 ⟨hmarker, rfl, List.prefix_append _ post⟩
    exact Text.rewrite_append _ (List.cons_ne_nil _ _) hform
  | cons c lead ih =>
    have hnone : markerForm (c :: (lead ++ (marker key name ++ post))) = none :=
      markerForm_eq_none fun key' name' hmarker' hprefix =>
        hlead ⟨key', name', hmarker',
          (prefix_of_prefix_append hmarker' (List.cons_ne_nil c lead) hprefix).isInfix⟩
    rw [holdsMarker_cons, not_or] at hlead
    rw [List.cons_append, apply, Text.rewrite_cons _ hnone]
    exact congrArg (c :: ·) (ih hlead.2)

/-- Of the markers that a text holds one is the first. -/
theorem exists_first_marker {s : Text} (h : HoldsMarker s) : ∃ lead key name post,
    s = lead ++ (marker key name ++ post) ∧ IsMarker key name ∧ ¬ HoldsMarker lead := by
  have hnil : ¬ HoldsMarker [] := not_holdsMarker_of_notMem List.not_mem_nil
  induction s with
  | nil => exact absurd h hnil
  | cons c s ih =>
    by_cases hfront : ∃ key name, IsMarker key name ∧ marker key name <+: c :: s
    · obtain ⟨key, name, hmarker, post, hpost⟩ := hfront
      exact ⟨[], key, name, post, hpost.symm, hmarker, hnil⟩
    · obtain ⟨lead, key, name, post, rfl, hmarker, hlead⟩ :=
        ih ((holdsMarker_cons.1 h).resolve_left hfront)
      refine ⟨c :: lead, key, name, post, rfl, hmarker, fun hholds => ?_⟩
      rcases holdsMarker_cons.1 hholds with ⟨key', name', hmarker', hprefix⟩ | hholds
      · exact hfront ⟨key', name', hmarker',
          hprefix.trans (List.cons_prefix_cons.2 ⟨rfl, List.prefix_append lead _⟩)⟩
      · exact hlead hholds

/-- **Markers are replaced in one pass from left to right**: the first one by the value that its key has in
the collection, and the rest of the text behind it by the same pass, so that nothing that is put in is read
again. A text that holds no marker is kept, and every other one is of the first shape. -/
theorem apply_markers (cs : Collections) :
    (∀ lead key name post, ¬ HoldsMarker lead → IsMarker key name →
      cs.apply (lead ++ (marker key name ++ post)) =
        lead ++ (cs.mapOrSelf name key ++ cs.apply post)) ∧
      (∀ s, ¬ HoldsMarker s → cs.apply s = s) ∧
      ∀ s, HoldsMarker s → ∃ lead key name post,
        s = lead ++ (marker key name ++ post) ∧ IsMarker key name ∧ ¬ HoldsMarker lead :=
  ⟨fun _ _ _ post hlead hmarker => apply_behind cs hlead hmarker post,
    fun _ => apply_of_not_holdsMarker cs, fun _ => exists_first_marker⟩

/-- A collection with a value that is written like a marker. -/
def colors : Collections := [⟨"colors".toList, "red=(blue|colors)\nblue=navy".toList⟩]

/-- A value that is written like a marker is not read again, and a bracket in front of a marker stays. -/
theorem apply_markers_colors : ¬ HoldsMarker "/(".toList ∧ IsMarker "red".toList "colors".toList ∧
    colors.apply ("/(".toList ++ (marker "red".toList "colors".toList ++ "/(blue|colors)".toList)) =
      "/((blue|colors)/navy".toList := by
  have hlead : ¬ HoldsMarker "/(".toList := by
    rintro ⟨key, name, -, hmarker⟩
    have := hmarker.length_le
    simp [marker] at this
    omega
  have hword : "red".toList.all isWord := by decide
  have halpha : "colors".toList.all Char.isAlpha := by decide
  have hmarker : IsMarker "red".toList "colors".toList :=
    ⟨by decide, fun c hc => .inl (List.all_eq_true.1 hword c hc), by decide,
      fun c hc => .inl (List.all_eq_true.1 halpha c hc)⟩
  refine ⟨hlead, hmarker, ?_⟩
  rw [(apply_markers colors).1 _ _ _ _ hlead hmarker]
  decide +kernel

/-- A name outside of ASCII makes a marker as well: a text without markers whose names are of ASCII is not
always kept. -/
theorem apply_long_s :
    (∀ key name, key ≠ [] → name ≠ [] → (∀ c ∈ name, c.isAlpha) →
      ¬ marker key name <:+: "(a|\u017F)".toList) ∧
      apply [] "(a|\u017F)".toList = "a".toList := by
  refine ⟨fun key name hkey hname halpha hmarker => ?_, by decide⟩
  have hkey_pos := List.length_pos_iff.2 hkey
  have hname_pos := List.length_pos_iff.2 hname
  have hlength : (marker key name).length = key.length + name.length + 3 := by
    simp [marker]
    omega
  have hfive : "(a|\u017F)".toList.length = 5 := rfl
  -- the marker would be the whole text
  have hwhole := hmarker.eq_of_length_le (by omega)
  have hboth : key.length + name.length + 3 = 5 := by rw [← hlength, hwhole, hfive]
  obtain ⟨k, rfl⟩ := List.length_eq_one_iff.1 (show key.length = 1 by omega)
  obtain ⟨d, rfl⟩ := List.length_eq_one_iff.1 (show name.length = 1 by omega)
  have hd : d = '\u017F' := by
    simp [marker] at hwhole
    exact hwhole.2
  have := halpha d List.mem_cons_self
  rw [hd] at this
  exact absurd this (by decide)

end Collections

end Detour
