import Detour.Proofs.Ink
import Detour.Rewrite.Letters
import Detour.Rewrite.Template
import Detour.Url.Absolute

/-!
# What becomes of a value that is put in uncleaned

Captured values are put into a destination one after the other, and every later pass reads the text
as it then is. `Expander.trail` follows the expansion on an inked text: each value that is put in
uncleaned has an ink of its own, and the trail notes which characters the constructs of the passes
cover and which slashes are cut off at the end.

* `Trail.Keeps`: the value stands in the URL in one piece, but for slashes cut off at the end.
* `Trail.Spares`: no construct that was found covers a character of the value.
* `Trail.Sound` is what every pass keeps; with it the two come to the same.
* `Expander.keeps_iff_spares` is the outcome for the whole expansion, and
  `Expander.expand_placeholder_of_value` a value that is read as a placeholder.
-/

namespace Detour

open Inked Template

/-! ### Trails -/

/-- A destination on its way to a URL, with what became of the values put in. -/
structure Trail where
  /-- the text so far -/
  text : Inked
  /-- the values of the slots -/
  mapped : List Text
  /-- the values put in uncleaned, in the order of their inks -/
  put : List Text
  /-- what constructs covered, and the slashes taken out in front -/
  covered : Inked
  /-- the slashes cut off at the end -/
  cut : Inked

namespace Trail

/-- A trail at its beginning. -/
def start (template : Text) : Trail := ⟨bare template, [], [], [], []⟩

/-- A pass that replaces the constructs of a form by texts without ink. -/
def pass {β : Type} (form : Form β) (write : Nat → β → Text) (n : Nat) (t : Trail) : Trail :=
  let cuts := Inked.cut form t.text
  { t with
    text := Cut.place (fun i m => bare (write i m)) n cuts
    covered := t.covered ++ Cut.covers cuts }

/-- A pass that puts a value in wherever a word stands, each time in an ink of its own. -/
def inject (word value : Text) (t : Trail) : Trail :=
  let cuts := Inked.cut (Text.wordForm word) t.text
  { t with
    text := Cut.place (fun i _ => mark i value) t.put.length cuts
    put := t.put ++ List.replicate (Cut.meanings cuts).length value
    covered := t.covered ++ Cut.covers cuts }

/-- A trail with its last slashes cut off, and a single one put behind if the template has one. -/
def settle (template : Text) (t : Trail) : Trail :=
  { t with
    text := (t.text.reverse.dropWhile (·.1 == '/')).reverse ++
      bare (if template.getLast? == some '/' then ['/'] else [])
    cut := (t.text.reverse.takeWhile (·.1 == '/')).reverse ++ t.cut }

/-- A trail behind a site, where the last of the slashes in front, if there is one, parts the two;
the other slashes in front are taken out. -/
def behind (site : Text) (t : Trail) : Trail :=
  let slashes := t.text.takeWhile (·.1 == '/')
  { t with
    text := bare (Text.trimEnd (· == '/') site ++ if slashes.isEmpty then ['/'] else []) ++
      (slashes.getLast?.toList ++ t.text.dropWhile (·.1 == '/'))
    covered := t.covered ++ slashes.dropLast }

/-- A trail with its slots from number `n` on filled. -/
def fill (n : Nat) : (values : List Text) → Trail → Trail
  | [], t => t
  | value :: values, t => fill (n + 1) values (t.pass (Text.wordForm (slot n)) (fun _ _ => value) 0)

/-- A value stands in the text in one piece, but for what was cut off at the end. -/
def Keeps (t : Trail) (k : Nat) (v : Text) : Prop :=
  ∃ kept, Holds k kept t.text ∧ v = kept ++ letters (of k t.cut)

/-- No construct covered a character of a value. -/
def Spares (t : Trail) (k : Nat) : Prop := ∀ g ∈ t.covered, g.2 ≠ some k

end Trail

namespace Expander

variable (x : Expander)

/-- Whether `{name}` receives what a wildcard captured as it is. -/
def leaves (w : Wildcard) : Bool := w.raw || x.cleaner.mode == .off

/-- The trail of one captured value put in for `{name}`. -/
def followName (w : Wildcard) (captured : Text) (t : Trail) : Trail :=
  let word := ['\x7b'] ++ w.name ++ ['\x7d']
  if x.leaves w then t.inject word captured
  else t.pass (Text.wordForm word) (fun _ _ => x.inject w captured) 0

/-- The trail of slots left for the mapping references to a wildcard. -/
def followMapping (w : Wildcard) (captured : Text) (t : Trail) : Trail :=
  let names := Text.hits (Text.pieces (mappingForm w.name) (letters t.text))
  { t.pass (mappingForm w.name) (fun n _ => slot n) t.mapped.length with
    mapped := t.mapped ++ names.map fun name => x.collections.mapOrSelf name captured }

/-- The trail of one captured value put in wherever its wildcard is referred to. -/
def follow (w : Wildcard) (captured : Text) (t : Trail) : Trail :=
  x.followMapping w captured
    (x.followName w captured (t.inject (['\x7b', '!'] ++ w.name ++ ['\x7d']) captured))

/-- The trail of all captured values put in. -/
def followAll (captures : List (Wildcard × Text)) (t : Trail) : Trail :=
  captures.foldl (fun t (w, captured) => x.follow w captured t) t

/-- The trail of a draft on its way to a URL with selectors. -/
def followFinish (template : Text) (t : Trail) : Trail :=
  let t := (t.settle template).pass Collections.markerForm
    (fun _ (key, name) => x.collections.mapOrSelf name key) 0
  t.fill 0 t.mapped

/-- The trail of selectors replaced by the paths they find. -/
def followSelect (t : Trail) : Trail :=
  t.pass selectorForm (fun _ s => (x.directory.selector s).getD []) 0

/-- The trail of a URL put behind that of the site if it has no scheme. -/
def followSite (t : Trail) : Trail :=
  if (Text.trim x.site).isEmpty || x.urls.isAbsolute (letters t.text) then t else t.behind x.site

/-- The trail of an expansion. -/
def trail (template : Text) (wildcards : List Wildcard) (values : List Text) : Trail :=
  x.followSite <| x.followSelect <| x.followFinish template <|
    x.followAll (wildcards.zip values) (.start (unbracket template))

end Expander

/-! ### The text of a trail -/

namespace Trail

variable {β : Type} {form : Form β} {t : Trail}

/-- A pass is a rewriting of the text. -/
theorem letters_pass {put : β → Text} (n : Nat) :
    letters (t.pass form (fun _ m => put m) n).text = Text.rewrite form put (letters t.text) :=
  Cut.letters_place_cut fun _ _ => letters_bare _

/-- Putting a value in replaces a word. -/
theorem letters_inject (word value : Text) :
    letters (t.inject word value).text = Text.replaceAll word value (letters t.text) := by
  rw [Text.replaceAll_eq_rewrite]
  exact Cut.letters_place_cut fun _ _ => letters_mark _ _

/-- A pass that leaves slots writes them in order. -/
theorem letters_pass_slots {form : Form Text} (n : Nat) :
    letters (t.pass form (fun i _ => slot i) n).text =
      writeSlots n (Text.pieces form (letters t.text)) := by
  have h : ∀ (cuts : List (Cut Text)) n,
      letters (Cut.place (fun i _ => bare (slot i)) n cuts) = writeSlots n (cuts.map Cut.piece) := by
    intro cuts
    induction cuts with
    | nil => exact fun _ => rfl
    | cons c cuts ih =>
      intro n
      cases c with
      | plain g => exact congrArg (g.1 :: ·) (ih n)
      | hit m first more =>
        rw [Cut.place, letters_append, letters_bare, ih]
        rfl
  rw [← Cut.map_piece_cut]
  exact h _ n

/-- Taking characters off a text by what they are takes them off its letters. -/
theorem letters_dropWhile (p : Char → Bool) (t : Inked) :
    letters (t.dropWhile fun g => p g.1) = (letters t).dropWhile p := by
  rw [letters, letters, List.dropWhile_map]
  rfl

/-- Settling the end of a trail settles that of the text. -/
theorem letters_settle (template : Text) :
    letters (t.settle template).text = settleSlash template (letters t.text) := by
  have hreverse : ∀ u : Inked, letters u.reverse = (letters u).reverse := fun u => List.map_reverse
  rw [settle, letters_append, letters_bare, hreverse, letters_dropWhile (· == '/'), hreverse]
  rfl

/-- Filling the slots of a trail fills those of the text. -/
theorem letters_fill (n : Nat) (values : List Text) :
    letters (t.fill n values).text = fillSlots n values (letters t.text) := by
  induction values generalizing n t with
  | nil => rfl
  | cons value values ih =>
    rw [fill, ih, letters_pass, ← Text.replaceAll_eq_rewrite]
    rfl

/-- A trail is put behind a site as a URL is. -/
theorem letters_behind (site : Text) :
    letters (t.behind site).text =
      Text.trimEnd (· == '/') site ++ ['/'] ++ Text.trimStart (· == '/') (letters t.text) := by
  have hslash : ∀ g ∈ t.text.takeWhile (·.1 == '/'), g.1 = '/' := by
    intro g hg
    simpa using List.all_eq_true.1 List.all_takeWhile g hg
  rw [behind, letters_append, letters_append, letters_bare, letters_dropWhile (· == '/')]
  rw [Text.trimStart, List.append_assoc, List.append_assoc]
  congr 1
  rw [← List.append_assoc]
  congr 1
  cases hlast : (t.text.takeWhile (·.1 == '/')).getLast? with
  | none =>
    rw [List.getLast?_eq_none_iff.1 hlast]
    rfl
  | some g =>
    have hmem := List.mem_of_getLast? hlast
    have hne : (t.text.takeWhile (·.1 == '/')).isEmpty = false := by
      rw [List.isEmpty_eq_false_iff]
      exact List.ne_nil_of_mem hmem
    rw [hne]
    simp [letters, hslash g hmem]

/-! ### What every pass keeps -/

/-- What holds of a trail at every stage: inks are given out in order, every character of a value is
still there, covered or cut off, and a value that nothing covered stands in one piece. -/
structure Sound (t : Trail) : Prop where
  /-- no character has an ink that is not given out -/
  fresh : ∀ k, t.put.length ≤ k →
    of k t.text = [] ∧ of k t.covered = [] ∧ of k t.cut = []
  /-- every character of a value is accounted for -/
  balanced : ∀ {k v}, t.put[k]? = some v →
    (of k t.text).length + (of k t.covered).length + (of k t.cut).length = v.length
  /-- a value that nothing covered stands in one piece -/
  whole : ∀ {k v}, t.put[k]? = some v → of k t.covered = [] → t.Keeps k v
  /-- only slashes are cut off -/
  slashes : ∀ g ∈ t.cut, g.1 = '/'

/-- No ink is given out at the beginning. -/
theorem sound_start (template : Text) : Sound (start template) where
  fresh k _ := ⟨of_bare k template, rfl, rfl⟩
  balanced h := absurd h (by simp [start])
  whole h := absurd h (by simp [start])
  slashes := by simp [start]

/-- A value is kept exactly if no construct covered a character of it: a covered one is missed. -/
theorem Sound.keeps_iff (h : Sound t) {k : Nat} {v : Text} (hv : t.put[k]? = some v) :
    t.Keeps k v ↔ t.Spares k := by
  rw [Spares, ← of_eq_nil_iff]
  refine ⟨?_, h.whole hv⟩
  rintro ⟨kept, hholds, rfl⟩
  have hkept := hholds.length_le
  have hbalanced := h.balanced hv
  rw [List.length_append, show (letters (of k t.cut)).length = (of k t.cut).length from
    List.length_map _] at hbalanced
  exact List.length_eq_zero_iff.1 (by omega)

section Passes

variable {write : Nat → β → Inked} {n k : Nat}

/-- What a pass covers and leaves of one ink, if it puts in nothing of that ink. -/
theorem length_of_cut
    (h : ∀ i m, n ≤ i → i < n + (Cut.meanings (Inked.cut form t.text)).length →
      of k (write i m) = []) :
    (of k (Cut.place write n (Inked.cut form t.text))).length +
      (of k (Cut.covers (Inked.cut form t.text))).length = (of k t.text).length := by
  rw [Cut.length_of_place h, Cut.flatMap_under_cut]

/-- Nothing of an ink lies under the cuts of a text without it. -/
theorem of_under_eq_nil (form : Form β) (ht : of k t.text = []) :
    of k ((Inked.cut form t.text).flatMap Cut.under) = [] := by
  rwa [Cut.flatMap_under_cut]

/-- A value that is kept and that a pass does not cover is kept. -/
theorem Keeps.place {v : Text} (h : t.Keeps k v)
    (hcovers : of k (Cut.covers (Inked.cut form t.text)) = []) :
    ∃ kept, Holds k kept (Cut.place write n (Inked.cut form t.text)) ∧
      v = kept ++ letters (of k t.cut) := by
  obtain ⟨kept, hholds, hv⟩ := h
  refine ⟨kept, Cut.holds_place ?_ hcovers, hv⟩
  rwa [Cut.flatMap_under_cut]

/-- A pass without ink keeps a trail sound. -/
theorem Sound.pass (h : Sound t) (form : Form β) (write : Nat → β → Text) (n : Nat) :
    Sound (t.pass form write n) where
  fresh k hk := by
    obtain ⟨htext, hcovered, hcut⟩ := h.fresh k hk
    have hunder := of_under_eq_nil form htext
    refine ⟨Cut.of_place_eq_nil (fun i m _ _ => of_bare k (write i m)) hunder, ?_, hcut⟩
    rw [Trail.pass, of_append, hcovered, Cut.of_covers_eq_nil hunder, List.nil_append]
  balanced {k v} hv := by
    have hbalanced := h.balanced hv
    have hlength : (of k (t.pass form write n).text).length +
        (of k (Cut.covers (Inked.cut form t.text))).length = (of k t.text).length :=
      length_of_cut fun i m _ _ => of_bare k (write i m)
    change _ + (of k (t.covered ++ Cut.covers (Inked.cut form t.text))).length +
      (of k t.cut).length = _
    rw [of_append, List.length_append]
    omega
  whole {k v} hv hcovered := by
    rw [Trail.pass, of_append, List.append_eq_nil_iff] at hcovered
    exact (h.whole hv hcovered.1).place hcovered.2
  slashes := h.slashes

/-- A value has been put in before, or it is put in now. -/
theorem put_inject {word value v : Text} (hv : (t.inject word value).put[k]? = some v) :
    (k < t.put.length ∧ t.put[k]? = some v) ∨ (t.put.length ≤ k ∧
      k < t.put.length + (Cut.meanings (Inked.cut (Text.wordForm word) t.text)).length ∧
        value = v) := by
  change (t.put ++ List.replicate _ value)[k]? = some v at hv
  rw [List.getElem?_append] at hv
  by_cases hk : k < t.put.length
  · rw [if_pos hk] at hv
    exact .inl ⟨hk, hv⟩
  · rw [if_neg hk, List.getElem?_replicate] at hv
    split at hv
    · exact .inr ⟨by omega, by omega, Option.some.inj hv⟩
    · exact absurd hv (by simp)

/-- Putting a value in gives out inks and keeps a trail sound. -/
theorem Sound.inject (h : Sound t) (word value : Text) : Sound (t.inject word value) where
  fresh k hk := by
    rw [Trail.inject, List.length_append, List.length_replicate] at hk
    obtain ⟨htext, hcovered, hcut⟩ := h.fresh k (by omega)
    have hother : ∀ i (_ : Unit), t.put.length ≤ i →
        i < t.put.length + (Cut.meanings (Inked.cut (Text.wordForm word) t.text)).length →
          of k (mark i value) = [] := fun i _ _ hi => of_mark_ne (by omega) value
    have hunder := of_under_eq_nil (Text.wordForm word) htext
    refine ⟨Cut.of_place_eq_nil hother hunder, ?_, hcut⟩
    rw [Trail.inject, of_append, hcovered, Cut.of_covers_eq_nil hunder, List.nil_append]
  balanced {k v} hv := by
    change (of k (t.inject word value).text).length +
      (of k (t.covered ++ Cut.covers (Inked.cut (Text.wordForm word) t.text))).length +
        (of k t.cut).length = _
    rw [of_append, List.length_append]
    -- an ink from before loses what the word covers, and a new one comes in with all of its value
    rcases put_inject hv with ⟨hk, hv⟩ | ⟨hlo, hhi, rfl⟩
    · have hbalanced := h.balanced hv
      have hother : ∀ i (_ : Unit), t.put.length ≤ i →
          i < t.put.length + (Cut.meanings (Inked.cut (Text.wordForm word) t.text)).length →
            of k (mark i value) = [] := fun i _ hi _ => of_mark_ne (by omega) value
      have hlength : (of k (t.inject word value).text).length +
          (of k (Cut.covers (Inked.cut (Text.wordForm word) t.text))).length =
            (of k t.text).length := length_of_cut hother
      omega
    · obtain ⟨htext, hcovered, hcut⟩ := h.fresh k hlo
      have hunder := of_under_eq_nil (Text.wordForm word) htext
      have hmark : (of k (t.inject word value).text).length = value.length :=
        (Cut.holds_place_mark hlo hhi hunder).2
      rw [hmark, hcovered, Cut.of_covers_eq_nil hunder, hcut]
      rfl
  whole {k v} hv hcovered := by
    change of k (t.covered ++ Cut.covers (Inked.cut (Text.wordForm word) t.text)) = [] at hcovered
    rw [of_append, List.append_eq_nil_iff] at hcovered
    rcases put_inject hv with ⟨_, hv⟩ | ⟨hlo, hhi, rfl⟩
    · exact (h.whole hv hcovered.1).place hcovered.2
    · obtain ⟨htext, _, hcut⟩ := h.fresh k hlo
      have hunder := of_under_eq_nil (Text.wordForm word) htext
      refine ⟨value, (Cut.holds_place_mark hlo hhi hunder).1, ?_⟩
      change value = value ++ letters (of k t.cut)
      rw [hcut]
      exact (List.append_nil value).symm
  slashes := h.slashes

end Passes

/-- Cutting the last slashes off keeps a trail sound. -/
theorem Sound.settle (h : Sound t) (template : Text) : Sound (t.settle template) := by
  let kept := (t.text.reverse.dropWhile (·.1 == '/')).reverse
  let last := (t.text.reverse.takeWhile (·.1 == '/')).reverse
  let slash := bare (if template.getLast? == some '/' then ['/'] else [])
  have htext : t.text = kept ++ last := by
    rw [← List.reverse_append, List.takeWhile_append_dropWhile, List.reverse_reverse]
  have hsettle : t.settle template = { t with text := kept ++ slash, cut := last ++ t.cut } := rfl
  rw [hsettle]
  refine ⟨fun k hk => ?_, fun {k v} hv => ?_, fun {k v} hv hcovered => ?_, fun g hg => ?_⟩
  · obtain ⟨hnone, hcovered, hcut⟩ := h.fresh k hk
    rw [htext, of_append, List.append_eq_nil_iff] at hnone
    exact ⟨by rw [of_append, hnone.1, of_bare, List.nil_append], hcovered,
      by rw [of_append, hcut, hnone.2, List.nil_append]⟩
  · have hbalanced := h.balanced hv
    rw [htext] at hbalanced
    simp only [of_append, List.length_append, slash, of_bare, List.length_nil] at hbalanced ⊢
    omega
  · obtain ⟨s, hholds, hs⟩ := h.whole hv hcovered
    -- all of the ink is in the piece, so what is cut off of it is the end of the piece
    have hall : (of k (kept ++ last)).length = s.length := by
      have hbalanced := h.balanced hv
      rw [hcovered, hs, List.length_append, List.length_nil, htext,
        show (letters (of k t.cut)).length = (of k t.cut).length from List.length_map _] at hbalanced
      omega
    rw [htext] at hholds
    obtain ⟨front, hfront, rfl⟩ := hholds.split hall
    refine ⟨front, by simpa using hfront.append [] slash, ?_⟩
    rw [hs, of_append, letters_append, List.append_assoc]
  · rcases List.mem_append.1 hg with hg | hg
    · simpa using List.all_eq_true.1 List.all_takeWhile g (List.mem_reverse.1 hg)
    · exact h.slashes g hg

/-- Putting a trail behind a site keeps it sound. -/
theorem Sound.behind (h : Sound t) (site : Text) : Sound (t.behind site) := by
  let slashes := t.text.takeWhile (·.1 == '/')
  let lead := bare (Text.trimEnd (· == '/') site ++ if slashes.isEmpty then ['/'] else [])
  let rest := slashes.getLast?.toList ++ t.text.dropWhile (·.1 == '/')
  have htext : t.text = slashes.dropLast ++ rest := by
    have hslashes : slashes.dropLast ++ slashes.getLast?.toList = slashes := by
      cases hlast : slashes.getLast? with
      | none => rw [List.getLast?_eq_none_iff.1 hlast]; rfl
      | some g =>
        obtain ⟨front, hfront⟩ := List.getLast?_eq_some_iff.1 hlast
        rw [hfront, List.dropLast_concat]
        rfl
    rw [← List.append_assoc, hslashes, List.takeWhile_append_dropWhile]
  have hbehind : t.behind site =
      { t with text := lead ++ rest, covered := t.covered ++ slashes.dropLast } := rfl
  rw [hbehind]
  refine ⟨fun k hk => ?_, fun {k v} hv => ?_, fun {k v} hv hcovered => ?_, h.slashes⟩
  · obtain ⟨hnone, hcovered, hcut⟩ := h.fresh k hk
    rw [htext, of_append, List.append_eq_nil_iff] at hnone
    exact ⟨by rw [of_append, of_bare, hnone.2, List.nil_append],
      by rw [of_append, hcovered, hnone.1, List.nil_append], hcut⟩
  · have hbalanced := h.balanced hv
    rw [htext] at hbalanced
    simp only [of_append, List.length_append, lead, of_bare, List.length_nil] at hbalanced ⊢
    omega
  · rw [of_append, List.append_eq_nil_iff] at hcovered
    obtain ⟨kept, hholds, hv⟩ := h.whole hv hcovered.1
    rw [htext] at hholds
    refine ⟨kept, ?_, hv⟩
    simpa using (hholds.of_append_left hcovered.2).append lead []

/-- Filling slots keeps a trail sound. -/
theorem Sound.fill (h : Sound t) (n : Nat) (values : List Text) : Sound (t.fill n values) := by
  induction values generalizing n t with
  | nil => exact h
  | cons value values ih => exact ih (h.pass _ _ _) (n + 1)

end Trail

/-! ### The trail of an expansion -/

namespace Expander

variable {x : Expander}

/-- What `{name}` receives is the captured value where that is left as it is. -/
theorem inject_of_leaves {w : Wildcard} (h : x.leaves w) (captured : Text) :
    x.inject w captured = captured := by
  rw [leaves, Bool.or_eq_true] at h
  rw [inject]
  rcases h with h | h
  · rw [if_pos h]
  · rw [Cleaner.apply, eq_of_beq h, ite_self]

/-- Following one captured value keeps a trail sound. -/
theorem sound_follow {t : Trail} (h : t.Sound) (w : Wildcard) (captured : Text) :
    (x.follow w captured t).Sound := by
  have hname : ∀ u : Trail, u.Sound → (x.followName w captured u).Sound := by
    intro u hu
    rw [followName]
    split
    · exact hu.inject _ captured
    · exact hu.pass _ _ 0
  have hmapping : ∀ u : Trail, u.Sound → (x.followMapping w captured u).Sound := by
    intro u hu
    have hpass := hu.pass (mappingForm w.name) (fun n _ => slot n) u.mapped.length
    exact ⟨hpass.fresh, hpass.balanced, hpass.whole, hpass.slashes⟩
  exact hmapping _ (hname _ (h.inject _ captured))

/-- Following all captured values keeps a trail sound. -/
theorem sound_followAll {t : Trail} (h : t.Sound) (captures : List (Wildcard × Text)) :
    (x.followAll captures t).Sound := by
  induction captures generalizing t with
  | nil => exact h
  | cons capture captures ih => exact ih (sound_follow h capture.1 capture.2)

/-- The trail of an expansion is sound. -/
theorem sound_trail (x : Expander) (template : Text) (wildcards : List Wildcard)
    (values : List Text) : (x.trail template wildcards values).Sound := by
  have hfollow : (x.followAll (wildcards.zip values) (.start (unbracket template))).Sound :=
    sound_followAll (Trail.sound_start _) _
  have hfinish := (hfollow.settle template).pass Collections.markerForm
    (fun _ (key, name) => x.collections.mapOrSelf name key) 0
  have hselect := (hfinish.fill 0 (x.followAll (wildcards.zip values)
    (.start (unbracket template))).mapped).pass selectorForm
      (fun _ s => (x.directory.selector s).getD []) 0
  rw [trail, followSite]
  split
  · exact hselect
  · exact hselect.behind x.site

/-- The draft that a trail has come to. -/
def draft (t : Trail) : Draft := ⟨letters t.text, t.mapped⟩

/-- A trail follows what is done to a draft. -/
theorem draft_follow (t : Trail) (w : Wildcard) (captured : Text) :
    draft (x.follow w captured t) = x.substitute w captured (draft t) := by
  have hname : ∀ u : Trail, draft (x.followName w captured u) =
      ⟨Text.replaceAll (['\x7b'] ++ w.name ++ ['\x7d']) (x.inject w captured) (letters u.text),
        u.mapped⟩ := by
    intro u
    rw [followName]
    split
    · rename_i hleaves
      rw [inject_of_leaves hleaves, ← Trail.letters_inject]
      rfl
    · rw [Text.replaceAll_eq_rewrite, ← Trail.letters_pass 0]
      rfl
  have hmapping : ∀ u : Trail, draft (x.followMapping w captured u) =
      ⟨writeSlots u.mapped.length (Text.pieces (mappingForm w.name) (letters u.text)),
        u.mapped ++ (Text.hits (Text.pieces (mappingForm w.name) (letters u.text))).map
          fun name => x.collections.mapOrSelf name captured⟩ := by
    intro u
    rw [← Trail.letters_pass_slots]
    rfl
  have hraw : letters (t.inject (['\x7b', '!'] ++ w.name ++ ['\x7d']) captured).text =
      Text.replaceAll (['\x7b', '!'] ++ w.name ++ ['\x7d']) captured (letters t.text) :=
    Trail.letters_inject _ _
  have hplaceholder := hname (t.inject (['\x7b', '!'] ++ w.name ++ ['\x7d']) captured)
  rw [hraw] at hplaceholder
  obtain ⟨htext, hmapped⟩ := Draft.mk.inj hplaceholder
  rw [follow, hmapping, htext, hmapped]
  rfl

/-- A trail follows what is done to a draft by all captured values. -/
theorem draft_followAll (t : Trail) (captures : List (Wildcard × Text)) :
    draft (x.followAll captures t) = x.substituteAll captures (draft t) := by
  induction captures generalizing t with
  | nil => rfl
  | cons capture captures ih =>
    change draft (x.followAll captures (x.follow capture.1 capture.2 t)) = _
    rw [ih, draft_follow]
    rfl

/-- The text of a trail behind a draft is the finished draft. -/
theorem letters_followFinish (template : Text) (t : Trail) :
    letters (x.followFinish template t).text = x.finish template (draft t) := by
  rw [followFinish, Trail.letters_fill, finish, Collections.apply, draft, ← Trail.letters_settle,
    ← Trail.letters_pass 0]
  rfl

/-- The text of a trail is put behind the site as the URL is. -/
theorem letters_followSite (t : Trail) :
    letters (x.followSite t).text = x.absolutize (letters t.text) := by
  rw [followSite, absolutize]
  split
  · rfl
  · exact Trail.letters_behind x.site

/-- The text of the trail of an expansion is its URL. -/
theorem letters_trail {destination : Text} {wildcards : List Wildcard} {values : List Text}
    {e : Expansion} (h : x.expand destination wildcards values = .ok e) :
    letters (x.trail e.template wildcards values).text = e.url := by
  rw [expand] at h
  split at h
  · exact absurd h (by simp)
  · rename_i template _
    have hdraft : draft (x.followAll (wildcards.zip values) (.start (unbracket template))) =
        x.substituteAll (wildcards.zip values) ⟨unbracket template, []⟩ := by
      rw [draft_followAll]
      simp only [draft, Trail.start, letters_bare]
    simp only at h
    split at h
    · exact absurd h (by simp)
    · rename_i url hselect
      obtain rfl := Except.ok.inj h
      have hurl : letters (x.followSelect (x.followFinish template
          (x.followAll (wildcards.zip values) (.start (unbracket template))))).text = url := by
        rw [followSelect, Trail.letters_pass 0, letters_followFinish, hdraft]
        rw [select_eq] at hselect
        split at hselect
        · exact absurd hselect (by simp)
        · exact Except.ok.inj hselect
      rw [trail, letters_followSite, hurl]

/-- An expander that cleans nothing and has nothing to look up. -/
def bareExpander : Expander := ⟨⟨.off, false⟩, [], .empty, []⟩

/-- A value that is put in uncleaned stands in the URL in one piece, but for slashes cut off at the
end, exactly if no construct that a later pass finds covers a character of it. -/
theorem keeps_iff_spares {destination : Text} {wildcards : List Wildcard} {values : List Text}
    {e : Expansion} (h : x.expand destination wildcards values = .ok e) :
    letters (x.trail e.template wildcards values).text = e.url ∧
      (∀ g ∈ (x.trail e.template wildcards values).cut, g.1 = '/') ∧
      ∀ k v, (x.trail e.template wildcards values).put[k]? = some v →
        ((x.trail e.template wildcards values).Keeps k v ↔
          (x.trail e.template wildcards values).Spares k) := by
  have hsound := sound_trail x e.template wildcards values
  exact ⟨letters_trail h, hsound.slashes, fun k v hv => hsound.keeps_iff hv⟩

/-- A value with a slash at its end keeps all but the slash that is cut off. -/
theorem keeps_iff_spares_cut_slash :
    ∃ e, bareExpander.expand "/x/\x7b!a\x7d".toList [⟨['a'], .all, false⟩] ["b c/".toList] = .ok e ∧
      e.url = "/x/b c".toList ∧
      (bareExpander.trail e.template [⟨['a'], .all, false⟩] ["b c/".toList]).Keeps 0
        "b c/".toList := by
  have h : bareExpander.expand "/x/\x7b!a\x7d".toList [⟨['a'], .all, false⟩] ["b c/".toList] =
      .ok ⟨"/x/\x7b!a\x7d".toList, "/x/b c".toList, [⟨['a'], "b c/".toList, "b c/".toList⟩]⟩ :=
    rfl
  refine ⟨_, h, rfl, ((keeps_iff_spares h).2.2 0 "b c/".toList (by decide +kernel)).2 ?_⟩
  rw [Trail.Spares]
  decide +kernel

/-- A captured `{b}` is read as a placeholder, so that it gives way to the value of another
wildcard. -/
theorem expand_placeholder_of_value :
    ∃ e, bareExpander.expand "/x/\x7b!a\x7d".toList [⟨['a'], .all, false⟩, ⟨['b'], .all, false⟩]
        ["\x7bb\x7d".toList, "secret".toList] = .ok e ∧
      e.url = "/x/secret".toList ∧ ¬ "\x7bb\x7d".toList <:+: e.url := by
  have h : bareExpander.expand "/x/\x7b!a\x7d".toList [⟨['a'], .all, false⟩, ⟨['b'], .all, false⟩]
      ["\x7bb\x7d".toList, "secret".toList] = .ok ⟨"/x/\x7b!a\x7d".toList, "/x/secret".toList,
        [⟨['a'], "\x7bb\x7d".toList, "\x7bb\x7d".toList⟩, ⟨['b'], "secret".toList, "secret".toList⟩]⟩ := rfl
  exact ⟨_, h, rfl, by decide +kernel⟩

end Expander

end Detour
