import Detour.Proofs.Slot
import Detour.Rewrite.Letters
import Detour.Url.Absolute

/-!
# Destinations with mapping references

A destination that is made of plain characters and mapping references stands for the text in which
every reference gives way to its mapped value, whatever the order and number of the references.

* `Referral` is such a destination.
* `Expander.expand_referral`: its expansion, where no slot is read across two others.
* `Expander.expand_misread`: a destination where one is.
-/

namespace Detour

open Template Wildcard

/-- A destination that is made of plain characters and mapping references, ends in a plain character
other than a slash, and names no page. -/
structure Referral where
  /-- the characters and references -/
  pieces : List (Piece Reference)
  /-- plain characters are no brackets and no control characters -/
  ordinary : ∀ c, .plain c ∈ pieces → isOrdinary c
  /-- references are written with words of small letters -/
  writable : ∀ r, .hit r ∈ pieces → r.IsWritable
  /-- the last character stands outside of references -/
  ended : ∃ last, pieces.getLast? = some (.plain last) ∧ last ≠ '/'
  /-- the destination is a template itself -/
  unpaged : ¬ pageWord <+: Text.render Reference.write pieces

/-- A value that is looked up is that of an entry of a collection. -/
theorem Collections.exists_entry_of_lookup {cs : Collections} {name key v : Text}
    (h : cs.lookup name key = some v) : ∃ c ∈ cs, (key, v) ∈ c.entries := by
  obtain ⟨values, hvalues, hv⟩ := Option.bind_eq_some_iff.1 h
  obtain ⟨c, hc, heq⟩ := List.mem_map.1 (Map.mem_of_get?_ofList hvalues)
  obtain ⟨-, rfl⟩ := Prod.mk.inj heq
  exact ⟨c, hc, Map.mem_of_get?_ofList hv⟩

namespace Referral

variable (s : Referral)

/-- The text of a destination. -/
def text : Text := Text.render Reference.write s.pieces

/-- The spots of a destination before anything is captured. -/
def spots : List (Piece Spot) :=
  s.pieces.map fun
    | .plain c => .plain c
    | .hit r => .hit (.waiting r)

/-- The spots are written as the references are. -/
theorem render_spots (write : Spot → Text) :
    Text.render write s.spots = Text.render (fun r => write (.waiting r)) s.pieces := by
  rw [spots]
  induction s.pieces with
  | nil => rfl
  | cons p ps ih =>
    cases p with
    | plain c => exact congrArg (c :: ·) ih
    | hit r => exact congrArg (write (.waiting r) ++ ·) ih

/-- A reference waits at a spot if it is one of the destination. -/
theorem waiting_mem_spots {r : Reference} : .hit (.waiting r) ∈ s.spots ↔ .hit r ∈ s.pieces := by
  rw [spots, List.mem_map]
  refine ⟨?_, fun h => ⟨_, h, rfl⟩⟩
  rintro ⟨p, hp, h⟩
  cases p with
  | plain c => exact absurd h (by simp)
  | hit r' =>
    obtain rfl : r' = r := by simpa using h
    exact hp

/-- The spots are in form. -/
theorem fits_spots : ∀ p ∈ s.spots, Spot.Fits p := by
  intro p hp
  obtain ⟨q, hq, rfl⟩ := List.mem_map.1 hp
  cases q with
  | plain c => exact s.ordinary c hq
  | hit r => exact s.writable r hq

/-- In one form the references are written as the spots are. -/
theorem unbracket_text : unbracket s.text = Text.render (Spot.shown 0) s.spots := by
  rw [render_spots, text]
  refine Text.render_of_render rfl (fun c hc rest => ?_) fun r hr rest => ?_
  · exact Text.rewrite_cons id
      (bracketedForm_cons (ne_of_isOrdinary (by decide) (s.ordinary c hc)) rest)
  · exact Reference.unbracket_write (s.writable r hr) rest

/-- Before anything is captured a draft shows all references waiting. -/
theorem shows_spots : Draft.Shows ⟨unbracket s.text, []⟩ s.spots where
  text := s.unbracket_text
  length := by
    rw [Spot.count, spots]
    induction s.pieces with
    | nil => rfl
    | cons p ps ih => cases p <;> exact ih
  mapped n value h := by
    obtain ⟨p, _, h⟩ := List.mem_map.1 h
    cases p <;> exact absurd h (by simp)

end Referral

namespace Spot

variable {ps : List (Piece Spot)}

/-- Filled spots have no characters but ordinary ones and the signs of references. -/
theorem mem_render_value (hfits : ∀ p ∈ ps, Fits p) {c : Char} (h : c ∈ Text.render value ps) :
    isOrdinary c ∨ c ∈ ['\x7b', '|', '\x7d'] := by
  obtain ⟨p, hp, hc⟩ := List.mem_flatMap.1 h
  cases p with
  | plain d =>
    obtain rfl : c = d := List.mem_singleton.1 hc
    exact .inl (hfits _ hp)
  | hit spot =>
    cases spot with
    | waiting r =>
      have hr : r.IsWritable := hfits _ hp
      by_cases hsigns : c ∈ ['\x7b', '|', '\x7d']
      · exact .inr hsigns
      · cases hsmall : isSmall c with
        | true => exact .inl (isOrdinary_of_isSmall hsmall)
        | false => exact absurd hc (Reference.notMem_braced hr hsmall hsigns)
    | held n v =>
      have hv : Ordinary v := hfits _ hp
      exact .inl (hv c hc)

/-- No marker begins in what is written for spots. -/
theorem open_notMem_render_shown (hfits : ∀ p ∈ ps, Fits p) (k : Nat) :
    '(' ∉ Text.render (shown k) ps := by
  intro h
  obtain ⟨p, hp, hc⟩ := List.mem_flatMap.1 h
  cases p with
  | plain d =>
    obtain rfl := List.mem_singleton.1 hc
    have hopen : isOrdinary '(' := hfits _ hp
    exact absurd hopen (by decide)
  | hit spot =>
    cases spot with
    | waiting r =>
      have hr : r.IsWritable := hfits _ hp
      exact Reference.notMem_braced hr (by decide) (by decide) hc
    | held n v =>
      have hv : Ordinary v := hfits _ hp
      by_cases hn : n < k
      · simp only [shown, if_pos hn] at hc
        exact absurd (hv _ hc) (by decide)
      · simp only [shown, if_neg hn] at hc
        exact notMem_slot (by decide) (by decide) hc

end Spot

namespace Expander

open Spot

variable {x : Expander}

/-- A URL without markers is kept when fixed keys are looked up. -/
theorem apply_of_notMem {cs : Collections} {s : Text} (h : '(' ∉ s) : cs.apply s = s := by
  refine Text.rewrite_eq_self _ fun c hc rest => markerForm_cons ?_ rest
  rintro rfl
  exact h hc

/-- A URL without selectors is kept when they are looked up. -/
theorem select_of_notMem {url : Text} (h : '[' ∉ url) : x.select url = .ok url := by
  have hplain : ∀ c ∈ url, ∀ rest, selectorForm (c :: rest) = none := by
    intro c hc rest
    refine selectorForm_cons ?_ rest
    rintro rfl
    exact h hc
  have hpieces : Text.pieces selectorForm url = url.map .plain := by
    have := Text.pieces_plain [] hplain
    rwa [List.append_nil, show Text.pieces selectorForm [] = [] from rfl, List.append_nil] at this
  have hhits : Text.hits (url.map Piece.plain : List (Piece Text)) = [] := by
    simp [Text.hits]
  rw [select_eq, hpieces]
  simp only [hhits, List.find?_nil, Text.render_plain]

/-- A URL and a template that end in the same character other than a slash settle as they are. -/
theorem settleSlash_append {last : Char} (h : last ≠ '/') (t u : Text) :
    settleSlash (t ++ [last]) (u ++ [last]) = u ++ [last] := by
  have hlast : (last == '/') = false := by rw [beq_eq_false_iff_ne]; exact h
  rw [settleSlash, Text.trimEnd, List.reverse_append, List.reverse_singleton, List.singleton_append,
    List.dropWhile_cons_of_neg (by simp [hlast])]
  simp [h]

/-- A destination that names no page is its own template. -/
theorem template_of_unpaged {destination : Text} (h : ¬ pageWord <+: destination) :
    x.template destination = .ok destination := by
  have hafter : Text.after? pageWord destination = none := by
    rw [Option.eq_none_iff_forall_ne_some]
    intro rest hrest
    exact h ⟨rest, (Text.after?_eq_some_iff.1 hrest).symm⟩
  rw [template, hafter]

/-- The finished draft of a destination with references: all of them replaced by what they stand for. -/
theorem finish_referral {s : Referral} {captures : List (Wildcard × Text)} {d : Draft}
    (hshows : d.Shows (x.slotted captures s.spots))
    (hfits : ∀ p ∈ x.slotted captures s.spots, Fits p)
    (hparted : Parted (x.slotted captures s.spots)) :
    x.finish s.text d = Text.render Spot.value (x.slotted captures s.spots) := by
  have hsettle : settleSlash s.text d.text = d.text := by
    obtain ⟨last, hpieces, hlast⟩ := s.ended
    obtain ⟨front, hpieces⟩ := List.getLast?_eq_some_iff.1 hpieces
    have htext : s.text = Text.render Reference.write front ++ [last] := by
      rw [Referral.text, hpieces, Text.render_append]
      rfl
    obtain ⟨front', hfront⟩ : ∃ ps, s.spots = ps ++ [.plain last] := by
      rw [Referral.spots, hpieces, List.map_append]
      exact ⟨_, rfl⟩
    have hdraft : d.text = Text.render (shown 0) (x.slotted captures front') ++ [last] := by
      rw [hshows.text, hfront, slotted_append_plain, Text.render_append]
      rfl
    rw [htext, hdraft, settleSlash_append hlast]
  rw [finish, hsettle, hshows.text, apply_of_notMem (open_notMem_render_shown hfits 0)]
  exact fillSlots_shown hfits hparted fun n v hn _ => hshows.mapped n v hn

/-- **Mapping references.** Every reference of a destination gives way to the mapped value of the
first capture of its name, and every other character stays, unless the end of one slot and the start
of another are read as a slot. -/
theorem expand_referral (x : Expander) (s : Referral) {wildcards : List Wildcard}
    {values : List Text} (htells : ∀ w ∈ wildcards, ∀ r, .hit r ∈ s.pieces → r.Tells w)
    (hvalues : ∀ v ∈ values, Ordinary v)
    (hcollections : ∀ name key v, x.collections.lookup name key = some v → Ordinary v)
    (hsite : (Text.trim x.site).isEmpty)
    (hparted : Parted (x.slotted (wildcards.zip values) s.spots)) :
    ∃ e, x.expand s.text wildcards values = .ok e ∧
      e.url = Text.render (x.mapped (wildcards.zip values)) s.pieces ∧
      ∀ c ∈ e.url, isControl c = false := by
  have htold : ∀ c ∈ wildcards.zip values, ∀ r, .hit (waiting r) ∈ s.spots → r.Tells c.1 :=
    fun c hc r hr => htells c.1 (List.of_mem_zip hc).1 r (s.waiting_mem_spots.1 hr)
  have hcaptured : ∀ c ∈ wildcards.zip values, Ordinary c.2 :=
    fun c hc => hvalues c.2 (List.of_mem_zip hc).2
  obtain ⟨hshows, hfits⟩ : (x.substituteAll (wildcards.zip values) ⟨unbracket s.text, []⟩).Shows
      (x.slotted (wildcards.zip values) s.spots) ∧
        ∀ p ∈ x.slotted (wildcards.zip values) s.spots, Fits p :=
    shows_substituteAll s.shows_spots s.fits_spots htold hcaptured hcollections
  have hchars := fun c => mem_render_value hfits (c := c)
  have hurl : Text.render value (x.slotted (wildcards.zip values) s.spots) =
      Text.render (x.mapped (wildcards.zip values)) s.pieces := by
    rw [render_value_slotted, Referral.render_spots]
    rfl
  rw [hurl] at hchars
  have hselect : '[' ∉ Text.render (x.mapped (wildcards.zip values)) s.pieces := by
    intro h
    rcases hchars _ h with h | h <;> exact absurd h (by decide)
  have htemplate : x.template s.text = .ok s.text := template_of_unpaged s.unpaged
  have hexpand : x.expand s.text wildcards values =
      .ok ⟨s.text, Text.render (x.mapped (wildcards.zip values)) s.pieces,
        (wildcards.zip values).map fun c => ⟨c.1.name, c.2, x.inject c.1 c.2⟩⟩ := by
    rw [expand, htemplate]
    simp only [finish_referral hshows hfits hparted, hurl, select_of_notMem hselect, absolutize,
      hsite, Bool.true_or, if_true]
  refine ⟨_, hexpand, rfl, fun c hc => ?_⟩
  rcases hchars c hc with h | h
  · rw [isOrdinary, Bool.and_eq_true, Bool.not_eq_true', Bool.not_eq_true'] at h
    exact h.2
  · simp only [List.mem_cons, List.not_mem_nil, or_false] at h
    rcases h with rfl | rfl | rfl <;> decide

/-- Two references, to the second wildcard and in round brackets to the first. -/
def crossed : Referral where
  pieces := [.plain '/', .hit ⟨['b'], ['c'], false⟩, .plain '-', .hit ⟨['a'], ['c'], true⟩, .plain 'x']
  ordinary := by simp; decide
  writable := by
    simp only [List.mem_cons, List.not_mem_nil, or_false, reduceCtorEq, false_or, Piece.hit.injEq]
    rintro r (rfl | rfl) <;>
      exact ⟨⟨by simp, List.all_eq_true.1 (by decide)⟩, ⟨by simp, List.all_eq_true.1 (by decide)⟩⟩
  ended := ⟨'x', rfl, by decide⟩
  unpaged := by decide

/-- An expander with one collection that maps two keys. -/
def mapper : Expander := ⟨⟨.fullClean, false⟩, [⟨['c'], "p=P\nq=Q".toList⟩], .empty, []⟩

/-- The mapped values are ordinary. -/
theorem ordinary_lookup_mapper (name key v : Text)
    (h : mapper.collections.lookup name key = some v) : Ordinary v := by
  obtain ⟨c, hc, hentry⟩ := Collections.exists_entry_of_lookup h
  have hall : mapper.collections.all (fun c => c.entries.all fun e => e.2.all isOrdinary) := by
    decide
  exact List.all_eq_true.1 (List.all_eq_true.1 (List.all_eq_true.1 hall c hc) _ hentry)

/-- Two captures that are referred to in the other order give their mapped values. -/
theorem expand_referral_crossed :
    ∃ e, mapper.expand crossed.text [⟨['a'], .all, false⟩, ⟨['b'], .all, false⟩]
        ["p".toList, "q".toList] = .ok e ∧
      e.url = "/Q-Px".toList ∧ ∀ c ∈ e.url, isControl c = false := by
  have htells : ∀ w ∈ [(⟨['a'], .all, false⟩ : Wildcard), ⟨['b'], .all, false⟩],
      ∀ r, .hit r ∈ crossed.pieces → r.Tells w := by
    intro w hw r hr
    have hcompiled : w ∈ (Pattern.compile "\x7ba:all\x7d/\x7bb:all\x7d".toList).wildcards := hw
    exact Reference.tells_of_mem_wildcards (crossed.writable r hr) hcompiled
  have hparted : Parted (mapper.slotted ([(⟨['a'], .all, false⟩ : Wildcard),
      ⟨['b'], .all, false⟩].zip ["p".toList, "q".toList]) crossed.spots) :=
    parted_of_isDigitless (by decide +kernel)
  exact expand_referral mapper crossed htells (by decide) ordinary_lookup_mapper rfl hparted

/-- Two references with a zero between them, of which the first gets the later slot. -/
def misread : Referral where
  pieces := [.plain '/', .hit ⟨['b'], ['c'], false⟩, .plain '0', .hit ⟨['a'], ['c'], false⟩, .plain 'x']
  ordinary := by simp; decide
  writable := by
    simp only [List.mem_cons, List.not_mem_nil, or_false, reduceCtorEq, false_or, Piece.hit.injEq]
    rintro r (rfl | rfl) <;>
      exact ⟨⟨by simp, List.all_eq_true.1 (by decide)⟩, ⟨by simp, List.all_eq_true.1 (by decide)⟩⟩
  ended := ⟨'x', rfl, by decide⟩
  unpaged := by decide

/-- The zero between the slots 1 and 0 is read as slot 0 with the signs next to it, so that neither
reference gives its mapped value and the other signs stay in the URL. -/
theorem expand_misread :
    misread.text = "/\x7bb|c\x7d0\x7ba|c\x7dx".toList ∧
      Text.render (mapper.mapped ([⟨['a'], .all, false⟩, ⟨['b'], .all, false⟩].zip
        ["p".toList, "q".toList])) misread.pieces = "/Q0Px".toList ∧
      ∃ e, mapper.expand misread.text [⟨['a'], .all, false⟩, ⟨['b'], .all, false⟩]
          ["p".toList, "q".toList] = .ok e ∧
        e.url = "/\x011P0\x01x".toList ∧ e.url ≠ "/Q0Px".toList ∧
        ¬ ∀ c ∈ e.url, isControl c = false := by
  have hexpand : mapper.expand misread.text [⟨['a'], .all, false⟩, ⟨['b'], .all, false⟩]
      ["p".toList, "q".toList] = .ok ⟨misread.text, "/\x011P0\x01x".toList,
        [⟨['a'], "p".toList, "p".toList⟩, ⟨['b'], "q".toList, "q".toList⟩]⟩ := rfl
  exact ⟨rfl, rfl, _, hexpand, rfl, by decide, fun h => absurd (h '\x01' (by decide)) (by decide)⟩

end Expander

end Detour
