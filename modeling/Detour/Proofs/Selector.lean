import Detour.Proofs.Finding
import Detour.Proofs.Mark
import Detour.Proofs.Marker
import Detour.Proofs.Placeholder

/-!
# Selectors in a destination

A destination may hold selectors `[[selector]]`. They are looked up in one pass from left to right: either
all of them find a page, and each gives way to its path, or the first one that does not is what is
reported.

* `Template.IsSelector` and `Template.HoldsSelector`: what a selector is, and the texts that hold one.
* `Selection` is a text cut at its selectors; `Selection.exists_of` and `Selection.Of.unique` say that
  every text is cut in one way.
* `Expander.select_of` and `Expander.select_of_missing`: what becomes of a text that is cut so.
* `Template.Bare` is a destination in which nothing but selectors is looked up, and `Bare.finish_eq` says
  that it stays as it is but for the slashes at its end.
* `Expander.expand_selectors` puts it together.
-/

namespace Detour

open Wildcard

namespace Template

/-! ### What a selector is -/

/-- A selector as it is written. -/
def selector (s : Text) : Text := '[' :: '[' :: (s ++ [']', ']'])

/-- What may stand between the brackets of a selector. -/
structure IsSelector (s : Text) : Prop where
  /-- something does -/
  ne_nil : s ≠ []
  /-- word characters, white space and some signs -/
  chars : ∀ c ∈ s, isWord c ∨ isBlank c ∨ c ∈ "-/=\",.'".toList

/-- Whether a text holds a selector. -/
def HoldsSelector (s : Text) : Prop := ∃ t, IsSelector t ∧ selector t <:+: s

/-- Brackets do not stand in a selector. -/
theorem IsSelector.notMem {s : Text} (h : IsSelector s) {c : Char} (hc : isSelectorChar c = false) :
    c ∉ s := by
  intro hmem
  have hchar := h.chars c hmem
  simp only [isSelectorChar, Bool.or_eq_false_iff, List.contains_eq_mem, decide_eq_false_iff_not] at hc
  rcases hchar with hword | hblank | hsign
  · exact absurd hword (by simp [hc.1.1])
  · exact absurd hblank (by simp [hc.1.2])
  · exact hc.2 hsign

/-- A selector is found where it stands, and nothing else is. -/
theorem selectorForm_eq_some {s m : Text} {size : Nat} :
    selectorForm s = some (m, size) ↔ IsSelector m ∧ size = (selector m).length ∧ selector m <+: s := by
  have hchars : (∀ c ∈ m, isSelectorChar c) ↔
      ∀ c ∈ m, isWord c ∨ isBlank c ∨ c ∈ "-/=\",.'".toList := by
    simp [isSelectorChar, or_assoc]
  constructor
  · intro h
    unfold selectorForm at h
    split at h
    · rename_i s
      simp only at h
      split at h
      · rename_i rest hbehind
        obtain ⟨hne, h⟩ := Option.ite_none_left_eq_some.1 h
        obtain ⟨rfl, rfl⟩ := Prod.mk.inj (Option.some.inj h)
        have hall : ∀ c ∈ s.takeWhile isSelectorChar, isSelectorChar c :=
          List.all_eq_true.1 List.all_takeWhile
        refine ⟨⟨by simpa using hne, ?_⟩, by simp [selector], rest, ?_⟩
        · simpa [isSelectorChar, or_assoc] using hall
        · nth_rewrite 2 [eq_takeWhile_append hbehind]
          simp [selector]
      · exact absurd h (by simp)
    · exact absurd h (by simp)
  · rintro ⟨hm, rfl, rest, rfl⟩
    have htake : (m ++ ']' :: ']' :: rest).takeWhile isSelectorChar = m := by
      refine takeWhile_append_of_head (hchars.2 hm.chars) fun c hc => ?_
      obtain rfl := Option.some.inj hc
      decide +kernel
    simp [selector, selectorForm, htake, hm.ne_nil]

/-- Where no selector begins nothing is found. -/
theorem selectorForm_eq_none {s : Text} (h : ∀ t, IsSelector t → ¬ selector t <+: s) :
    selectorForm s = none := by
  rw [Option.eq_none_iff_forall_ne_some]
  rintro ⟨t, size⟩ hform
  obtain ⟨ht, -, hlead⟩ := selectorForm_eq_some.1 hform
  exact h t ht hlead

/-- A selector begins a text or is held by what is behind the first character. -/
theorem holdsSelector_cons {c : Char} {s : Text} :
    HoldsSelector (c :: s) ↔ (∃ t, IsSelector t ∧ selector t <+: c :: s) ∨ HoldsSelector s := by
  simp only [HoldsSelector, List.infix_cons_iff, and_or_left, exists_or]

/-- The empty text holds no selector. -/
theorem not_holdsSelector_nil : ¬ HoldsSelector [] := by
  rintro ⟨t, -, hpart⟩
  exact absurd (List.infix_nil.1 hpart) (List.cons_ne_nil _ _)

/-- A selector that begins in front of another one ends in front of it: behind its two opening brackets no
third one stands. -/
theorem prefix_of_prefix_selector {t lead s post : Text} (ht : IsSelector t) (hlead : lead ≠ [])
    (hfront : selector t <+: lead ++ (selector s ++ post)) : selector t <+: lead := by
  obtain ⟨rest, hrest⟩ := hfront
  rcases List.append_eq_append_iff.1 hrest with ⟨behind, rfl, -⟩ | ⟨behind, hsplit, hbehind⟩
  · exact List.prefix_append _ behind
  · rcases behind with _ | ⟨c, behind⟩
    · exact ⟨[], hsplit ▸ by simp⟩
    obtain ⟨hc, hbehind⟩ := List.cons.inj hbehind
    obtain ⟨a, lead, rfl⟩ := List.exists_cons_of_ne_nil hlead
    have hopen : '[' ∉ t ++ [']', ']'] := by simp [ht.notMem (by decide : isSelectorChar '[' = false)]
    have htail : '[' :: (t ++ [']', ']']) = lead ++ c :: behind := (List.cons.inj hsplit).2
    rcases lead with _ | ⟨b, lead⟩
    · -- the other one begins with the second bracket of the first
      obtain ⟨-, hinside⟩ := List.cons.inj htail
      rcases behind with _ | ⟨d, behind⟩
      · exact absurd hinside (by simp)
      · obtain ⟨hd, -⟩ := List.cons.inj hbehind
        exact absurd (by simp [hinside, ← hd]) hopen
    · -- or within the first
      obtain ⟨-, hinside⟩ := List.cons.inj htail
      exact absurd (by simp [hinside, ← hc]) hopen

end Template

/-! ### Texts cut at their selectors -/

/-- A text cut at selectors. -/
structure Selection where
  /-- the selectors, each with the text in front of it -/
  parts : List (Text × Text)
  /-- the text behind the last one -/
  rest : Text

namespace Selection

open Template

/-- The selectors, in order. -/
def selectors (c : Selection) : List Text := c.parts.map Prod.snd

/-- The text with something written for every selector. -/
def fill (c : Selection) (write : Text → Text) : Text :=
  c.parts.foldr (fun p behind => p.1 ++ (write p.2 ++ behind)) c.rest

/-- Whether a text is cut at all its selectors: what is in front of a selector and behind the last one holds
none. -/
structure Of (c : Selection) (s : Text) : Prop where
  /-- the parts make up the text -/
  text : c.fill selector = s
  /-- it is cut at selectors -/
  isSelector : ∀ p ∈ c.parts, IsSelector p.2
  /-- none is in front of them -/
  leads : ∀ p ∈ c.parts, ¬ HoldsSelector p.1
  /-- and none behind -/
  rest : ¬ HoldsSelector c.rest

/-- The pieces that a scan for selectors is to find. -/
def pieces (c : Selection) : List (Piece Text) :=
  c.parts.foldr (fun p behind => p.1.map .plain ++ .hit p.2 :: behind) (c.rest.map .plain)

variable {c d : Selection} {s : Text}

/-- In a text that holds no selector none is found. -/
theorem pieces_of_not_holds (h : ¬ HoldsSelector s) : Text.pieces selectorForm s = s.map .plain :=
  Text.pieces_eq_map_plain fun _ ht => selectorForm_eq_none fun t hselector hlead =>
    h ⟨t, hselector, hlead.isInfix.trans ht.isInfix⟩

/-- The first selector of a text is found, and the scan goes on behind it. -/
theorem pieces_behind {lead t : Text} (hlead : ¬ HoldsSelector lead) (ht : IsSelector t) (post : Text) :
    Text.pieces selectorForm (lead ++ (selector t ++ post)) =
      lead.map .plain ++ .hit t :: Text.pieces selectorForm post := by
  induction lead with
  | nil =>
    exact Text.pieces_append (List.cons_ne_nil _ _)
      (selectorForm_eq_some.2 ⟨ht, rfl, List.prefix_append _ post⟩)
  | cons a lead ih =>
    have hnone : selectorForm (a :: (lead ++ (selector t ++ post))) = none :=
      selectorForm_eq_none fun u hu hfront =>
        hlead ⟨u, hu, (prefix_of_prefix_selector hu (List.cons_ne_nil a lead) hfront).isInfix⟩
    rw [holdsSelector_cons, not_or] at hlead
    rw [List.cons_append, Text.pieces_cons hnone, ih hlead.2]
    rfl

/-- **A scan finds the selectors that a text is cut at**, and no others. -/
theorem Of.pieces_eq (h : c.Of s) : Text.pieces selectorForm s = c.pieces := by
  obtain ⟨parts, rest⟩ := c
  obtain ⟨rfl, hselector, hleads, hrest⟩ := h
  induction parts with
  | nil => exact pieces_of_not_holds hrest
  | cons p parts ih =>
    have hmore := ih (fun q hq => hselector q (List.mem_cons_of_mem p hq))
      (fun q hq => hleads q (List.mem_cons_of_mem p hq)) hrest
    have hfirst := pieces_behind (hleads p List.mem_cons_self) (hselector p List.mem_cons_self)
      (fill ⟨parts, rest⟩ selector)
    rw [hmore] at hfirst
    exact hfirst

/-- The texts in front of two selectors, or of none, can be told from the pieces. -/
theorem map_plain_append_inj {lead lead' : Text} {ps ps' : List (Piece Text)}
    (hps : ∀ a, ps.head? ≠ some (.plain a)) (hps' : ∀ a, ps'.head? ≠ some (.plain a))
    (h : lead.map .plain ++ ps = lead'.map .plain ++ ps') : lead = lead' ∧ ps = ps' := by
  induction lead generalizing lead' with
  | nil =>
    rcases lead' with _ | ⟨a, lead'⟩
    · exact ⟨rfl, h⟩
    · exact absurd (congrArg List.head? h) (hps a)
  | cons a lead ih =>
    rcases lead' with _ | ⟨b, lead'⟩
    · exact absurd (congrArg List.head? h).symm (hps' a)
    · obtain ⟨hhead, htail⟩ := List.cons.inj h
      obtain ⟨rfl, rfl⟩ := ih htail
      exact ⟨by rw [Piece.plain.inj hhead], rfl⟩

/-- Selections with the same pieces are the same. -/
theorem pieces_injective (h : c.pieces = d.pieces) : c = d := by
  have hrest (s : Text) (ps : List (Piece Text)) (t m : Text)
      (heq : s.map .plain = t.map .plain ++ .hit m :: ps) : False := by
    have hmem : Piece.hit m ∈ s.map .plain := by simp [heq]
    simp at hmem
  obtain ⟨parts, rest⟩ := c
  obtain ⟨parts', rest'⟩ := d
  induction parts generalizing parts' with
  | nil =>
    cases parts' with
    | nil =>
      obtain rfl : rest = rest' := List.map_injective_iff.2 (fun _ _ => Piece.plain.inj) h
      rfl
    | cons q parts' => exact (hrest _ _ _ _ h).elim
  | cons p parts ih =>
    cases parts' with
    | nil => exact (hrest _ _ _ _ h.symm).elim
    | cons q parts' =>
      obtain ⟨hlead, hmore⟩ := map_plain_append_inj (by simp) (by simp) h
      obtain ⟨hselector, hmore⟩ := List.cons.inj hmore
      have hsame := ih parts' hmore
      obtain ⟨rfl, rfl⟩ := Selection.mk.inj hsame
      have hp : p = q := Prod.ext hlead (Piece.hit.inj hselector)
      rw [hp]

/-- A text is cut at its selectors in one way only. -/
theorem Of.unique (hc : c.Of s) (hd : d.Of s) : c = d :=
  pieces_injective (hc.pieces_eq.symm.trans hd.pieces_eq)

/-- **Every text can be cut at its selectors.** -/
theorem exists_of (s : Text) : ∃ c : Selection, c.Of s := by
  induction s using Text.walk_induction selectorForm with
  | nil => exact ⟨⟨[], []⟩, rfl, by simp, by simp, not_holdsSelector_nil⟩
  | plain a s hnone ih =>
    obtain ⟨⟨parts, rest⟩, htext, hselector, hleads, hrest⟩ := ih
    -- no selector begins at the character, hence none in a part of the text that begins with it
    have hfirst {lead : Text} (hlead : lead <+: s) (h : ¬ HoldsSelector lead) :
        ¬ HoldsSelector (a :: lead) := by
      rw [holdsSelector_cons, not_or]
      refine ⟨?_, h⟩
      rintro ⟨t, ht, hfront⟩
      have hform := selectorForm_eq_some.2
        ⟨ht, rfl, hfront.trans (List.cons_prefix_cons.2 ⟨rfl, hlead⟩)⟩
      rw [hnone] at hform
      cases hform
    cases parts with
    | nil =>
      refine ⟨⟨[], a :: rest⟩, congrArg (a :: ·) htext, by simp, by simp, hfirst ?_ hrest⟩
      exact htext ▸ List.prefix_rfl
    | cons p parts =>
      refine ⟨⟨(a :: p.1, p.2) :: parts, rest⟩, congrArg (a :: ·) htext, ?_, ?_, hrest⟩
      · simpa using hselector
      · intro q hq
        rcases List.mem_cons.1 hq with rfl | hq
        · exact hfirst (htext ▸ List.prefix_append _ _) (hleads p List.mem_cons_self)
        · exact hleads q (List.mem_cons_of_mem p hq)
  | hit a s m size hform ih =>
    obtain ⟨⟨parts, rest⟩, htext, hselector, hleads, hrest⟩ := ih
    obtain ⟨hm, rfl, post, hpost⟩ := selectorForm_eq_some.1 hform
    have hbehind : s.drop ((selector m).length - 1) = post := by
      have hs : s = '[' :: (m ++ [']', ']']) ++ post := (List.cons.inj hpost).2.symm
      rw [hs]
      exact List.drop_left
    refine ⟨⟨([], m) :: parts, rest⟩, ?_, ?_, ?_, hrest⟩
    · change selector m ++ fill ⟨parts, rest⟩ selector = _
      rw [htext, hbehind, hpost]
    · intro q hq
      rcases List.mem_cons.1 hq with rfl | hq
      · exact hm
      · exact hselector q hq
    · intro q hq
      rcases List.mem_cons.1 hq with rfl | hq
      · exact not_holdsSelector_nil
      · exact hleads q hq

/-- The selectors are the constructs among the pieces. -/
theorem hits_pieces (c : Selection) : Text.hits c.pieces = c.selectors := by
  obtain ⟨parts, rest⟩ := c
  induction parts with
  | nil =>
    have hnone := Text.hits_plain_append rest ([] : List (Piece Text))
    rwa [List.append_nil] at hnone
  | cons p parts ih => exact (Text.hits_plain_append p.1 _).trans (congrArg (p.2 :: ·) ih)

/-- Writing the pieces is filling in the selectors. -/
theorem render_pieces (c : Selection) (write : Text → Text) : Text.render write c.pieces = c.fill write := by
  obtain ⟨parts, rest⟩ := c
  induction parts with
  | nil => exact Text.render_plain write rest
  | cons p parts ih =>
    change Text.render write (p.1.map .plain ++ .hit p.2 :: pieces ⟨parts, rest⟩) = _
    rw [Text.render_append, Text.render_plain, Text.render_cons_hit, ih]
    rfl

end Selection

namespace Expander

open Template

variable {x : Expander} {c : Selection} {s : Text}

/-- If all selectors of a text find a page, each gives way to its path. -/
theorem select_of (hc : c.Of s) (h : ∀ t ∈ c.selectors, (x.directory.selector t).isSome) :
    x.select s = .ok (c.fill fun t => (x.directory.selector t).getD []) := by
  have hfind : (c.selectors.find? fun t => (x.directory.selector t).isNone) = none := by
    rw [List.find?_eq_none]
    intro t ht hnone
    exact absurd (h t ht) (by simp [Option.isNone_iff_eq_none.1 hnone])
  simp only [select_eq, hc.pieces_eq, c.hits_pieces, hfind, c.render_pieces]

/-- Otherwise the first selector that finds no page is reported. -/
theorem select_of_missing (hc : c.Of s) {before after : List Text} {t : Text}
    (hsplit : c.selectors = before ++ t :: after)
    (hbefore : ∀ u ∈ before, (x.directory.selector u).isSome) (ht : x.directory.selector t = none) :
    x.select s = .error (.missingSelector t) := by
  have hfind : (c.selectors.find? fun t => (x.directory.selector t).isNone) = some t := by
    rw [hsplit, List.find?_append, List.find?_eq_none.2, Option.none_or]
    · exact List.find?_cons_of_pos (by simp [ht])
    · intro u hu hnone
      exact absurd (hbefore u hu) (by simp [Option.isNone_iff_eq_none.1 hnone])
  simp only [select_eq, hc.pieces_eq, c.hits_pieces, hfind]

end Expander

/-! ### Destinations with selectors only -/

namespace Template

/-- A destination without placeholders of some wildcards, without mapping references to them in braces or in
round brackets, and without markers. -/
structure Bare (wildcards : List Wildcard) (s : Text) : Prop where
  /-- no wildcard is referred to as it is cleaned -/
  cleaned : ∀ w ∈ wildcards, ¬ braced w.name <:+: s
  /-- or as it is -/
  raw : ∀ w ∈ wildcards, ¬ braced ('!' :: w.name) <:+: s
  /-- or for a value of a collection -/
  mapped : ∀ w ∈ wildcards, ∀ name collection, Alike w.name name → Filled isBasicLetter collection →
    ¬ braced (name ++ '|' :: collection) <:+: s
  /-- in round brackets nothing is referred to -/
  bracketed : ∀ mark name collection, mark = [] ∨ mark = ['!'] → Filled isBasicLetter name →
    Filled isBasicLetter collection → ¬ '(' :: (braced (mark ++ name) ++ '|' :: (collection ++ [')'])) <:+: s
  /-- nor is a fixed key -/
  marker : ¬ Collections.HoldsMarker s

namespace Bare

variable {wildcards : List Wildcard} {s t : Text}

/-- A part of such a destination is one. -/
theorem of_infix (h : Bare wildcards s) (ht : t <:+: s) : Bare wildcards t where
  cleaned w hw hpart := h.cleaned w hw (hpart.trans ht)
  raw w hw hpart := h.raw w hw (hpart.trans ht)
  mapped w hw name collection hname hcollection hpart :=
    h.mapped w hw name collection hname hcollection (hpart.trans ht)
  bracketed mark name collection hmark hname hcollection hpart :=
    h.bracketed mark name collection hmark hname hcollection (hpart.trans ht)
  marker := fun ⟨key, name, hmarker, hpart⟩ => h.marker ⟨key, name, hmarker, hpart.trans ht⟩

/-- No mapping reference is written anew. -/
theorem unbracket_eq (h : Bare wildcards s) : unbracket s = s := by
  have hnone : ∀ t, t <:+ s → bracketedForm t = none := by
    intro t ht
    rw [Option.eq_none_iff_forall_ne_some]
    rintro ⟨m, size⟩ hform
    obtain ⟨mark, name, collection, rest, rfl, -, -, hname, hcollection, hmark⟩ :=
      bracketedForm_eq_some hform
    refine h.bracketed mark name collection hmark hname hcollection (.trans ?_ ht.isInfix)
    exact ⟨[], rest, by simp [braced]⟩
  rw [unbracket, Text.rewrite, Text.pieces_eq_map_plain hnone, Text.render_plain]

/-- No mapping reference is found. -/
theorem mappingForm_eq_none (h : Bare wildcards s) {w : Wildcard} (hw : w ∈ wildcards) (ht : t <:+ s) :
    mappingForm w.name t = none := by
  rw [Option.eq_none_iff_forall_ne_some]
  rintro ⟨m, size⟩ hform
  obtain ⟨lead, rest, rfl, -, halike, hm⟩ := mappingForm_eq_some hform
  refine h.mapped w hw lead m halike hm (.trans ?_ ht.isInfix)
  exact ⟨[], rest, by simp [braced]⟩

/-- Nothing is put in for a capture. -/
theorem substitute_eq (h : Bare wildcards s) (x : Expander) {w : Wildcard} (hw : w ∈ wildcards)
    (captured : Text) : x.substitute w captured ⟨s, []⟩ = ⟨s, []⟩ := by
  refine Expander.substitute_of_none ?_ fun t => h.mappingForm_eq_none hw
  have hraw : Text.replaceAll (['\x7b', '!'] ++ w.name ++ ['\x7d']) captured s = s :=
    Text.replaceAll_of_not_infix (h.raw w hw)
  rw [hraw]
  exact Text.replaceAll_of_not_infix (h.cleaned w hw)

/-- Nothing is put in for any capture. -/
theorem substituteAll_eq (h : Bare wildcards s) (x : Expander) {captures : List (Wildcard × Text)}
    (hcaptures : ∀ c ∈ captures, c.1 ∈ wildcards) :
    x.substituteAll captures ⟨s, []⟩ = ⟨s, []⟩ := by
  induction captures with
  | nil => rfl
  | cons c captures ih =>
    have hfirst := h.substitute_eq x (hcaptures c List.mem_cons_self) c.2
    have hmore := ih fun d hd => hcaptures d (List.mem_cons_of_mem c hd)
    exact (congrArg (x.substituteAll captures) hfirst).trans hmore

end Bare

/-- With its slashes settled by itself a text loses some at its end, if anything. -/
theorem isPrefix_settleSlash (s : Text) : settleSlash s s <+: s := by
  have hwhole : Text.trimEnd (· == '/') s ++ s.rtakeWhile (· == '/') = s :=
    List.rdropWhile_append_rtakeWhile
  rw [settleSlash]
  split
  · rename_i hslash
    rcases hback : s.rtakeWhile (· == '/') with _ | ⟨c, back⟩
    · rw [hback, List.append_nil] at hwhole
      have hlast := getLast?_trimEnd_slash s
      rw [hwhole] at hlast
      exact absurd (eq_of_beq hslash) hlast
    · have hmem : c ∈ s.rtakeWhile (· == '/') := hback ▸ List.mem_cons_self
      have hc : c = '/' := by simpa using List.mem_rtakeWhile_imp hmem
      rw [hback, hc] at hwhole
      exact ⟨back, by simpa using hwhole⟩
  · rw [List.append_nil]
    exact Text.isPrefix_trimEnd _ s

/-- Such a destination stays as it is but for the slashes at its end. -/
theorem Bare.finish_eq {wildcards : List Wildcard} {s : Text} (h : Bare wildcards s) (x : Expander)
    (values : List Text) :
    x.finish s (x.substituteAll (wildcards.zip values) ⟨unbracket s, []⟩) = settleSlash s s := by
  rw [h.unbracket_eq, h.substituteAll_eq x fun c hc => (List.of_mem_zip hc).1]
  exact Collections.apply_of_not_holdsMarker _ (h.of_infix (isPrefix_settleSlash s).isInfix).marker

end Template

namespace Expander

open Template

/-- **Selectors are looked up all or none.** A destination with nothing but selectors in it, with the
slashes at its end settled, is cut at its selectors in one way. If all of them find a page, the URL is the
text with every selector replaced by the path, which is not read again; otherwise there is no URL, and the
first selector that finds none is reported. -/
theorem expand_selectors (x : Expander) (hsite : (Text.trim x.site).isEmpty) {destination : Text}
    {wildcards : List Wildcard} (values : List Text) (hpage : ¬ pageWord <+: destination)
    (hbare : Bare wildcards destination) :
    ∃ c : Selection, c.Of (settleSlash destination destination) ∧
      (∀ d : Selection, d.Of (settleSlash destination destination) → d = c) ∧
      ((∀ t ∈ c.selectors, (x.directory.selector t).isSome) →
        x.expand destination wildcards values =
          .ok ⟨destination, c.fill fun t => (x.directory.selector t).getD [],
            (wildcards.zip values).map fun (w, captured) => ⟨w.name, captured, x.inject w captured⟩⟩) ∧
      ∀ before t after, c.selectors = before ++ t :: after →
        (∀ u ∈ before, (x.directory.selector u).isSome) → x.directory.selector t = none →
          x.expand destination wildcards values = .error (.missingSelector t) := by
  obtain ⟨c, hc⟩ := Selection.exists_of (settleSlash destination destination)
  refine ⟨c, hc, fun d hd => hd.unique hc, fun hall => ?_, fun before t after hsplit hbefore ht => ?_⟩
  · simp only [expand, template_of_unpaged hpage, hbare.finish_eq, select_of hc hall,
      absolutize_of_blank hsite]
  · simp only [expand, template_of_unpaged hpage, hbare.finish_eq,
      select_of_missing hc hsplit hbefore ht]

/-- An expander for two pages, of which the path of one is written like the selector of the other. -/
def hub : Expander :=
  ⟨⟨.fullClean, false⟩, [], .ofEntries [] [("a".toList, "[[b]]".toList), ("b".toList, "/b".toList)], []⟩

/-- A destination with brackets around its two selectors. -/
def ringed : Text := "/[[[a]][[b]]]//".toList

/-- A path that is written like a selector is not read again; and if no page is found for two selectors, the
first is reported. -/
theorem expand_selectors_ringed : (Text.trim hub.site).isEmpty ∧ ¬ pageWord <+: ringed ∧
    Bare [⟨"w".toList, .all, false⟩] ringed ∧
    hub.expand ringed [⟨"w".toList, .all, false⟩] ["v".toList] =
      .ok ⟨ringed, "/[[[b]]/b]/".toList, [⟨"w".toList, "v".toList, "v".toList⟩]⟩ ∧
    { hub with directory := .empty }.expand ringed [⟨"w".toList, .all, false⟩] ["v".toList] =
      .error (.missingSelector "a".toList) := by
  have hshort {s : Text} (h : s.length < 5) : ¬ HoldsSelector s := by
    rintro ⟨t, ht, hpart⟩
    have hlength := hpart.length_le
    have hpos := List.length_pos_iff.2 ht.ne_nil
    simp [selector] at hlength
    omega
  have hletter {c : Char} (hc : isWord c) : IsSelector [c] :=
    ⟨List.cons_ne_nil _ _, fun d hd => .inl (List.mem_singleton.1 hd ▸ hc)⟩
  have hcut : (⟨[("/[".toList, "a".toList), ([], "b".toList)], "]/".toList⟩ : Selection).Of
      (settleSlash ringed ringed) := by
    refine ⟨by decide, ?_, ?_, hshort (by decide)⟩
    · simp only [List.forall_mem_cons]
      exact ⟨hletter (by decide), hletter (by decide), nofun⟩
    · simp only [List.forall_mem_cons]
      exact ⟨hshort (by decide), hshort (by decide), nofun⟩
  have hpage : ¬ pageWord <+: ringed := by decide
  have hsite : (Text.trim hub.site).isEmpty := rfl
  have hbare : Bare [⟨"w".toList, .all, false⟩] ringed := by
    have hbrace : '\x7b' ∉ ringed := by decide
    have hround : '(' ∉ ringed := by decide
    exact {
      cleaned := fun w _ h => hbrace (h.subset List.mem_cons_self)
      raw := fun w _ h => hbrace (h.subset List.mem_cons_self)
      mapped := fun w _ _ _ _ _ h => hbrace (h.subset List.mem_cons_self)
      bracketed := fun _ _ _ _ _ _ h => hround (h.subset List.mem_cons_self)
      marker := Collections.not_holdsMarker_of_notMem hround }
  refine ⟨hsite, hpage, hbare, ?_, ?_⟩
  · obtain ⟨c, -, hunique, hall, -⟩ := expand_selectors hub hsite ["v".toList] hpage hbare
    obtain rfl := hunique _ hcut
    have hfirst : hub.directory.selector "a".toList = some "[[b]]".toList :=
      (Directory.findSelector_eq_some_iff (by decide)).2 (by decide)
    have hsecond : hub.directory.selector "b".toList = some "/b".toList :=
      (Directory.findSelector_eq_some_iff (by decide)).2 (by decide)
    refine (hall ?_).trans ?_
    · simp only [Selection.selectors, List.map_cons, List.map_nil, List.forall_mem_cons, hfirst, hsecond]
      exact ⟨rfl, rfl, nofun⟩
    · simp only [Selection.fill, List.foldr_cons, List.foldr_nil, hfirst, hsecond]
      rfl
  · obtain ⟨c, -, hunique, -, hmissing⟩ :=
      expand_selectors { hub with directory := .empty } hsite ["v".toList] hpage hbare
    obtain rfl := hunique _ hcut
    exact hmissing [] "a".toList ["b".toList] rfl nofun rfl

end Expander

end Detour
