import Detour.Proofs.Referral

/-!
# Destinations with placeholders

A placeholder `{name}` or `{!name}` stands for what a wildcard captured, cleaned or as it is. Captures are
put in one after the other, by replacing text in what there is so far; what comes of it is as if all
placeholders were replaced at once, each by the value of the first capture of its name.

* `Cleaner.isAllowed_of_mem_clean`: cleaned values have few characters, and no brackets among them.
* `Frame` is a destination of plain characters and placeholders; `Placeholder.shown` is a placeholder that
  may have got its text already.
* `Frame.replaceAll_shown` is one pass over a destination, `Expander.substitute_shown` one capture and
  `Expander.substituteAll_shown` all of them.
* `Expander.expand_frame` puts it together. A capture has to be told apart from a placeholder of another
  name, as all wildcards of compiled sources can; `Expander.expand_untold` is about two that cannot.
-/

namespace Detour

open Template Wildcard

/-! ### Literal texts -/

/-- Whether a character neither begins nor parts nor ends a construct of a destination. -/
def isLiteral (c : Char) : Bool := !isBracket c && c != '|' && c != '\x01'

/-- A text without the characters of constructs. -/
def Literal (s : Text) : Prop := ∀ c ∈ s, isLiteral c

instance (s : Text) : Decidable (Literal s) := decidable_of_iff (s.all isLiteral) List.all_eq_true

/-- Characters of constructs are in no literal text. -/
theorem Literal.notMem {s : Text} (hs : Literal s) {c : Char} (hc : isLiteral c = false) : c ∉ s :=
  notMem_of_class hs hc

/-- Characters that may stand in a cleaned value are literal. -/
theorem isLiteral_of_isAllowed {c : Char} (h : Cleaning.isAllowed c) : isLiteral c := by
  have hne : ∀ d, Cleaning.isAllowed d = false → c ≠ d := by
    rintro d hd rfl
    rw [h] at hd
    cases hd
  have hbracket : isBracket c = false := by
    simp only [isBracket, List.contains_eq_mem, List.mem_cons, List.not_mem_nil, or_false,
      decide_eq_false_iff_not, not_or]
    exact ⟨hne _ (by decide), hne _ (by decide), hne _ (by decide), hne _ (by decide),
      hne _ (by decide), hne _ (by decide)⟩
  simp [isLiteral, hbracket, hne '|' (by decide), hne '\x01' (by decide)]

/-- Small letters are literal. -/
theorem isLiteral_of_isSmall {c : Char} (h : isSmall c) : isLiteral c := by
  have hlower : c.isLower := h
  refine isLiteral_of_isAllowed ?_
  change (((c.isUpper || c.isLower) || c.isDigit) || c == '-' || c == '_' || c == '/') = true
  simp [hlower]

/-- What may stand in a cleaned value may do so when it is lower-cased. -/
theorem Cleaning.isAllowed_toLower {c : Char} (h : isAllowed c) : isAllowed c.toLower := by
  by_cases hupper : c.toNat < 128
  · have hall : ∀ n : Fin 128, isAllowed (Char.ofNat n) → isAllowed (Char.ofNat n).toLower := by decide
    simpa using hall ⟨c.toNat, hupper⟩ (by simpa using h)
  · have hself : c.toLower = c := by
      unfold Char.toLower
      refine dif_neg fun hcapital => hupper ?_
      have hlast : c.toNat ≤ 90 := hcapital.2
      omega
    rwa [hself]

/-- A cleaned value has only characters that may stand in one. -/
theorem Cleaner.isAllowed_of_mem_clean {k : Cleaner} {lower : Bool} {value : Text} {c : Char}
    (h : c ∈ k.clean lower value) : Cleaning.isAllowed c := by
  simp only [clean] at h
  split at h
  · obtain ⟨d, hd, rfl⟩ := List.mem_map.1 h
    exact Cleaning.isAllowed_toLower (List.mem_filter.1 hd).2
  · exact (List.mem_filter.1 h).2

/-- Literal values stay literal when they are cleaned. -/
theorem Cleaner.literal_apply (k : Cleaner) {value : Text} (h : Literal value) :
    Literal (k.apply value) := by
  unfold apply
  split
  · exact h
  · exact fun c hc => isLiteral_of_isAllowed (isAllowed_of_mem_clean hc)
  · exact fun c hc => isLiteral_of_isAllowed (isAllowed_of_mem_clean hc)

/-- Literal values stay literal when they are put into a destination. -/
theorem Expander.literal_inject (x : Expander) (w : Wildcard) {captured : Text} (h : Literal captured) :
    Literal (x.inject w captured) := by
  unfold inject
  split
  · exact h
  · exact x.cleaner.literal_apply h

/-! ### Placeholders -/

/-- A placeholder. -/
structure Placeholder where
  /-- the name of the wildcard whose value it stands for -/
  name : Text
  /-- whether the value is put in as it is -/
  raw : Bool
deriving Repr, DecidableEq

namespace Placeholder

/-- What stands between the braces of a placeholder. -/
def inside (p : Placeholder) : Text := (if p.raw then ['!'] else []) ++ p.name

/-- How a placeholder is written. -/
def write (p : Placeholder) : Text := braced p.inside

/-- The name is a nonempty word of small letters. -/
def IsWritable (p : Placeholder) : Prop := p.name ≠ [] ∧ ∀ c ∈ p.name, isSmall c

/-- A placeholder that may have got its text already. -/
def shown (text? : Placeholder → Option Text) (p : Placeholder) : Text := (text? p).getD p.write

variable {p : Placeholder} {w : Wildcard}

/-- Between the braces of a placeholder there are no others. -/
theorem notMem_inside (hp : p.IsWritable) {c : Char} (hsmall : isSmall c = false) (hbang : c ≠ '!') :
    c ∉ p.inside := by
  have hname : c ∉ p.name := notMem_of_class hp.2 hsmall
  simp [inside, List.mem_ite_nil_right, hbang, hname]

/-- A word in braces is found at a placeholder if it is what stands between its braces. -/
theorem startsWith_write (hp : p.IsWritable) {word : Text} (hword : '\x7d' ∉ word) (rest : Text) :
    Text.startsWith (braced word) (p.write ++ rest) = decide (p.inside = word) := by
  rw [Bool.eq_iff_iff, Text.startsWith_iff, decide_eq_true_eq]
  refine ⟨?_, ?_⟩
  · rintro ⟨behind, h⟩
    rw [write, braced_append, braced_append] at h
    have hinside := notMem_inside hp (c := '\x7d') (by decide) (by decide)
    exact (append_cons_inj_of_notMem hword hinside (List.cons.inj h).2).1.symm
  · rintro rfl
    exact List.prefix_append _ _

/-- A placeholder is one of a wildcard, and its value is put in as it is. -/
theorem inside_eq_bang_iff (hp : p.IsWritable) : p.inside = '!' :: w.name ↔ p.raw ∧ w.name = p.name := by
  obtain ⟨name, raw⟩ := p
  cases raw with
  | true => simp [inside, eq_comm]
  | false =>
    have hne : name ≠ '!' :: w.name := by
      rintro rfl
      exact absurd (hp.2 '!' List.mem_cons_self) (by decide)
    simp [inside, hne]

/-- A placeholder is one of a wildcard, and its value is cleaned. -/
theorem inside_eq_name_iff (hw : p.raw → w.name ≠ '!' :: p.name) :
    p.inside = w.name ↔ p.raw = false ∧ w.name = p.name := by
  obtain ⟨name, raw⟩ := p
  cases raw with
  | true => simp [inside, Ne.symm (hw rfl)]
  | false => simp [inside, eq_comm]

end Placeholder

/-- A destination that is made of plain characters and placeholders, and names no page. -/
structure Frame where
  /-- the characters and placeholders -/
  pieces : List (Piece Placeholder)
  /-- plain characters are literal -/
  literal : ∀ c, .plain c ∈ pieces → isLiteral c
  /-- placeholders are written with words of small letters -/
  writable : ∀ p, .hit p ∈ pieces → p.IsWritable
  /-- the destination is a template itself -/
  unpaged : ¬ pageWord <+: Text.render Placeholder.write pieces

namespace Frame

variable (f : Frame) {text? : Placeholder → Option Text}

/-- The text of a destination. -/
def text : Text := Text.render Placeholder.write f.pieces

/-- A wildcard is told apart from the placeholders of other names: its name does not reach over a brace,
and is not that of a placeholder together with the exclamation mark in front of it. -/
structure Tells (w : Wildcard) : Prop where
  /-- no brace -/
  closed : '\x7d' ∉ w.name
  /-- no exclamation mark -/
  marked : ∀ p, .hit p ∈ f.pieces → p.raw → w.name ≠ '!' :: p.name

/-- The wildcards of compiled sources are told apart from all placeholders. -/
theorem tells_of_mem_wildcards {source : Text} {w : Wildcard}
    (hw : w ∈ (Pattern.compile source).wildcards) : f.Tells w where
  closed := notMem_of_class (Pattern.isSmall_of_mem_wildcards hw) (by decide)
  marked p _ _ h := by
    have hbang := Pattern.isSmall_of_mem_wildcards hw '!' (by simp [h])
    exact absurd hbang (by decide)

/-- **One pass.** Replacing a word in braces gives a text to the placeholders that it is written in, and
leaves what got its text before. -/
theorem replaceAll_shown (htext : ∀ p v, text? p = some v → Literal v) (word new : Text)
    (hword : '\x7d' ∉ word) :
    Text.replaceAll (braced word) new (Text.render (Placeholder.shown text?) f.pieces) =
      Text.render (Placeholder.shown fun p => (text? p).or (if p.inside = word then some new else none))
        f.pieces := by
  refine Text.render_of_render rfl (fun c hc rest => ?_) fun p hp rest => ?_
  · refine Text.replaceAll_cons new (Text.startsWith_cons_of_ne _ _ ?_)
    rintro rfl
    exact absurd (f.literal _ hc) (by decide)
  · have hwritable := f.writable p hp
    cases htext? : text? p with
    | some v =>
      simp only [Placeholder.shown, htext?, Option.getD_some, Option.some_or]
      exact Text.replaceAll_lead new rest ((htext p v htext?).notMem (by decide))
    | none =>
      have hstarts := Placeholder.startsWith_write hwritable hword rest
      simp only [Placeholder.shown, htext?, Option.getD_none, Option.none_or]
      by_cases hinside : p.inside = word
      · subst hinside
        rw [if_pos rfl, Option.getD_some]
        exact Text.replaceAll_append new rest (by simp [braced])
      · have hbehind : '\x7b' ∉ p.inside ++ ['\x7d'] := by
          simp [Placeholder.notMem_inside hwritable (c := '\x7b') (by decide) (by decide)]
        rw [decide_eq_false hinside] at hstarts
        have hcons : p.write ++ rest = '\x7b' :: ((p.inside ++ ['\x7d']) ++ rest) := by
          simp [Placeholder.write, braced]
        rw [hcons] at hstarts
        rw [if_neg hinside, Option.getD_none, hcons, Text.replaceAll_cons new hstarts]
        exact congrArg _ (Text.replaceAll_lead new rest hbehind)

/-- What a destination with some texts put in is made of. -/
theorem mem_render_shown (htext : ∀ p v, text? p = some v → Literal v) {c : Char}
    (h : c ∈ Text.render (Placeholder.shown text?) f.pieces) :
    isLiteral c ∨ c = '\x7b' ∨ c = '\x7d' := by
  obtain ⟨q, hq, hc⟩ := List.mem_flatMap.1 h
  cases q with
  | plain d =>
    obtain rfl := List.mem_singleton.1 hc
    exact .inl (f.literal _ hq)
  | hit p =>
    simp only [Placeholder.shown] at hc
    cases htext? : text? p with
    | some v =>
      rw [htext?] at hc
      exact .inl (htext p v htext? c hc)
    | none =>
      rw [htext?, Option.getD_none, Placeholder.write, braced] at hc
      simp only [Placeholder.inside, List.mem_append, List.mem_singleton,
        List.mem_ite_nil_right] at hc
      rcases hc with (rfl | ⟨-, rfl⟩ | hc) | rfl
      · exact .inr (.inl rfl)
      · exact .inl (by decide)
      · exact .inl (isLiteral_of_isSmall ((f.writable p hq).2 c hc))
      · exact .inr (.inr rfl)

/-- A destination with placeholders has no references in round brackets. -/
theorem unbracket_text : unbracket f.text = f.text := by
  refine Text.rewrite_eq_self id fun c hc rest => bracketedForm_cons ?_ rest
  rintro rfl
  have hnone : ∀ (p : Placeholder) v, none = some v → Literal v := nofun
  rcases f.mem_render_shown hnone hc with h | h | h <;> exact absurd h (by decide)

end Frame

/-! ### Expansion -/

namespace Text

/-- Pieces are written in the same way if their constructs are. -/
theorem render_congr {β : Type} {write write' : β → Text} {ps : List (Piece β)}
    (h : ∀ m, .hit m ∈ ps → write m = write' m) : render write ps = render write' ps := by
  refine List.flatMap_congr fun p hp => ?_
  cases p with
  | plain c => rfl
  | hit m => exact h m hp

/-- A text in which no construct begins is made of plain characters. -/
theorem pieces_eq_map_plain {β : Type} {form : Form β} {s : Text} (h : ∀ t, t <:+ s → form t = none) :
    pieces form s = s.map .plain := by
  induction s with
  | nil => rfl
  | cons c s ih =>
    rw [pieces_cons (h _ List.suffix_rfl), ih fun t ht => h t (ht.trans (List.suffix_cons c s))]
    rfl

end Text

namespace Expander

variable {x : Expander} {f : Frame}

/-- The text that a placeholder gives way to: the value of the first capture of its name, if there is one,
as it was captured if the placeholder says so, and as its wildcard receives it otherwise. -/
def value? (x : Expander) (captures : List (Wildcard × Text)) (p : Placeholder) : Option Text :=
  (captures.find? fun c => c.1.name = p.name).map fun c => if p.raw then c.2 else x.inject c.1 c.2

/-- The text that stands for a placeholder in the URL. -/
def filled (x : Expander) (captures : List (Wildcard × Text)) (p : Placeholder) : Text :=
  (x.value? captures p).getD p.write

/-- No reference is found where there is no bar. -/
theorem mappingForm_of_notMem {name s : Text} (h : '|' ∉ s) : mappingForm name s = none := by
  unfold mappingForm
  split
  case h_2 => rfl
  split
  case h_2 => rfl
  rename_i s tail hafter
  obtain ⟨lead, rfl, -⟩ := afterFolded?_eq_some_iff.1 hafter
  exact absurd (by simp) h

/-- Where no references are found, a capture is put in by two replacements. -/
theorem substitute_of_none {w : Wildcard} {captured s : Text} {d : Draft}
    (hs : Text.replaceAll (['\x7b'] ++ w.name ++ ['\x7d']) (x.inject w captured)
      (Text.replaceAll (['\x7b', '!'] ++ w.name ++ ['\x7d']) captured d.text) = s)
    (hnone : ∀ t, t <:+ s → mappingForm w.name t = none) : x.substitute w captured d = ⟨s, d.mapped⟩ := by
  have hslots := Spot.writeSlots_plain (n := d.mapped.length) s []
  rw [List.append_nil, writeSlots, List.append_nil] at hslots
  rw [substitute, hs, Text.pieces_eq_map_plain hnone]
  simp [hslots, Text.hits]

/-- The first of some captures gives a placeholder its text, and otherwise the others do. -/
theorem value?_cons (c : Wildcard × Text) (captures : List (Wildcard × Text)) (p : Placeholder) :
    x.value? (c :: captures) p = (x.value? [c] p).or (x.value? captures p) := by
  by_cases h : c.1.name = p.name <;> simp [value?, h]

/-- The texts of placeholders stay literal when literal values are captured. -/
theorem literal_value? {text? : Placeholder → Option Text} {captures : List (Wildcard × Text)}
    (htext : ∀ p v, text? p = some v → Literal v) (hcaptured : ∀ c ∈ captures, Literal c.2) :
    ∀ p v, (text? p).or (x.value? captures p) = some v → Literal v := by
  intro p v h
  rcases Option.or_eq_some_iff.1 h with h | ⟨-, h⟩
  · exact htext p v h
  · obtain ⟨c, hc, rfl⟩ := Option.map_eq_some_iff.1 h
    have hliteral := hcaptured c (List.mem_of_find?_eq_some hc)
    split
    · exact hliteral
    · exact x.literal_inject c.1 hliteral

/-- **One capture.** A captured value is the text of the placeholders of its name that have none yet. -/
theorem substitute_shown {text? : Placeholder → Option Text} (htext : ∀ p v, text? p = some v → Literal v)
    {w : Wildcard} {captured : Text} (htells : f.Tells w) (hcaptured : Literal captured) :
    x.substitute w captured ⟨Text.render (Placeholder.shown text?) f.pieces, []⟩ =
      ⟨Text.render (Placeholder.shown fun p => (text? p).or (x.value? [(w, captured)] p)) f.pieces, []⟩ := by
  let raw? : Placeholder → Option Text := fun p =>
    (text? p).or (if p.inside = '!' :: w.name then some captured else none)
  have hrawText : ∀ p v, raw? p = some v → Literal v := by
    intro p v h
    rcases Option.or_eq_some_iff.1 h with h | ⟨-, h⟩
    · exact htext p v h
    · obtain ⟨-, h⟩ := Option.ite_none_right_eq_some.1 h
      exact Option.some.inj h ▸ hcaptured
  have hraw : Text.replaceAll (['\x7b', '!'] ++ w.name ++ ['\x7d']) captured
      (Text.render (Placeholder.shown text?) f.pieces) = Text.render (Placeholder.shown raw?) f.pieces :=
    f.replaceAll_shown htext ('!' :: w.name) captured (by simp [htells.closed])
  have hvalue : ∀ p, .hit p ∈ f.pieces →
      (raw? p).or (if p.inside = w.name then some (x.inject w captured) else none) =
        (text? p).or (x.value? [(w, captured)] p) := by
    intro p hp
    have hbang := Placeholder.inside_eq_bang_iff (w := w) (f.writable p hp)
    have hname := Placeholder.inside_eq_name_iff (htells.marked p hp)
    simp only [raw?, value?, hbang, hname, Option.or_assoc]
    cases p.raw <;> by_cases h : w.name = p.name <;> simp [h]
  have hcleaned : Text.replaceAll (['\x7b'] ++ w.name ++ ['\x7d']) (x.inject w captured)
      (Text.render (Placeholder.shown raw?) f.pieces) =
        Text.render (Placeholder.shown fun p => (text? p).or (x.value? [(w, captured)] p)) f.pieces := by
    refine (f.replaceAll_shown hrawText w.name (x.inject w captured) htells.closed).trans ?_
    exact Text.render_congr fun p hp => by rw [Placeholder.shown, hvalue p hp, Placeholder.shown]
  have hbar : '|' ∉ Text.render (Placeholder.shown fun p => (text? p).or (x.value? [(w, captured)] p))
      f.pieces := by
    intro h
    have hone : ∀ c ∈ [(w, captured)], Literal c.2 := by simpa using hcaptured
    rcases f.mem_render_shown (literal_value? htext hone) h with h | h | h <;>
      exact absurd h (by decide)
  refine substitute_of_none (by rw [hraw, hcleaned]) fun t ht => ?_
  exact mappingForm_of_notMem fun h => hbar (ht.subset h)

/-- **All captures.** Captured values that are put in one after the other are the texts of all
placeholders of their names that have none yet. -/
theorem substituteAll_shown {text? : Placeholder → Option Text} {captures : List (Wildcard × Text)}
    (htext : ∀ p v, text? p = some v → Literal v) (htells : ∀ c ∈ captures, f.Tells c.1)
    (hcaptured : ∀ c ∈ captures, Literal c.2) :
    x.substituteAll captures ⟨Text.render (Placeholder.shown text?) f.pieces, []⟩ =
      ⟨Text.render (Placeholder.shown fun p => (text? p).or (x.value? captures p)) f.pieces, []⟩ := by
  induction captures generalizing text? with
  | nil => simp [substituteAll, value?]
  | cons c captures ih =>
    have hfirst : ∀ d ∈ [c], Literal d.2 := fun d hd =>
      hcaptured d (List.mem_singleton.1 hd ▸ List.mem_cons_self)
    have hcons : ∀ d, x.substituteAll (c :: captures) d =
        x.substituteAll captures (x.substitute c.1 c.2 d) := fun _ => rfl
    have hrest := ih (literal_value? (x := x) htext hfirst)
      (fun d hd => htells d (List.mem_cons_of_mem c hd))
      fun d hd => hcaptured d (List.mem_cons_of_mem c hd)
    rw [hcons, substitute_shown htext (htells c List.mem_cons_self) (hcaptured c List.mem_cons_self),
      hrest]
    simp only [Option.or_assoc, ← value?_cons]

/-- **Placeholders.** Putting in captured values one after the other comes to the same as replacing all
placeholders of a destination at once, each by the value of the first capture of its name; only slashes at
the end are settled as the destination has them. -/
theorem expand_frame (x : Expander) (f : Frame) {wildcards : List Wildcard} {values : List Text}
    (hlength : wildcards.length = values.length) (htells : ∀ w ∈ wildcards, f.Tells w)
    (hvalues : ∀ v ∈ values, Literal v) (hsite : (Text.trim x.site).isEmpty) :
    ∃ e, x.expand f.text wildcards values = .ok e ∧
      e.url = Text.trimEnd (· == '/') (Text.render (x.filled (wildcards.zip values)) f.pieces) ++
        (if f.text.getLast? = some '/' then ['/'] else []) ∧
      e.substitutions.length = wildcards.length ∧
      e.substitutions =
        List.zipWith (fun w captured => ⟨w.name, captured, x.inject w captured⟩) wildcards values := by
  have hcaptured : ∀ c ∈ wildcards.zip values, Literal c.2 :=
    fun c hc => hvalues c.2 (List.of_mem_zip hc).2
  have htold : ∀ c ∈ wildcards.zip values, f.Tells c.1 := fun c hc => htells c.1 (List.of_mem_zip hc).1
  have hnone : ∀ (p : Placeholder) v, none = some v → Literal v := nofun
  obtain ⟨url, hurl⟩ : ∃ url, url = Text.render (x.filled (wildcards.zip values)) f.pieces := ⟨_, rfl⟩
  have hsubstitute : x.substituteAll (wildcards.zip values) ⟨unbracket f.text, []⟩ = ⟨url, []⟩ := by
    rw [f.unbracket_text, hurl]
    exact substituteAll_shown hnone htold hcaptured
  have hchars : ∀ c ∈ settleSlash f.text url, isLiteral c ∨ c = '\x7b' ∨ c = '\x7d' := by
    intro c hc
    rw [settleSlash, List.mem_append, List.mem_ite_nil_right, List.mem_singleton] at hc
    rcases hc with hc | ⟨-, rfl⟩
    · have hmem := (Text.isPrefix_trimEnd _ url).subset hc
      rw [hurl] at hmem
      exact f.mem_render_shown (literal_value? hnone hcaptured) hmem
    · exact .inl (by decide)
  have hopen : '(' ∉ settleSlash f.text url := by
    intro h
    rcases hchars _ h with h | h | h <;> exact absurd h (by decide)
  have hselect : '[' ∉ settleSlash f.text url := by
    intro h
    rcases hchars _ h with h | h | h <;> exact absurd h (by decide)
  have htemplate : x.template f.text = .ok f.text := template_of_unpaged f.unpaged
  have hexpand : x.expand f.text wildcards values = .ok ⟨f.text, settleSlash f.text url,
      (wildcards.zip values).map fun c => ⟨c.1.name, c.2, x.inject c.1 c.2⟩⟩ := by
    rw [expand, htemplate]
    simp only [hsubstitute, finish, apply_of_notMem hopen, fillSlots, select_of_notMem hselect,
      absolutize, hsite, Bool.true_or, if_true]
  refine ⟨_, hexpand, ?_, ?_, ?_⟩
  · simp only [settleSlash, hurl, beq_iff_eq]
  · simp [hlength]
  · exact List.map_zip_eq_zipWith

/-- Placeholders of a cleaned and of an uncleaned value, and one for which nothing is captured. -/
def posted : Frame where
  pieces := [.plain '/', .hit ⟨['a'], false⟩, .plain '-', .hit ⟨['a'], true⟩, .plain '/',
    .hit ⟨['b'], false⟩, .plain '/', .hit ⟨['c'], true⟩, .plain '/', .plain '/']
  literal := by simp; decide
  writable := by
    simp only [List.mem_cons, List.not_mem_nil, or_false, reduceCtorEq, false_or, Piece.hit.injEq]
    rintro p (rfl | rfl | rfl | rfl) <;> exact ⟨by simp, List.all_eq_true.1 (by decide)⟩
  unpaged := by decide

/-- Captures are put in where they are referred to, and the slashes at the end become one. -/
theorem expand_frame_posted : posted.text = "/\x7ba\x7d-\x7b!a\x7d/\x7bb\x7d/\x7b!c\x7d//".toList ∧
    ∃ e, mapper.expand posted.text [⟨['a'], .any, false⟩, ⟨['b'], .any, true⟩, ⟨['a'], .num, false⟩]
        ["A B".toList, "C D".toList, "7".toList] = .ok e ∧
      e.url = "/a-b-A B/C D/\x7b!c\x7d/".toList ∧
      e.substitutions = [⟨['a'], "A B".toList, "a-b".toList⟩, ⟨['b'], "C D".toList, "C D".toList⟩,
        ⟨['a'], "7".toList, "7".toList⟩] := by
  have htells : ∀ w ∈ [(⟨['a'], .any, false⟩ : Wildcard), ⟨['b'], .any, true⟩, ⟨['a'], .num, false⟩],
      posted.Tells w := by
    intro w hw
    have hcompiled : w ∈ (Pattern.compile
        "\x7ba:any\x7d/\x7b!b:any\x7d/\x7ba:num\x7d".toList).wildcards := hw
    exact posted.tells_of_mem_wildcards hcompiled
  have hvalues : ∀ v ∈ ["A B".toList, "C D".toList, "7".toList], Literal v := by decide
  obtain ⟨e, hexpand, hurl, -, hsubstitutions⟩ := expand_frame mapper posted rfl htells hvalues rfl
  refine ⟨rfl, e, hexpand, hurl.trans ?_, hsubstitutions.trans ?_⟩
  · decide +kernel
  · decide +kernel

/-- A placeholder with an exclamation mark, and two next to each other. -/
def marked : Frame where
  pieces := [.plain '/', .hit ⟨['a'], true⟩, .plain '/', .hit ⟨['b'], false⟩, .plain 'x', .hit ⟨['c'], false⟩]
  literal := by simp; decide
  writable := by
    simp only [List.mem_cons, List.not_mem_nil, or_false, reduceCtorEq, false_or, Piece.hit.injEq]
    rintro p (rfl | rfl | rfl) <;> exact ⟨by simp, List.all_eq_true.1 (by decide)⟩
  unpaged := by decide

/-- A capture whose name is that of a placeholder with its exclamation mark, and one whose name reaches
from one placeholder into another, are put in although no placeholder has their names. -/
theorem expand_untold : marked.text = "/\x7b!a\x7d/\x7bb\x7dx\x7bc\x7d".toList ∧
    Text.render (mapper.filled [(⟨"!a".toList, .all, false⟩, "v".toList)]) marked.pieces = marked.text ∧
    Text.render (mapper.filled [(⟨"b\x7dx\x7bc".toList, .all, false⟩, "v".toList)]) marked.pieces =
      marked.text ∧
    (∃ e, mapper.expand marked.text [⟨"!a".toList, .all, false⟩] ["v".toList] = .ok e ∧
      e.url = "/v/\x7bb\x7dx\x7bc\x7d".toList) ∧
    ∃ e, mapper.expand marked.text [⟨"b\x7dx\x7bc".toList, .all, false⟩] ["v".toList] = .ok e ∧
      e.url = "/\x7b!a\x7d/v".toList := by
  have hmarked : mapper.expand marked.text [⟨"!a".toList, .all, false⟩] ["v".toList] =
      .ok ⟨marked.text, "/v/\x7bb\x7dx\x7bc\x7d".toList, [⟨"!a".toList, "v".toList, "v".toList⟩]⟩ := by
    decide +kernel
  have hcrossing : mapper.expand marked.text [⟨"b\x7dx\x7bc".toList, .all, false⟩] ["v".toList] =
      .ok ⟨marked.text, "/\x7b!a\x7d/v".toList, [⟨"b\x7dx\x7bc".toList, "v".toList, "v".toList⟩]⟩ := by
    decide +kernel
  exact ⟨rfl, rfl, rfl, ⟨_, hmarked, rfl⟩, _, hcrossing, rfl⟩

end Expander

end Detour
