import Detour.Proofs.Source
import Mathlib.Tactic.SplitIfs

/-!
# What stands around a wildcard

The stages of the compiler go over a whole source, and each of them may change what stands around a
wildcard. A wildcard in braces keeps its place through all of them, whatever the source is.

* `Text.StopsAt` says that no construct of a form goes on over a character; a text is then scanned by
  itself in front of that character (`Text.pieces_append_of_stopsAt`). Braces stop every form but spans.
* `Wildcard.prepare_around` and `Wildcard.freeColons_around` follow two words in braces through the
  escaping, and `Wildcard.rewrite_kept` is for stages that do not recognise what is in braces.
* `Wildcard.expandSpans_around` is for spans: only they may reach over the braces.
-/

namespace Detour

open Wildcard

/-! ### Forms that stop -/

namespace Text

variable {β : Type} {form : Form β} {write : β → Text} {c : Char}

/-- What a form recognises are words that have a character nowhere behind their first one, and it
recognises them whatever follows. -/
def StopsAt (form : Form β) (c : Char) : Prop :=
  ∀ s m size, form s = some (m, size) → ∃ a word rest, s = a :: (word ++ rest) ∧
    size = word.length + 1 ∧ c ∉ word ∧ ∀ t, form (a :: (word ++ t)) = some (m, size)

/-- A form that says more of what another form recognises stops where that one does. -/
theorem StopsAt.refine {γ : Type} {fine : Form γ} (h : StopsAt form c)
    (hfine : ∀ s m size, fine s = some (m, size) → ∃ meaning, form s = some (meaning, size) ∧
      ∀ t, form t = some (meaning, size) → fine t = some (m, size)) : StopsAt fine c := by
  intro s m size hs
  obtain ⟨meaning, hform, hagain⟩ := hfine s m size hs
  obtain ⟨a, word, rest, heq, hsize, hword, hfollow⟩ := h s meaning size hform
  exact ⟨a, word, rest, heq, hsize, hword, fun t => hagain _ (hfollow t)⟩

/-- A word that does not have a character ends before the first one. -/
theorem exists_eq_append_of_notMem {word rest lead behind : Text} (h : c ∉ word)
    (heq : lead ++ c :: behind = word ++ rest) : ∃ more, lead = word ++ more := by
  rcases List.append_eq_append_iff.1 heq with ⟨more, hword, hmore⟩ | ⟨more, hlead, -⟩
  · cases more with
    | nil => exact ⟨[], by rw [hword, List.append_nil, List.append_nil]⟩
    | cons d more =>
      obtain ⟨rfl, -⟩ := List.cons.inj hmore
      exact absurd (by rw [hword]; simp) h
  · exact ⟨more, hlead⟩

/-- Where no construct begins in a part of a text, none does when a character follows that stops the
form. -/
theorem form_append_of_stopsAt (h : StopsAt form c) {a : Char} {lead : Text} (rest : Text)
    (hnone : form (a :: lead) = none) : form (a :: (lead ++ c :: rest)) = none := by
  rw [Option.eq_none_iff_forall_ne_some]
  rintro ⟨m, size⟩ hsome
  obtain ⟨b, word, behind, heq, -, hword, hform⟩ := h _ m size hsome
  obtain ⟨rfl, htail⟩ := List.cons.inj heq
  obtain ⟨more, rfl⟩ := exists_eq_append_of_notMem hword htail
  rw [hform] at hnone
  cases hnone

/-- **A text is scanned by itself in front of a character that stops the form.** -/
theorem pieces_append_of_stopsAt (h : StopsAt form c) (lead rest : Text) :
    pieces form (lead ++ c :: rest) = pieces form lead ++ pieces form (c :: rest) := by
  induction hlen : lead.length using Nat.strongRecOn generalizing lead with
  | _ len ih =>
    subst hlen
    cases lead with
    | nil => rfl
    | cons a lead =>
      rcases hform : form (a :: lead) with _ | ⟨m, size⟩
      · have hlead := ih lead.length (Nat.lt_succ_self _) lead rfl
        rw [List.cons_append, pieces_cons (form_append_of_stopsAt h rest hform), pieces_cons hform,
          hlead]
        rfl
      · obtain ⟨b, word, behind, heq, rfl, -, hword⟩ := h _ m size hform
        have hshort : behind.length < (a :: lead).length := by
          rw [heq, List.length_cons, List.length_append]
          omega
        have hbehind := ih behind.length hshort behind rfl
        have hself := pieces_append (List.cons_ne_nil b word) (hword behind)
        have hmore := pieces_append (List.cons_ne_nil b word) (hword (behind ++ c :: rest))
        rw [List.cons_append] at hself hmore
        rw [heq, List.cons_append, List.append_assoc, hmore, hbehind, hself]
        rfl

/-- A text is rewritten by itself in front of a character that stops the form. -/
theorem rewrite_append_of_stopsAt (h : StopsAt form c) (lead rest : Text) :
    rewrite form write (lead ++ c :: rest) = rewrite form write lead ++ rewrite form write (c :: rest) := by
  rw [rewrite, pieces_append_of_stopsAt h, render_append]
  rfl

/-- A construct that begins with a character that stops the form is found wherever it stands. -/
theorem rewrite_found (h : StopsAt form c) {m : β} {word behind : Text} (before : Text)
    (hhead : word.head? = some c) (hm : form (word ++ behind) = some (m, word.length)) :
    rewrite form write (before ++ (word ++ behind)) =
      rewrite form write before ++ (write m ++ rewrite form write behind) := by
  obtain ⟨tail, rfl⟩ := List.head?_eq_some_iff.1 hhead
  have hfound := rewrite_append write (List.cons_ne_nil c tail) hm
  rw [List.cons_append] at hfound ⊢
  rw [rewrite_append_of_stopsAt h, hfound]

/-- Braces are kept and what is between them is rewritten by itself, if braces stop the form and begin
none of its constructs. -/
theorem rewrite_braces (hstops : ∀ c ∈ ['\x7b', '\x7d'], StopsAt form c)
    (hnone : ∀ c ∈ ['\x7b', '\x7d'], ∀ rest, form (c :: rest) = none) (before body behind : Text) :
    rewrite form write (before ++ '\x7b' :: (body ++ '\x7d' :: behind)) =
      rewrite form write before ++ '\x7b' :: (rewrite form write body ++ '\x7d' ::
        rewrite form write behind) := by
  have hopen := hstops '\x7b' (by simp)
  have hclose := hstops '\x7d' (by simp)
  rw [rewrite_append_of_stopsAt hopen, rewrite_cons write (hnone _ (by simp) _),
    rewrite_append_of_stopsAt hclose, rewrite_cons write (hnone _ (by simp) _)]

/-- A word stops at a character that it does not have. -/
theorem stopsAt_wordForm {a : Char} {word : Text} (h : c ∉ word) : StopsAt (wordForm (a :: word)) c := by
  intro s m size hs
  obtain ⟨hstarts, hsome⟩ := Option.ite_none_right_eq_some.1 hs
  obtain ⟨rest, rfl⟩ := startsWith_iff.1 hstarts
  obtain ⟨-, rfl⟩ := Prod.mk.inj (Option.some.inj hsome)
  refine ⟨a, word, rest, rfl, rfl, h, fun t => ?_⟩
  have hstarts : startsWith (a :: word) (a :: (word ++ t)) := startsWith_iff.2 ⟨t, rfl⟩
  rw [wordForm, if_pos hstarts]

/-- Braces are kept when a word without braces is replaced. -/
theorem replaceAll_braces {a : Char} {word : Text} (new : Text) (hopen : '\x7b' ∉ a :: word)
    (hclose : '\x7d' ∉ a :: word) (before body behind : Text) :
    replaceAll (a :: word) new (before ++ '\x7b' :: (body ++ '\x7d' :: behind)) =
      replaceAll (a :: word) new before ++ '\x7b' :: (replaceAll (a :: word) new body ++ '\x7d' ::
        replaceAll (a :: word) new behind) := by
  have h : ∀ c ∈ ['\x7b', '\x7d'], c ∉ a :: word :=
    List.forall_mem_cons.2 ⟨hopen, List.forall_mem_singleton.2 hclose⟩
  simp only [replaceAll_eq_rewrite]
  refine rewrite_braces (fun c hc => ?_) (fun c hc rest => ?_) before body behind
  · exact stopsAt_wordForm fun hmem => h c hc (List.mem_cons_of_mem a hmem)
  · have hne : a ≠ c := fun hac => h c hc (hac ▸ List.mem_cons_self)
    rw [wordForm, startsWith_cons_of_ne word rest hne]
    rfl

end Text

namespace Wildcard

/-! ### Two words in braces -/

variable {letter : Char → Bool} {between : Text} {p : Pair}

/-- Two words in braces are recognised as what they are written as. -/
theorem writeWith_of_pairForm {s : Text} {size : Nat}
    (h : pairForm letter between s = some (p, size)) : ∃ rest, s = p.writeWith between ++ rest ∧
      size = (p.writeWith between).length ∧ (p.first ≠ [] ∧ ∀ c ∈ p.first, letter c) ∧
      (p.second ≠ [] ∧ ∀ c ∈ p.second, letter c) := by
  unfold pairForm at h
  split at h
  case h_2 => cases h
  rename_i s
  -- the text behind the exclamation mark, if there is one
  obtain ⟨tail, htail⟩ : ∃ t, t = if (s.head? == some '!') = true then s.drop 1 else s := ⟨_, rfl⟩
  have hs : s = (if (s.head? == some '!') = true then ['!'] else []) ++ tail := by
    rw [htail]
    cases s with
    | nil => rfl
    | cons c s => by_cases hc : c = '!' <;> simp [hc]
  simp only [← htail] at h
  split at h
  · cases h
  rename_i behind hbehind
  obtain ⟨hne, h⟩ := Option.ite_none_left_eq_some.1 h
  simp only [Bool.or_eq_true, not_or, List.isEmpty_iff] at hne
  obtain ⟨rfl, rfl⟩ := Prod.mk.inj (Option.some.inj h)
  have hfirst := eq_takeWhile_append (Text.after?_eq_some_iff.1 hbehind)
  obtain ⟨second, rest, hrest, hsecond, hletter⟩ := exists_eq_takeWhile_append hne.2
  rw [hsecond] at hne ⊢
  refine ⟨rest, ?_, ?_, ⟨hne.1.1, List.all_eq_true.1 List.all_takeWhile⟩, hne.1.2, hletter⟩
  · conv_lhs => rw [hs, hfirst, hrest]
    simp [Pair.writeWith]
  · cases s.head? == some '!' <;> simp [Pair.writeWith] <;> omega

/-- Two words in braces stop at an opening brace. -/
theorem stopsAt_pairForm (hbang : letter '!' = false) (hopen : letter '\x7b' = false)
    (hclose : letter '\x7d' = false) (hbetween : ∀ c t, between = c :: t → letter c = false)
    (hne : between ≠ []) (hbrace : '\x7b' ∉ between) :
    Text.StopsAt (pairForm letter between) '\x7b' := by
  intro s p size h
  obtain ⟨rest, rfl, rfl, hfirst, hsecond⟩ := writeWith_of_pairForm h
  refine ⟨'\x7b', (p.writeWith between).tail, rest, rfl, rfl, fun hmem => ?_, fun t => ?_⟩
  · have hfirst : '\x7b' ∉ p.first := notMem_of_class hfirst.2 hopen
    have hsecond : '\x7b' ∉ p.second := notMem_of_class hsecond.2 hopen
    simp [Pair.writeWith, List.mem_ite_nil_right, hbrace, hfirst, hsecond] at hmem
  · exact pairForm_writeWith t hfirst hsecond hbang hclose hbetween hne

/-- Two nonempty words of basic letters. -/
structure Pair.IsBasic (p : Pair) : Prop where
  /-- the first word -/
  first : p.first ≠ [] ∧ ∀ c ∈ p.first, isBasicLetter c
  /-- the second word -/
  second : p.second ≠ [] ∧ ∀ c ∈ p.second, isBasicLetter c

/-- The text between the braces of two words. -/
def Pair.inside (between : Text) (p : Pair) : Text :=
  (if p.raw then ['!'] else []) ++ p.first ++ between ++ p.second

/-- Two words in braces with a text behind them. -/
theorem Pair.writeWith_append (between : Text) (p : Pair) (rest : Text) :
    p.writeWith between ++ rest = '\x7b' :: (p.inside between ++ '\x7d' :: rest) := by
  simp [Pair.writeWith, Pair.inside]

/-- Two words with a colon between them, and a text behind. -/
theorem Pair.write_append (p : Pair) (rest : Text) :
    p.write ++ rest = '\x7b' :: (p.inside [':'] ++ '\x7d' :: rest) :=
  Pair.writeWith_append [':'] p rest

/-- Two words in braces have few characters besides letters between the braces. -/
theorem Pair.IsBasic.notMem_inside (hp : p.IsBasic) {c : Char} (hletter : isBasicLetter c = false)
    (hbetween : c ∉ between) (hbang : c ≠ '!') : c ∉ p.inside between := by
  have hfirst : c ∉ p.first := notMem_of_class hp.first.2 hletter
  have hsecond : c ∉ p.second := notMem_of_class hp.second.2 hletter
  simp [Pair.inside, List.mem_ite_nil_right, hbetween, hbang, hfirst, hsecond]

/-- What stands up to the first closing brace is all that is between the braces of two words. -/
theorem inside_of_pairForm {word rest : Text} {size : Nat} (hclose : letter '\x7d' = false)
    (hbetween : '\x7d' ∉ between) (hword : '\x7d' ∉ word)
    (h : pairForm letter between ('\x7b' :: (word ++ '\x7d' :: rest)) = some (p, size)) :
    word = p.inside between := by
  obtain ⟨behind, heq, -, hfirst, hsecond⟩ := writeWith_of_pairForm h
  rw [Pair.writeWith_append] at heq
  have hinside : '\x7d' ∉ p.inside between := by
    have hfirst : '\x7d' ∉ p.first := notMem_of_class hfirst.2 hclose
    have hsecond : '\x7d' ∉ p.second := notMem_of_class hsecond.2 hclose
    simp [Pair.inside, List.mem_ite_nil_right, hbetween, hfirst, hsecond]
  exact (append_cons_inj_of_notMem hword hinside (List.cons.inj heq).2).1

/-- A single word in braces is no two words. -/
theorem pairForm_word {word : Text} {b : Char} (rest : Text) (hclose : letter '\x7d' = false)
    (hbetween : '\x7d' ∉ between) (hb : b ∈ between) (hword : '\x7d' ∉ word) (hnone : b ∉ word) :
    pairForm letter between ('\x7b' :: (word ++ '\x7d' :: rest)) = none := by
  rw [Option.eq_none_iff_forall_ne_some]
  rintro ⟨p, size⟩ h
  obtain rfl := inside_of_pairForm hclose hbetween hword h
  exact hnone (by simp [Pair.inside, hb])

/-- Whether a character may stand within a span. -/
def isInSpan (c : Char) : Bool := c != '>' && c != '\n'

/-- Letters and a few other characters may stand within a span, and do not begin one. -/
theorem isInSpan_of_isBasicLetter {c : Char}
    (h : isBasicLetter c ∨ c ∈ ['\x7b', '!', ':', '\x7d']) : c ≠ '<' ∧ isInSpan c := by
  have hne : ∀ d, isBasicLetter d = false ∧ d ∉ ['\x7b', '!', ':', '\x7d'] → c ≠ d := by
    rintro d ⟨hd, hmark⟩ rfl
    rw [hd] at h
    exact hmark (h.resolve_left Bool.false_ne_true)
  simp only [isInSpan, Bool.and_eq_true, bne_iff_ne]
  exact ⟨hne _ (by decide), hne _ (by decide), hne _ (by decide)⟩

/-- Two words in braces may stand within a span. -/
theorem Pair.IsBasic.isInSpan_write (hp : p.IsBasic) : ∀ c ∈ p.write, c ≠ '<' ∧ isInSpan c := by
  intro c hc
  refine isInSpan_of_isBasicLetter ?_
  have hc : c ∈ p.writeWith [':'] := hc
  rcases Pair.mem_writeWith.1 hc with rfl | ⟨-, rfl⟩ | hc | hc | hc | rfl
  · simp
  · simp
  · exact .inl (hp.first.2 c hc)
  · simp [List.mem_singleton.1 hc]
  · exact .inl (hp.second.2 c hc)
  · simp

/-! ### Stages that look for braces -/

section Kept

variable {β : Type} {form : Form β} (hstops : Text.StopsAt form '\x7b')
  (hform : ∀ c rest, c ≠ '\x7b' → form (c :: rest) = none) {word : Text}
include hform

/-- Where there are no braces, none of the constructs is found. -/
theorem pieces_of_notMem (hword : '\x7b' ∉ word) (rest : Text) :
    Text.pieces form (word ++ rest) = word.map .plain ++ Text.pieces form rest := by
  refine Text.pieces_plain rest fun c hc rest => hform c rest ?_
  rintro rfl
  exact hword hc

/-- A text without braces is written as it was. -/
theorem rewrite_of_notMem (put : β → Text) (hword : '\x7b' ∉ word) :
    Text.rewrite form put word = word := by
  refine Text.rewrite_eq_self put fun c hc rest => hform c rest ?_
  rintro rfl
  exact hword hc

include hstops

/-- What is in braces stays as it is, if it is not recognised. -/
theorem pieces_kept (before : Text) {behind : Text} (hword : '\x7b' ∉ word)
    (hnone : form ('\x7b' :: (word ++ '\x7d' :: behind)) = none) :
    Text.pieces form (before ++ '\x7b' :: (word ++ '\x7d' :: behind)) = Text.pieces form before ++
      .plain '\x7b' :: (word.map .plain ++ .plain '\x7d' :: Text.pieces form behind) := by
  rw [Text.pieces_append_of_stopsAt hstops, Text.pieces_cons hnone, pieces_of_notMem hform hword,
    Text.pieces_cons (hform _ _ (by decide))]

/-- What is in braces is written as it was, if it is not recognised. -/
theorem rewrite_kept (put : β → Text) (before : Text) {behind : Text} (hword : '\x7b' ∉ word)
    (hnone : form ('\x7b' :: (word ++ '\x7d' :: behind)) = none) :
    Text.rewrite form put (before ++ '\x7b' :: (word ++ '\x7d' :: behind)) =
      Text.rewrite form put before ++ '\x7b' :: (word ++ '\x7d' :: Text.rewrite form put behind) := by
  have hplain := Text.render_plain put word
  rw [Text.rewrite, pieces_kept hstops hform before hword hnone, Text.render_append]
  simp only [Text.rewrite, Text.render, List.flatMap_cons, List.flatMap_append] at hplain ⊢
  rw [hplain]
  rfl

end Kept

/-! ### The stages -/

/-- An optional character stops at braces. -/
theorem stopsAt_optionalForm {c : Char} (hc : c ∈ ['\x7b', '\x7d']) : Text.StopsAt optionalForm c := by
  intro s m size h
  unfold optionalForm at h
  split at h
  case h_2 => cases h
  rename_i d rest
  obtain ⟨hd, h⟩ := Option.ite_none_right_eq_some.1 h
  obtain ⟨rfl, rfl⟩ := Prod.mk.inj (Option.some.inj h)
  refine ⟨'[', [d, ']'], rest, rfl, rfl, fun hmem => ?_, fun t => if_pos hd⟩
  simp only [List.mem_cons, List.not_mem_nil, or_false] at hc hmem
  rcases hmem with rfl | rfl
  · rcases hc with rfl | rfl <;> exact absurd hd (by decide)
  · rcases hc with hc | hc <;> exact absurd hc (by decide)

/-- Braces are kept by the preparation of a source, and what is between them is prepared by itself. -/
theorem prepare_braces (before body behind : Text) :
    prepare (before ++ '\x7b' :: (body ++ '\x7d' :: behind)) =
      prepare before ++ '\x7b' :: (prepare body ++ '\x7d' :: prepare behind) := by
  have hscript : entryScript = 'i' :: "ndex.php".toList := rfl
  simp only [prepare, escapeSigns, hscript]
  rw [Text.replaceAll_braces _ (by decide) (by decide), Text.replaceAll_braces _ (by decide) (by decide),
    Text.replaceAll_braces _ (by decide) (by decide), Text.replaceAll_braces _ (by decide) (by decide),
    Text.replaceAll_braces _ (by decide) (by decide)]
  refine Text.rewrite_braces (fun c hc => stopsAt_optionalForm hc) (fun c hc rest => ?_) _ _ _
  refine optionalForm_cons ?_ rest
  rintro rfl
  exact absurd hc (by decide)

/-- A text is prepared sign by sign, if it has no backslashes, full stops or optional characters. -/
theorem prepare_eq {s : Text} (hback : '\\' ∉ s) (hdot : '.' ∉ s) (hbracket : '[' ∉ s)
    (hmark : ¬ ['/', '?'] <:+: s) : prepare s = s.flatMap escapeSign := by
  have hescaped : ∀ {c}, c ≠ '\\' → c ∉ s → c ∉ s.flatMap escapeSign := by
    intro c hc hs hmem
    obtain ⟨d, hd, hcd⟩ := List.mem_flatMap.1 hmem
    rcases Item.mem_escapeSign hcd with rfl | rfl
    · exact hc rfl
    · exact hs hd
  rw [prepare, escapeSigns_eq hback hmark, Text.replaceAll_of_notMem markedEntry (a := '.') (by decide)
    (hescaped (by decide) hdot)]
  refine Text.rewrite_eq_self id fun c hc rest => optionalForm_cons ?_ rest
  rintro rfl
  exact hescaped (by decide) hbracket hc

/-- The preparation escapes the colon between two words. -/
theorem Pair.IsBasic.prepare_inside (hp : p.IsBasic) :
    prepare (p.inside [':']) = p.inside ['\\', ':'] := by
  have hnone : ∀ {c}, isBasicLetter c = false → c ∉ [':'] → c ≠ '!' → c ∉ p.inside [':'] :=
    hp.notMem_inside
  rw [prepare_eq (hnone (by decide) (by decide) (by decide)) (hnone (by decide) (by decide) (by decide))
    (hnone (by decide) (by decide) (by decide)) fun h =>
      hnone (by decide) (by decide) (by decide) (h.subset List.mem_cons_self)]
  simp only [Pair.inside, List.flatMap_append, Source.flatMap_escapeSign_of_letters hp.first.2,
    Source.flatMap_escapeSign_of_letters hp.second.2]
  cases p.raw <;> rfl

/-- Two words in braces keep their place when signs are escaped. -/
theorem prepare_around (hp : p.IsBasic) (before behind : Text) :
    prepare (before ++ (p.write ++ behind)) =
      prepare before ++ (p.writeWith ['\\', ':'] ++ prepare behind) := by
  rw [Pair.write_append, prepare_braces, hp.prepare_inside, Pair.writeWith_append]

/-- Two words with an escaped colon between them stop at an opening brace. -/
theorem stopsAt_escapedPair : Text.StopsAt (pairForm isBasicLetter ['\\', ':']) '\x7b' := by
  refine stopsAt_pairForm (by decide) (by decide) (by decide) ?_ (by decide) (by decide)
  rintro c t ⟨⟩
  decide

/-- Two small words with a colon between them stop at an opening brace. -/
theorem stopsAt_smallPair : Text.StopsAt (pairForm isSmall [':']) '\x7b' := by
  refine stopsAt_pairForm (by decide) (by decide) (by decide) ?_ (by decide) (by decide)
  rintro c t ⟨⟩
  decide

/-- Two words in braces keep their place when colons are set free. -/
theorem freeColons_around (hp : p.IsBasic) (before behind : Text) :
    freeColons (before ++ (p.writeWith ['\\', ':'] ++ behind)) =
      freeColons before ++ (p.write ++ freeColons behind) := by
  have hbetween : ∀ c t, ['\\', ':'] = c :: t → isBasicLetter c = false := by
    rintro c t ⟨⟩
    decide
  have hform := pairForm_writeWith behind hp.first hp.second (by decide) (by decide) hbetween
    (by decide)
  exact Text.rewrite_found stopsAt_escapedPair before rfl hform

/-! ### Spans -/

/-- The span at the front of a text is looked for by its characters. -/
theorem spanForm_eq (body rest : Text) (h : ∀ c ∈ body, isInSpan c)
    (hrest : ∀ c, rest.head? = some c → isInSpan c = false) : spanForm ('<' :: (body ++ rest)) =
      if rest.head? == some '>' then some (body, body.length + 2) else none := by
  have htake : (body ++ rest).takeWhile isInSpan = body := takeWhile_append_of_head h hrest
  have htake : (body ++ rest).takeWhile (fun c => c != '>' && c != '\n') = body := htake
  simp only [spanForm, htake, List.drop_left]

/-- A span that is closed becomes a group. -/
theorem expandSpans_closed {body : Text} (h : ∀ c ∈ body, isInSpan c) (rest : Text) :
    expandSpans ('<' :: (body ++ '>' :: rest)) =
      "(?:".toList ++ (body ++ ')' :: expandSpans rest) := by
  have hform : spanForm (('<' :: (body ++ ['>'])) ++ rest) =
      some (body, ('<' :: (body ++ ['>'])).length) := by
    have hspan := spanForm_eq body ('>' :: rest) h (by rintro c ⟨⟩; rfl)
    simpa using hspan
  have hrewrite := Text.rewrite_append (fun body => "(?:".toList ++ body ++ [')'])
    (List.cons_ne_nil '<' _) hform
  simpa [expandSpans] using hrewrite

/-- An angle bracket whose span is ended by the line, or by the text, is kept. -/
theorem expandSpans_open {body rest : Text} (h : ∀ c ∈ body, isInSpan c)
    (hrest : ∀ c, rest.head? = some c → c = '\n') :
    expandSpans ('<' :: (body ++ rest)) = '<' :: expandSpans (body ++ rest) := by
  refine Text.rewrite_cons _ ?_
  rw [spanForm_eq body rest h fun c hc => by rw [hrest c hc]; rfl, if_neg]
  rw [beq_iff_eq]
  intro hhead
  exact absurd (hrest _ hhead) (by decide)

/-- Behind the leading characters of a text that may stand within a span there is a closing angle
bracket, or the line ends. -/
theorem exists_inSpan (s : Text) : ∃ body rest, s = body ++ rest ∧ (∀ c ∈ body, isInSpan c) ∧
    ((∃ tail, rest = '>' :: tail) ∨ ∀ c, rest.head? = some c → c = '\n') := by
  refine ⟨s.takeWhile isInSpan, s.dropWhile isInSpan, List.takeWhile_append_dropWhile.symm,
    List.all_eq_true.1 List.all_takeWhile, ?_⟩
  have hhead := List.head?_dropWhile_not isInSpan s
  cases hrest : s.dropWhile isInSpan with
  | nil => exact .inr nofun
  | cons c tail =>
    rw [hrest] at hhead
    simp only [List.head?_cons, isInSpan, Bool.and_eq_false_iff, bne_eq_false_iff_eq] at hhead
    rcases hhead with rfl | rfl
    · exact .inl ⟨tail, rfl⟩
    · refine .inr ?_
      rintro c ⟨⟩
      rfl

/-- A word within a line that has no angle brackets is left where it stands when spans are expanded, and
what becomes of the text around it does not depend on it. -/
theorem expandSpans_around (before behind : Text) : ∃ front back, ∀ word : Text,
    (∀ c ∈ word, c ≠ '<' ∧ isInSpan c) →
      expandSpans (before ++ (word ++ behind)) = front ++ (word ++ back) := by
  induction hlen : before.length using Nat.strongRecOn generalizing before with
  | _ len ih =>
    subst hlen
    cases before with
    | nil =>
      refine ⟨[], expandSpans behind, fun word hword => ?_⟩
      exact Text.rewrite_plain _ behind fun c hc rest => spanForm_cons (hword c hc).1 rest
    | cons a before =>
      obtain ⟨front, back, haround⟩ := ih before.length (Nat.lt_succ_self _) before rfl
      -- a character that begins no span is kept
      have kept (hkept : ∀ word : Text, (∀ c ∈ word, c ≠ '<' ∧ isInSpan c) →
          expandSpans (a :: (before ++ (word ++ behind))) =
            a :: expandSpans (before ++ (word ++ behind))) :
          ∃ front back, ∀ word : Text, (∀ c ∈ word, c ≠ '<' ∧ isInSpan c) →
            expandSpans (a :: before ++ (word ++ behind)) = front ++ (word ++ back) :=
        ⟨a :: front, back, fun word hword => by
          rw [List.cons_append, hkept word hword, haround word hword]
          rfl⟩
      by_cases ha : a = '<'
      case neg => exact kept fun word _ => Text.rewrite_cons _ (spanForm_cons ha _)
      subst ha
      obtain ⟨body, rest, rfl, hbody, ⟨tail, rfl⟩ | hrest⟩ := exists_inSpan before
      · -- the span is closed in front of the word
        have hshort : tail.length < ('<' :: (body ++ '>' :: tail)).length := by
          simp only [List.length_cons, List.length_append]
          omega
        obtain ⟨front, back, haround⟩ := ih tail.length hshort tail rfl
        refine ⟨"(?:".toList ++ (body ++ ')' :: front), back, fun word hword => ?_⟩
        have hspan := expandSpans_closed hbody (tail ++ (word ++ behind))
        rw [haround word hword] at hspan
        simpa using hspan
      cases rest with
      | cons c rest =>
        -- the line ends in front of the word
        obtain rfl := hrest c rfl
        refine kept fun word _ => ?_
        rw [List.append_assoc]
        exact expandSpans_open hbody (by rintro c ⟨⟩; rfl)
      | nil =>
        rw [List.append_nil] at kept ⊢
        obtain ⟨more, rest, rfl, hmore, hrest⟩ := exists_inSpan behind
        have hwhole : ∀ {word : Text}, (∀ c ∈ word, c ≠ '<' ∧ isInSpan c) →
            ∀ c ∈ body ++ (word ++ more), isInSpan c := by
          intro word hword c hc
          rcases List.mem_append.1 hc with hc | hc
          · exact hbody c hc
          · exact (List.mem_append.1 hc).elim (fun hc => (hword c hc).2) (hmore c)
        rcases hrest with ⟨tail, rfl⟩ | hrest
        · -- the word stands within the span
          refine ⟨"(?:".toList ++ body, more ++ ')' :: expandSpans tail, fun word hword => ?_⟩
          simpa using expandSpans_closed (hwhole hword) tail
        · exact kept fun word hword => by simpa using expandSpans_open (hwhole hword) hrest

end Wildcard

end Detour
