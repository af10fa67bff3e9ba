import Detour.Proofs.Language
import Detour.Proofs.Source
import Detour.Rewrite.Template

/-!
# How mapping references are recognised

A mapping reference `{name|collection}` or `({name}|collection)` stands for the value that a
collection has for a captured value. The first step of an expansion writes all of them in braces, and
each wildcard then finds the references that it is named in.

* `Reference.bracketedForm_write` and `Reference.unbracket_write`: the two ways of writing one.
* `Reference.mappingForm_braced`: a reference is found by the wildcard that it names and by no other
  that can be told apart from it, as all wildcards of compiled sources can.
* `Reference.startsWith_placeholder_braced`: a reference is no placeholder.
-/

namespace Detour

open Template Wildcard

/-! ### Texts in which nothing begins -/

/-- The brackets that constructs are written with. -/
def isBracket (c : Char) : Bool := ['(', ')', '[', ']', '\x7b', '\x7d'].contains c

/-- Control characters. -/
def isControl (c : Char) : Bool := c.toNat < 32 || (127 ≤ c.toNat && c.toNat < 160)

/-- Whether a character is neither a bracket nor a control character. -/
def isOrdinary (c : Char) : Bool := !isBracket c && !isControl c

/-- A text without brackets and control characters. -/
def Ordinary (s : Text) : Prop := ∀ c ∈ s, isOrdinary c

instance (s : Text) : Decidable (Ordinary s) := decidable_of_iff (s.all isOrdinary) List.all_eq_true

/-- An ordinary character is none that is not ordinary. -/
theorem ne_of_isOrdinary {a c : Char} (ha : isOrdinary a = false) (hc : isOrdinary c) : c ≠ a := by
  rintro rfl
  rw [ha] at hc
  exact absurd hc (by simp)

/-- Small letters are ordinary. -/
theorem isOrdinary_of_isSmall {c : Char} (h : isSmall c) : isOrdinary c := by
  simp only [isSmall, Bool.and_eq_true, decide_eq_true_eq, Char.le_def, UInt32.le_iff_toNat_le] at h
  have hlo : 97 ≤ c.toNat := h.1
  have hhi : c.toNat ≤ 122 := h.2
  have hcontrol : isControl c = false := by
    simp only [isControl, Bool.or_eq_false_iff, Bool.and_eq_false_iff, decide_eq_false_iff_not]
    omega
  have hbracket : isBracket c = false := by
    rw [isBracket, List.contains_eq_mem, decide_eq_false_iff_not]
    simp only [List.mem_cons, List.not_mem_nil, or_false]
    rintro (rfl | rfl | rfl | rfl | rfl | rfl) <;> exact absurd h (by decide)
  rw [isOrdinary, hbracket, hcontrol]
  rfl

namespace Text

variable {β γ : Type}

/-- What is left when characters are taken off the end is a beginning of the text. -/
theorem isPrefix_trimEnd (p : Char → Bool) (s : Text) : trimEnd p s <+: s := by
  rw [← List.reverse_suffix, trimEnd, List.reverse_reverse]
  exact List.dropWhile_suffix p

/-- A construct that does not begin at the first character of a text and at no later one is not
found. -/
theorem pieces_lead {form : Form β} {a : Char} {lead : Text} (rest : Text)
    (ha : form (a :: (lead ++ rest)) = none) (h : ∀ c ∈ lead, ∀ t, form (c :: t) = none) :
    pieces form (a :: lead ++ rest) = (a :: lead).map .plain ++ pieces form rest := by
  rw [List.cons_append, pieces_cons ha, pieces_plain rest h]
  rfl

/-- A leading part in which a word cannot begin is kept. -/
theorem replaceAll_lead {a : Char} {word : Text} (new : Text) {lead : Text} (s : Text)
    (h : a ∉ lead) :
    replaceAll (a :: word) new (lead ++ s) = lead ++ replaceAll (a :: word) new s := by
  rw [replaceAll_eq_rewrite, replaceAll_eq_rewrite]
  refine rewrite_plain _ s fun c hc rest => ?_
  have hne : a ≠ c := fun hac => h (hac ▸ hc)
  rw [wordForm, startsWith_cons_of_ne word rest hne]
  rfl

/-- What goes over a text from the front goes over written pieces one by one. -/
theorem render_of_append {f : Text → List γ} {write : β → Text} {ps : List (Piece β)}
    {image : Piece β → List γ} (hnil : f [] = [])
    (hplain : ∀ c, .plain c ∈ ps → ∀ rest, f (c :: rest) = image (.plain c) ++ f rest)
    (hhit : ∀ m, .hit m ∈ ps → ∀ rest, f (write m ++ rest) = image (.hit m) ++ f rest) :
    f (render write ps) = ps.flatMap image := by
  refine flatMap_of_append hnil fun p hp rest => ?_
  cases p with
  | plain c => exact hplain c hp rest
  | hit m => exact hhit m hp rest

/-- What goes over a text from the front and keeps plain characters rewrites the constructs. -/
theorem render_of_render {f : Text → Text} {write image : β → Text} {ps : List (Piece β)}
    (hnil : f [] = []) (hplain : ∀ c, .plain c ∈ ps → ∀ rest, f (c :: rest) = c :: f rest)
    (hhit : ∀ m, .hit m ∈ ps → ∀ rest, f (write m ++ rest) = image m ++ f rest) :
    f (render write ps) = render image ps := by
  refine flatMap_of_append hnil fun p hp rest => ?_
  cases p with
  | plain c => exact hplain c hp rest
  | hit m => exact hhit m hp rest

/-- A plain character in front is written as it is. -/
@[simp] theorem render_cons_plain (write : β → Text) (c : Char) (ps : List (Piece β)) :
    render write (.plain c :: ps) = c :: render write ps := rfl

/-- A construct in front is written before the others. -/
@[simp] theorem render_cons_hit (write : β → Text) (m : β) (ps : List (Piece β)) :
    render write (.hit m :: ps) = write m ++ render write ps := rfl

/-- A plain character is no construct. -/
@[simp] theorem hits_cons_plain (c : Char) (ps : List (Piece β)) :
    hits (.plain c :: ps) = hits ps := rfl

/-- A construct in front is the first one. -/
@[simp] theorem hits_cons_hit (m : β) (ps : List (Piece β)) :
    hits (.hit m :: ps) = m :: hits ps := rfl

/-- A construct that is found is recognised somewhere in the text. -/
theorem exists_form_of_mem_hits {form : Form β} {m : β} {s : Text}
    (h : m ∈ hits (pieces form s)) : ∃ t size, t <:+ s ∧ form t = some (m, size) := by
  have hfrom : ∀ (s : Text) (skip : Nat), m ∈ hits (piecesFrom form skip s) →
      ∃ t size, t <:+ s ∧ form t = some (m, size) := by
    intro s
    induction s with
    | nil => intro skip h; cases skip <;> exact absurd h (by simp [piecesFrom, hits])
    | cons c s ih =>
      have hbehind : ∀ skip, m ∈ hits (piecesFrom form skip s) →
          ∃ t size, t <:+ c :: s ∧ form t = some (m, size) := by
        intro skip h
        obtain ⟨t, size, ht, hform⟩ := ih skip h
        exact ⟨t, size, ht.trans (List.suffix_cons c s), hform⟩
      intro skip h
      cases skip with
      | succ skip => exact hbehind skip h
      | zero =>
        simp only [piecesFrom] at h
        split at h
        · rename_i meaning size hform
          rw [hits_cons_hit, List.mem_cons] at h
          rcases h with rfl | h
          · exact ⟨_, _, List.suffix_rfl, hform⟩
          · exact hbehind _ h
        · exact hbehind 0 h
  exact hfrom s 0 h

end Text

/-- Only the bar itself folds to the bar. -/
theorem eq_bar_of_fold {c : Char} (h : fold c = '|') : c = '|' := by
  rcases fold_eq_or c with hc | ⟨r, hr, hn, hc⟩
  · rw [← hc, h]
  · have hall : foldRuns.all (fun r => decide (124 < r.first + r.shift) ||
        decide (r.last + r.shift < 124)) = true := by decide +kernel
    have hbounds := CaseRun.bounds_of_has hn
    have hmoved := toNat_ofNat (c.toNat + r.shift).toNat
    rw [← hc, h] at hmoved
    have := List.all_eq_true.1 hall r hr
    simp only [Bool.or_eq_true, decide_eq_true_eq] at this
    have hbar : '|'.toNat = 124 := rfl
    omega

namespace Template

/-- The rest behind a word is what follows a text that is the same up to letter case. -/
theorem afterFolded?_eq_some_iff {word s rest : Text} :
    afterFolded? word s = some rest ↔ ∃ lead, s = lead ++ rest ∧ Alike word lead := by
  induction word generalizing s with
  | nil => simp [afterFolded?, Alike, eq_comm]
  | cons a word ih =>
    cases s with
    | nil => simp [afterFolded?, Alike]
    | cons c s =>
      simp only [afterFolded?, sameLetter, beq_iff_eq]
      split
      · rename_i hfold
        rw [ih]
        refine ⟨?_, ?_⟩
        · rintro ⟨lead, rfl, h⟩
          exact ⟨c :: lead, rfl, congrArg₂ List.cons hfold h⟩
        · rintro ⟨lead, hs, h⟩
          cases lead with
          | nil => exact absurd h (by simp [Alike])
          | cons d lead =>
            exact ⟨lead, (List.cons.inj hs).2, (List.cons.inj h).2⟩
      · rename_i hfold
        refine ⟨fun h => absurd h (by simp), ?_⟩
        rintro ⟨lead, hs, h⟩
        cases lead with
        | nil => exact absurd h (by simp [Alike])
        | cons d lead =>
          obtain ⟨rfl, _⟩ := List.cons.inj hs
          exact absurd (List.cons.inj h).1 hfold

/-- A slot is made of its sign and of digits. -/
theorem mem_slot {n : Nat} {c : Char} (h : c ∈ slot n) : c = '\x01' ∨ c.isDigit := by
  simp only [slot, List.mem_append, List.mem_singleton] at h
  rcases h with (h | h) | h
  · exact .inl h
  · exact .inr (Nat.isDigit_of_mem_toDigits (by decide) (by decide) h)
  · exact .inl h

/-- Other characters are not in a slot. -/
theorem notMem_slot {n : Nat} {c : Char} (hsign : c ≠ '\x01') (hc : c.isDigit = false) : c ∉ slot n := by
  intro h
  rcases mem_slot h with h | h
  · exact hsign h
  · rw [hc] at h
    exact absurd h (by simp)

/-- A reference in round brackets begins with one. -/
theorem bracketedForm_cons {c : Char} (h : c ≠ '(') (rest : Text) :
    bracketedForm (c :: rest) = none := by
  unfold bracketedForm
  split
  · rename_i heq
    exact absurd (List.cons.inj heq).1 h
  · rfl

/-- A mapping reference begins with a brace. -/
theorem mappingForm_cons {name : Text} {c : Char} (h : c ≠ '\x7b') (rest : Text) :
    mappingForm name (c :: rest) = none := by
  unfold mappingForm
  split
  · rename_i heq
    exact absurd (List.cons.inj heq).1 h
  · rfl

/-- A marker begins with a round bracket. -/
theorem markerForm_cons {c : Char} (h : c ≠ '(') (rest : Text) :
    Collections.markerForm (c :: rest) = none := by
  unfold Collections.markerForm
  split
  · rename_i heq
    exact absurd (List.cons.inj heq).1 h
  · rfl

/-- A selector begins with a square bracket. -/
theorem selectorForm_cons {c : Char} (h : c ≠ '[') (rest : Text) :
    selectorForm (c :: rest) = none := by
  unfold selectorForm
  split
  · rename_i heq
    exact absurd (List.cons.inj heq).1 h
  · rfl

end Template

/-! ### References -/

/-- A mapping reference. -/
structure Reference where
  /-- the name of the wildcard whose value is looked up -/
  name : Text
  /-- the name of the collection -/
  collection : Text
  /-- whether it is written in round brackets -/
  bracketed : Bool
deriving Repr, DecidableEq

namespace Reference

variable {r : Reference}

/-- Both names are nonempty words of small letters. -/
structure IsWritable (r : Reference) : Prop where
  /-- the name of the wildcard -/
  name : r.name ≠ [] ∧ ∀ c ∈ r.name, isSmall c
  /-- the name of the collection -/
  collection : r.collection ≠ [] ∧ ∀ c ∈ r.collection, isSmall c

/-- A reference in braces. -/
def braced (r : Reference) : Text := '\x7b' :: (r.name ++ '|' :: (r.collection ++ ['\x7d']))

/-- How a reference is written. -/
def write (r : Reference) : Text :=
  if r.bracketed then '(' :: '\x7b' :: (r.name ++ '\x7d' :: '|' :: (r.collection ++ [')']))
  else r.braced

/-- The characters behind the opening brace of a reference. -/
theorem mem_tail_braced (hr : r.IsWritable) {c : Char} (h : c ∈ r.braced.tail) :
    c = '|' ∨ c = '\x7d' ∨ isSmall c := by
  rw [braced, List.tail_cons] at h
  simp only [List.mem_cons, List.mem_append, List.not_mem_nil, or_false] at h
  rcases h with h | h | h | h
  · exact .inr (.inr (hr.name.2 c h))
  · exact .inl h
  · exact .inr (.inr (hr.collection.2 c h))
  · exact .inr (.inl h)

/-- Other characters are not in a reference in braces. -/
theorem notMem_braced (hr : r.IsWritable) {c : Char} (hsmall : isSmall c = false)
    (hsigns : c ∉ ['\x7b', '|', '\x7d']) : c ∉ r.braced := by
  intro h
  rcases List.mem_cons.1 (show c ∈ '\x7b' :: r.braced.tail from h) with rfl | h
  · exact hsigns (by simp)
  · rcases mem_tail_braced hr h with rfl | rfl | h
    · exact hsigns (by simp)
    · exact hsigns (by simp)
    · rw [hsmall] at h
      exact absurd h (by simp)

/-- A reference in round brackets is recognised and read as one in braces. -/
theorem bracketedForm_write (hr : r.IsWritable) (hb : r.bracketed) (rest : Text) :
    bracketedForm (r.write ++ rest) = some (r.braced, r.write.length) := by
  obtain ⟨f, fs, hname⟩ := List.exists_cons_of_ne_nil hr.name.1
  have hf : f ≠ '!' := by
    rintro rfl
    exact absurd (hr.name.2 '!' (by rw [hname]; exact List.mem_cons_self)) (by decide)
  have hletters : ∀ {w : Text}, (∀ c ∈ w, isSmall c) → ∀ {a : Char} {t : Text},
      isBasicLetter a = false → (w ++ a :: t).takeWhile isBasicLetter = w := by
    intro w hw a t ha
    refine takeWhile_append_of_head (fun c hc => isBasicLetter_of_isSmall (hw c hc)) fun c hc => ?_
    rw [← Option.some.inj hc, ha]
  have htake := hletters hr.name.2 (a := '\x7d') (t := '|' :: (r.collection ++ ')' :: rest))
    (by decide)
  have htake' := hletters hr.collection.2 (a := ')') (t := rest) (by decide)
  have hwrite : r.write ++ rest =
      '(' :: '\x7b' :: (r.name ++ '\x7d' :: '|' :: (r.collection ++ ')' :: rest)) := by
    simp [write, hb]
  have hraw : ((r.name ++ '\x7d' :: '|' :: (r.collection ++ ')' :: rest)).head? == some '!') =
      false := by
    simp [hname, hf]
  have hcollection : r.collection.isEmpty = false := by simpa using hr.collection.1
  have hempty : r.name.isEmpty = false := by simpa using hr.name.1
  rw [hwrite]
  simp only [bracketedForm, hraw, Bool.false_eq_true, if_false, htake, List.drop_left, htake',
    hcollection, hempty, List.head?_cons, Bool.or_false, bne_self_eq_false]
  simp [write, hb, braced]
  omega

/-- Bringing references into one form goes on behind a reference. -/
theorem unbracket_write (hr : r.IsWritable) (rest : Text) :
    unbracket (r.write ++ rest) = r.braced ++ unbracket rest := by
  by_cases hb : r.bracketed
  · have hne : r.write ≠ [] := by simp [write, hb]
    exact Text.rewrite_append id hne (bracketedForm_write hr hb rest)
  · have hwrite : r.write = r.braced := by rw [write, if_neg hb]
    rw [hwrite]
    refine Text.rewrite_plain id rest fun c hc t => bracketedForm_cons ?_ t
    rintro rfl
    exact notMem_braced hr (by decide) (by decide) hc

/-- The name of a wildcard is told apart from that of a reference: no sign in it ends it too early,
and letter case is not all that parts them. -/
def Tells (r : Reference) (w : Wildcard) : Prop :=
  '|' ∉ w.name ∧ (Alike w.name r.name → w.name = r.name)

/-- A reference is recognised exactly by the wildcard that it names, and read as the name of its
collection. -/
theorem mappingForm_braced (hr : r.IsWritable) {w : Wildcard} (hw : r.Tells w) (rest : Text) :
    mappingForm w.name (r.braced ++ rest) =
      if w.name = r.name then some (r.collection, r.braced.length) else none := by
  have hbraced : r.braced ++ rest =
      '\x7b' :: (r.name ++ '|' :: (r.collection ++ '\x7d' :: rest)) := by
    simp [braced]
  rw [hbraced]
  by_cases hname : w.name = r.name
  · have hafter : afterFolded? w.name (r.name ++ '|' :: (r.collection ++ '\x7d' :: rest)) =
        some ('|' :: (r.collection ++ '\x7d' :: rest)) :=
      afterFolded?_eq_some_iff.2 ⟨r.name, rfl, congrArg (List.map fold) hname⟩
    have htake : (r.collection ++ '\x7d' :: rest).takeWhile isBasicLetter = r.collection := by
      refine takeWhile_append_of_head
        (fun c hc => isBasicLetter_of_isSmall (hr.collection.2 c hc)) fun c hc => ?_
      rw [← Option.some.inj hc]
      decide
    have hcollection : r.collection.isEmpty = false := by simpa using hr.collection.1
    simp only [mappingForm, hafter, htake, hcollection, List.drop_left, List.head?_cons,
      bne_self_eq_false, Bool.or_false, Bool.false_eq_true, if_false, if_pos hname]
    simp [braced, hname]
    omega
  · rw [if_neg hname]
    simp only [mappingForm]
    split
    · rename_i t hafter
      -- the name would end at the bar, and so be that of the reference
      obtain ⟨lead, hlead, halike⟩ := afterFolded?_eq_some_iff.1 hafter
      have hbar : ∀ c ∈ lead, (c == '|') = false := by
        intro c hc
        rw [beq_eq_false_iff_ne]
        rintro rfl
        obtain ⟨a, ha, hfold⟩ := List.mem_map.1 (halike ▸ List.mem_map_of_mem hc)
        exact hw.1 (eq_bar_of_fold hfold ▸ ha)
      have hbar' : ∀ c ∈ r.name, (c == '|') = false := by
        intro c hc
        rw [beq_eq_false_iff_ne]
        rintro rfl
        exact absurd (hr.name.2 _ hc) (by decide)
      obtain ⟨rfl, _⟩ := append_cons_inj_of_class (p := (· == '|')) hbar' hbar rfl rfl hlead
      exact absurd (hw.2 halike) hname
    · rfl

/-- No reference is taken for a placeholder. -/
theorem startsWith_placeholder_braced (hr : r.IsWritable) {w : Wildcard} (hw : r.Tells w)
    (rest : Text) :
    Text.startsWith (['\x7b', '!'] ++ w.name ++ ['\x7d']) (r.braced ++ rest) = false ∧
      Text.startsWith (['\x7b'] ++ w.name ++ ['\x7d']) (r.braced ++ rest) = false := by
  have hbraced : r.braced ++ rest =
      '\x7b' :: (r.name ++ '|' :: (r.collection ++ '\x7d' :: rest)) := by
    simp [braced]
  refine ⟨?_, ?_⟩
  · obtain ⟨f, fs, hname⟩ := List.exists_cons_of_ne_nil hr.name.1
    have hf : f ≠ '!' := by
      rintro rfl
      exact absurd (hr.name.2 '!' (by rw [hname]; exact List.mem_cons_self)) (by decide)
    rw [hbraced, Bool.eq_false_iff, ne_eq, Text.startsWith_iff, hname]
    rintro ⟨t, ht⟩
    have := List.cons.inj (List.cons.inj ht).2
    exact hf this.1.symm
  · rw [hbraced, Bool.eq_false_iff, ne_eq, Text.startsWith_iff]
    rintro ⟨t, ht⟩
    have ht : w.name ++ '\x7d' :: t = r.name ++ '|' :: (r.collection ++ '\x7d' :: rest) := by
      simpa using ht
    rcases List.append_eq_append_iff.1 ht with ⟨more, hmore, hrest⟩ | ⟨more, hmore, hrest⟩
    · cases more with
      | nil => exact absurd (List.cons.inj hrest).1 (by decide)
      | cons c more =>
        obtain ⟨rfl, _⟩ := List.cons.inj hrest
        have hclose : '\x7d' ∈ r.name := by rw [hmore]; simp
        exact absurd (hr.name.2 _ hclose) (by decide)
    · cases more with
      | nil => exact absurd (List.cons.inj hrest).1 (by decide)
      | cons c more =>
        obtain ⟨rfl, _⟩ := List.cons.inj hrest
        exact hw.1 (by rw [hmore]; simp)

end Reference

/-- The first of two words in braces is made of letters. -/
theorem Wildcard.letter_of_pairForm {letter : Char → Bool} {between t : Text} {p : Pair} {size : Nat}
    (h : pairForm letter between t = some (p, size)) : ∀ c ∈ p.first, letter c := by
  unfold pairForm at h
  split at h
  · simp only at h
    split at h
    · exact absurd h (by simp)
    · obtain ⟨_, h⟩ := Option.ite_none_left_eq_some.1 h
      obtain ⟨rfl, _⟩ := Prod.mk.inj (Option.some.inj h)
      exact List.all_eq_true.1 List.all_takeWhile
  · exact absurd h (by simp)

/-- The wildcards of a compiled source have names of small letters. -/
theorem Pattern.isSmall_of_mem_wildcards {source : Text} {w : Wildcard}
    (hw : w ∈ (Pattern.compile source).wildcards) : ∀ c ∈ w.name, isSmall c := by
  simp only [Pattern.compile, Pattern.ofExpanded] at hw
  obtain ⟨t, size, _, hform⟩ := Text.exists_form_of_mem_hits hw
  unfold Wildcard.form at hform
  split at hform
  · rename_i p _ hpair
    obtain ⟨k, _, hk⟩ := Option.map_eq_some_iff.1 hform
    obtain ⟨rfl, _⟩ := Prod.mk.inj hk
    exact letter_of_pairForm hpair
  · exact absurd hform (by simp)

/-- The wildcards of a compiled source are told apart from the name of every reference. -/
theorem Reference.tells_of_mem_wildcards {source : Text} {w : Wildcard} {r : Reference}
    (hr : r.IsWritable) (hw : w ∈ (Pattern.compile source).wildcards) : r.Tells w := by
  have hname := Pattern.isSmall_of_mem_wildcards hw
  have hfold : ∀ {v : Text}, (∀ c ∈ v, isSmall c) → v.map fold = v := fun hv =>
    (List.map_congr_left fun c hc => fold_of_isSmall (hv c hc)).trans (List.map_id' _)
  refine ⟨fun h => absurd (hname _ h) (by decide), fun h => ?_⟩
  rw [Alike, hfold hname, hfold hr.name.2] at h
  exact h

end Detour
