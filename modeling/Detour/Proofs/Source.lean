import Detour.Wildcard.Pattern
import Mathlib.Data.List.Infix

/-!
# How a source is compiled

A *source* is written from signs that mean themselves and from wildcards with their kinds. Each
stage of `Pattern.compile` turns the text of a source into the text of the same items, written
another way:

* `escapeSigns_eq` and `Item.escaped`: a backslash before the signs of an expression;
* `Item.freed`: the colons inside the wildcards without their backslash again, which is also what
  spans, order of words and aliases leave;
* `Item.expression`: the group of its kind for each wildcard.

`Pattern.compile_text` puts the stages together.
-/

namespace Detour

open Wildcard

/-! ### Classes of characters -/

/-- A character outside of a class is in no text of the class. -/
theorem notMem_of_class {p : Char → Bool} {s : Text} {c : Char} (hs : ∀ d ∈ s, p d) (hc : p c = false) :
    c ∉ s := by
  intro h
  rw [hs c h] at hc
  cases hc

/-- A text in which a class of characters goes as far as another text is made up of the two. -/
theorem eq_takeWhile_append {p : Char → Bool} {s rest : Text}
    (h : s.drop (s.takeWhile p).length = rest) : s = s.takeWhile p ++ rest := by
  rw [← h]
  exact List.prefix_append_drop (List.takeWhile_prefix p)

/-- A word and the sign behind it, if a text has them next. -/
theorem exists_eq_takeWhile_append {p : Char → Bool} {s : Text} {c : Char}
    (h : ¬ (s.drop (s.takeWhile p).length).head? != some c) :
    ∃ word rest, s = word ++ c :: rest ∧ s.takeWhile p = word ∧ ∀ d ∈ word, p d := by
  rw [bne_iff_ne, not_not] at h
  obtain ⟨rest, hrest⟩ := List.head?_eq_some_iff.1 h
  exact ⟨s.takeWhile p, rest, eq_takeWhile_append hrest, rfl, List.all_eq_true.1 List.all_takeWhile⟩

/-! ### Sources -/

/-- What a source is made of. -/
inductive Item where
  /-- a character that means itself -/
  | sign (c : Char)
  /-- a wildcard, written with its kind -/
  | wildcard (w : Wildcard)
deriving Repr, DecidableEq

namespace Item

/-- The characters that mean themselves in a source: ASCII letters and digits and a few signs. -/
def isSign (c : Char) : Bool :=
  c.isAlphanum || ['/', '_', '=', '&', ':', '-', '?'].contains c

/-- Whether an item can be written: signs are those that mean themselves, and a name is a nonempty
word of small letters. -/
def IsWritable : Item → Prop
  | sign c => isSign c
  | wildcard w => w.name ≠ [] ∧ ∀ c ∈ w.name, isSmall c

/-- The two words of a wildcard. -/
def pair (w : Wildcard) : Pair := ⟨w.raw, w.name, w.kind.name⟩

/-- How an item is written in a source. -/
def write : Item → Text
  | sign c => [c]
  | wildcard w => (pair w).write

/-- The wildcard of an item that is one. -/
def wildcard? : Item → Option Wildcard
  | sign _ => none
  | wildcard w => some w

end Item

/-- Signs and wildcards in a row, where no question mark stands right behind a slash. -/
structure Source where
  /-- the signs and wildcards -/
  items : List Item
  /-- each of them can be written -/
  writable : ∀ x ∈ items, x.IsWritable
  /-- a question mark behind a slash would make the slash optional -/
  unmarked : ¬ [Item.sign '/', Item.sign '?'] <:+: items

namespace Source

/-- The text of a source. -/
def text (s : Source) : Text := s.items.flatMap Item.write

/-- The wildcards of a source from left to right. -/
def wildcards (s : Source) : List Wildcard := s.items.filterMap Item.wildcard?

end Source

/-! ### Signs -/

/-- A sign with a backslash, if it means something else in an expression. -/
def escapeSign (c : Char) : Text := if ['?', '&', ':'].contains c then ['\\', c] else [c]

/-- Only a slash with a question mark behind it loses a backslash that the escaping wrote. -/
theorem replaceAll_optional {s : Text} (hback : '\\' ∉ s) (hmark : ¬ ['/', '?'] <:+: s) :
    Text.replaceAll ['/', '\\', '?'] ['/', '?'] (Text.replaceAll ['?'] ['\\', '?'] s) =
      Text.replaceAll ['?'] ['\\', '?'] s := by
  rw [Text.replaceAll_singleton]
  induction s with
  | nil => rfl
  | cons c s ih =>
    have ih := ih (fun h => hback (List.mem_cons_of_mem c h))
      fun h => hmark (h.trans (List.suffix_cons c s).isInfix)
    rw [List.flatMap_cons]
    by_cases hc : c = '?'
    · rw [if_pos hc, List.cons_append, List.cons_append, List.nil_append,
        Text.replaceAll_cons _ (Text.startsWith_cons_of_ne _ _ (by decide)),
        Text.replaceAll_cons _ (Text.startsWith_cons_of_ne _ _ (by decide)), ih]
    · rw [if_neg hc, List.singleton_append, Text.replaceAll_cons, ih]
      rw [Bool.eq_false_iff, ne_eq, Text.startsWith_iff, List.cons_prefix_cons]
      rintro ⟨rfl, hnext⟩
      -- a backslash behind the slash was written for a question mark
      cases s with
      | nil => simp at hnext
      | cons d s =>
        rw [List.flatMap_cons] at hnext
        by_cases hd : d = '?'
        · subst hd
          exact hmark (List.prefix_append ['/', '?'] s).isInfix
        · rw [if_neg hd, List.singleton_append, List.cons_prefix_cons] at hnext
          exact hback (by rw [hnext.1]; simp)

/-- Signs are escaped one by one, as long as no slash is made optional. -/
theorem escapeSigns_eq {s : Text} (hback : '\\' ∉ s) (hmark : ¬ ['/', '?'] <:+: s) :
    escapeSigns s = s.flatMap escapeSign := by
  simp only [escapeSigns]
  rw [replaceAll_optional hback hmark]
  simp only [Text.replaceAll_singleton, List.flatMap_assoc]
  refine congrArg s.flatMap (funext fun c => ?_)
  by_cases hq : c = '?'
  · subst hq
    rfl
  by_cases ha : c = '&'
  · subst ha
    rfl
  by_cases hc : c = ':'
  · subst hc
    rfl
  simp [escapeSign, hq, ha, hc]

/-! ### Words in braces -/

/-- A word in braces. -/
def Wildcard.braced (word : Text) : Text := ['\x7b'] ++ word ++ ['\x7d']

/-- A word in braces with a text behind it. -/
theorem Wildcard.braced_append (word rest : Text) :
    braced word ++ rest = '\x7b' :: (word ++ '\x7d' :: rest) := by
  simp [braced]

/-- Two words in braces with another text than a colon between them. -/
def Wildcard.Pair.writeWith (between : Text) (p : Pair) : Text :=
  ['\x7b'] ++ (if p.raw then ['!'] else []) ++ p.first ++ between ++ p.second ++ ['\x7d']

/-- The characters of two words in braces. -/
theorem Wildcard.Pair.mem_writeWith {between : Text} {p : Pair} {c : Char} :
    c ∈ p.writeWith between ↔ c = '\x7b' ∨ (p.raw ∧ c = '!') ∨ c ∈ p.first ∨ c ∈ between ∨
      c ∈ p.second ∨ c = '\x7d' := by
  simp only [writeWith, List.mem_append, List.mem_singleton, List.mem_ite_nil_right, or_assoc]

/-- A text ends where the first character of a class stands, if it has none itself. -/
theorem append_cons_inj_of_class {p : Char → Bool} {v w rest rest' : Text} {c d : Char}
    (hv : ∀ x ∈ v, p x = false) (hw : ∀ x ∈ w, p x = false) (hc : p c) (hd : p d)
    (h : v ++ c :: rest = w ++ d :: rest') : v = w ∧ c :: rest = d :: rest' := by
  have htake : ∀ {u : Text} {b : Char} {s : Text}, (∀ x ∈ u, p x = false) → p b →
      (u ++ b :: s).takeWhile (fun x => !p x) = u := by
    intro u b s hu hb
    refine takeWhile_append_of_head (fun x hx => by rw [hu x hx]; rfl) fun x hx => ?_
    obtain rfl := Option.some.inj hx
    rw [hb]
    rfl
  have hvw : v = w := by
    rw [← htake (s := rest) hv hc, h, htake hw hd]
  subst hvw
  exact ⟨rfl, List.append_cancel_left h⟩

/-- A text ends where a character that it does not have stands first. -/
theorem append_cons_inj_of_notMem {v w rest rest' : Text} {c : Char} (hv : c ∉ v) (hw : c ∉ w)
    (h : v ++ c :: rest = w ++ c :: rest') : v = w ∧ rest = rest' := by
  have hne : ∀ {t : Text}, c ∉ t → ∀ d ∈ t, (d == c) = false := fun ht d hd =>
    beq_eq_false_iff_ne.2 fun h => ht (h ▸ hd)
  obtain ⟨rfl, hrest⟩ :=
    append_cons_inj_of_class (hne hv) (hne hw) (beq_self_eq_true c) (beq_self_eq_true c) h
  exact ⟨rfl, (List.cons.inj hrest).2⟩

/-- Two words of a class of letters in braces are recognised, with what stands between them. -/
theorem pairForm_writeWith {letter : Char → Bool} {between : Text} {p : Pair} (rest : Text)
    (hfirst : p.first ≠ [] ∧ ∀ c ∈ p.first, letter c)
    (hsecond : p.second ≠ [] ∧ ∀ c ∈ p.second, letter c)
    (hbang : letter '!' = false) (hclose : letter '\x7d' = false)
    (hbetween : ∀ c t, between = c :: t → letter c = false) (hne : between ≠ []) :
    pairForm letter between (p.writeWith between ++ rest) =
      some (p, (p.writeWith between).length) := by
  obtain ⟨raw, first, second⟩ := p
  obtain ⟨b, bs, rfl⟩ := List.exists_cons_of_ne_nil hne
  obtain ⟨f, fs, rfl⟩ := List.exists_cons_of_ne_nil hfirst.1
  have hf : f ≠ '!' := by
    rintro rfl
    exact absurd (hfirst.2 '!' List.mem_cons_self) (by simp [hbang])
  have hs : second.isEmpty = false := by simpa using hsecond.1
  -- the text behind the exclamation mark, and behind the brace
  obtain ⟨tail, htail⟩ : ∃ t, t = (f :: fs) ++ ((b :: bs) ++ (second ++ '\x7d' :: rest)) := ⟨_, rfl⟩
  obtain ⟨body, hbody⟩ : ∃ t, t = (if raw then ['!'] else []) ++ tail := ⟨_, rfl⟩
  have hwrite : Pair.writeWith (b :: bs) ⟨raw, f :: fs, second⟩ ++ rest = '\x7b' :: body := by
    simp [Pair.writeWith, hbody, htail]
  have hraw : (body.head? == some '!') = raw := by
    cases raw <;> simp [hbody, htail, hf]
  have hdrop : (if raw then body.drop 1 else body) = tail := by
    cases raw <;> simp [hbody]
  have htake : tail.takeWhile letter = f :: fs := by
    rw [htail]
    refine takeWhile_append_of_head hfirst.2 fun c hc => ?_
    rw [List.cons_append, List.head?_cons, Option.some.injEq] at hc
    exact hbetween c bs (by rw [hc])
  have htake' : (second ++ '\x7d' :: rest).takeWhile letter = second := by
    refine takeWhile_append_of_head hsecond.2 fun c hc => ?_
    rw [List.head?_cons, Option.some.injEq] at hc
    rw [← hc, hclose]
  have hafter : Text.after? (b :: bs) (tail.drop (f :: fs).length) =
      some (second ++ '\x7d' :: rest) := by
    rw [htail, List.drop_left]
    exact Text.after?_eq_some_iff.2 rfl
  rw [hwrite]
  simp only [pairForm, hraw, hdrop, htake, hafter, htake', hs, List.drop_left, List.head?_cons,
    List.isEmpty_cons, Bool.false_or, bne_self_eq_false, Bool.false_eq_true, if_false]
  cases raw <;> simp [Pair.writeWith] <;> omega

/-! ### The characters of a source -/

/-- A small letter folds to itself. -/
theorem fold_of_isSmall {c : Char} (h : isSmall c) : fold c = c := by
  rcases fold_eq_or c with hc | ⟨r, hr, hn, _⟩
  · exact hc
  · have hgap := (foldRuns_bounds hr).2
    obtain ⟨hfirst, hlast⟩ := CaseRun.bounds_of_has hn
    simp only [isSmall, Bool.and_eq_true, decide_eq_true_eq, Char.le_def,
      UInt32.le_iff_toNat_le] at h
    have hlo : 97 ≤ c.toNat := h.1
    have hhi : c.toNat ≤ 122 := h.2
    omega

/-- A small letter is a basic letter. -/
theorem isBasicLetter_of_isSmall {c : Char} (h : isSmall c) : isBasicLetter c := by
  rw [isBasicLetter, fold_of_isSmall h]
  exact h

/-- A small letter is a sign. -/
theorem isSign_of_isSmall {c : Char} (h : isSmall c) : Item.isSign c := by
  have hlower : c.isLower := h
  have halpha : c.isAlpha := by
    change (c.isUpper || c.isLower) = true
    rw [hlower, Bool.or_true]
  simp [Item.isSign, Char.isAlphanum, halpha]

/-- The name of a kind is a nonempty word of small letters. -/
theorem Kind.name_small (k : Kind) : k.name ≠ [] ∧ ∀ c ∈ k.name, isSmall c := by
  cases k <;> exact ⟨by decide, List.all_eq_true.1 (by decide)⟩

/-- The name of a kind is a nonempty word of basic letters. -/
theorem Kind.name_basic (k : Kind) : k.name ≠ [] ∧ ∀ c ∈ k.name, isBasicLetter c :=
  ⟨k.name_small.1, fun c hc => isBasicLetter_of_isSmall (k.name_small.2 c hc)⟩

namespace Item

/-- The characters that the stages of a source are written with. -/
def isWritten (c : Char) : Bool := isSign c || ['\\', '\x7b', '!', '\x7d'].contains c

/-- An item behind the escaping of signs. -/
def escaped : Item → Text
  | sign c => escapeSign c
  | wildcard w => (pair w).writeWith ['\\', ':']

/-- An item with its signs escaped but for the colon of a wildcard. -/
def freed : Item → Text
  | sign c => escapeSign c
  | wildcard w => (pair w).write

/-- An item as it is written in the expression. -/
def expression : Item → Text
  | sign c => escapeSign c
  | wildcard w => group w

variable {x : Item}

/-- The characters of an escaped sign are the sign and a backslash. -/
theorem mem_escapeSign {c d : Char} (h : d ∈ escapeSign c) : d = '\\' ∨ d = c := by
  rw [escapeSign] at h
  split at h
  · simpa using h
  · exact .inr (List.mem_singleton.1 h)

/-- A wildcard is written with few characters, whatever stands between its words. -/
theorem isWritten_writeWith {w : Wildcard} (hw : (wildcard w).IsWritable) {between : Text}
    (hbetween : ∀ c ∈ between, isWritten c) : ∀ c ∈ (pair w).writeWith between, isWritten c := by
  intro c hc
  have hsmall : ∀ {c}, isSmall c → isWritten c := fun h => by
    rw [isWritten, isSign_of_isSmall h, Bool.true_or]
  rcases Pair.mem_writeWith.1 hc with rfl | ⟨_, rfl⟩ | hc | hc | hc | rfl
  · decide
  · decide
  · exact hsmall (hw.2 c hc)
  · exact hbetween c hc
  · exact hsmall (w.kind.name_small.2 c hc)
  · decide

/-- An escaped sign is written with few characters. -/
theorem isWritten_escapeSign {c : Char} (hc : (sign c).IsWritable) :
    ∀ d ∈ escapeSign c, isWritten d := by
  intro d hd
  rcases mem_escapeSign hd with rfl | rfl
  · decide
  · rw [isWritten, show isSign d from hc, Bool.true_or]

/-- The escaped items are written with few characters. -/
theorem isWritten_escaped (hx : x.IsWritable) : ∀ c ∈ x.escaped, isWritten c := by
  cases x with
  | sign c => exact isWritten_escapeSign hx
  | wildcard w => exact isWritten_writeWith hx (List.all_eq_true.1 (by decide))

/-- The items with their colons free are written with few characters. -/
theorem isWritten_freed (hx : x.IsWritable) : ∀ c ∈ x.freed, isWritten c := by
  cases x with
  | sign c => exact isWritten_escapeSign hx
  | wildcard w =>
    have hcolon : ∀ c ∈ [':'], isWritten c := List.all_eq_true.1 (by decide)
    exact isWritten_writeWith hx hcolon

/-- An escaped sign has no brace. -/
theorem notMem_escapeSign {c d : Char} (hc : (sign c).IsWritable) (hd : d ≠ '\\')
    (hsign : isSign d = false) : d ∉ escapeSign c := by
  intro h
  rcases mem_escapeSign h with h | rfl
  · exact hd h
  · exact absurd (show isSign d from hc) (by simp [hsign])

/-- A wildcard is written with small letters and four marks. -/
theorem notMem_write {w : Wildcard} (hw : (wildcard w).IsWritable) {d : Char}
    (hsmall : isSmall d = false) (hmark : d ∉ ['\x7b', '!', ':', '\x7d']) :
    d ∉ (wildcard w).write := by
  intro h
  have h : d ∈ (pair w).writeWith [':'] := h
  rcases Pair.mem_writeWith.1 h with rfl | ⟨_, rfl⟩ | h | h | h | rfl
  · exact hmark (by simp)
  · exact hmark (by simp)
  · exact notMem_of_class hw.2 hsmall h
  · rw [List.mem_singleton.1 h] at hmark
    exact hmark (by simp)
  · exact notMem_of_class w.kind.name_small.2 hsmall h
  · exact hmark (by simp)

/-- A character that is not among them does not occur. -/
theorem notMem_flatMap {items : List Item} {write : Item → Text} {d : Char}
    (h : ∀ x ∈ items, ∀ c ∈ write x, isWritten c) (hd : isWritten d = false) :
    d ∉ items.flatMap write := by
  intro hmem
  obtain ⟨x, hx, hc⟩ := List.mem_flatMap.1 hmem
  exact absurd (h x hx d hc) (by simp [hd])

end Item

/-- Two characters in a row of which the first is not in the front part do not come in with it. -/
theorem not_infix_append {a b : Char} {lead rest : Text} (h : a ∉ lead)
    (hrest : ¬ [a, b] <:+: rest) : ¬ [a, b] <:+: lead ++ rest := by
  induction lead with
  | nil => exact hrest
  | cons c lead ih =>
    rw [List.cons_append, List.infix_cons_iff, not_or]
    refine ⟨?_, ih fun hmem => h (List.mem_cons_of_mem c hmem)⟩
    rw [List.cons_prefix_cons]
    rintro ⟨rfl, _⟩
    exact h List.mem_cons_self

/-! ### The stages -/

/-- No square bracket begins an optional character elsewhere. -/
theorem optionalForm_cons {c : Char} (h : c ≠ '[') (rest : Text) :
    optionalForm (c :: rest) = none := by
  unfold optionalForm
  split
  · rename_i heq
    exact absurd (List.cons.inj heq).1 h
  · rfl

/-- Only an opening brace begins two words in braces. -/
theorem pairForm_cons {letter : Char → Bool} {between : Text} {c : Char} (h : c ≠ '\x7b')
    (rest : Text) : pairForm letter between (c :: rest) = none := by
  unfold pairForm
  split
  · rename_i heq
    exact absurd (List.cons.inj heq).1 h
  · rfl

/-- Only an opening angle bracket begins a span. -/
theorem spanForm_cons {c : Char} (h : c ≠ '<') (rest : Text) : spanForm (c :: rest) = none := by
  unfold spanForm
  split
  · rename_i heq
    exact absurd (List.cons.inj heq).1 h
  · rfl

/-- Only an opening brace begins a name that implies a kind. -/
theorem aliasForm_cons {c : Char} (h : c ≠ '\x7b') (rest : Text) :
    aliasForm (c :: rest) = none := by
  unfold aliasForm
  split
  · rename_i heq
    exact absurd (List.cons.inj heq).1 h
  · rfl

/-- Only an opening brace begins a pair whose words may have to change places. -/
theorem nameFirstForm_cons {c : Char} (h : c ≠ '\x7b') (rest : Text) :
    nameFirstForm (c :: rest) = none := by
  rw [nameFirstForm, pairForm_cons h]

/-- Only an opening brace begins a wildcard. -/
theorem form_cons {c : Char} (h : c ≠ '\x7b') (rest : Text) :
    Wildcard.form (c :: rest) = none := by
  rw [Wildcard.form, pairForm_cons h]

namespace Source

variable (s : Source)

/-- Where an optional slash would be written, the items are a slash and a question mark. -/
theorem unmarked_text : ¬ ['/', '?'] <:+: s.text := by
  obtain ⟨items, writable, unmarked⟩ := s
  simp only [text]
  induction items with
  | nil => simp
  | cons x items ih =>
    have ih := ih (fun y hy => writable y (List.mem_cons_of_mem x hy))
      fun h => unmarked (h.trans (List.suffix_cons x items).isInfix)
    rw [List.flatMap_cons]
    cases x with
    | sign c =>
      rw [Item.write, List.singleton_append, List.infix_cons_iff, not_or]
      refine ⟨?_, ih⟩
      rw [List.cons_prefix_cons]
      rintro ⟨rfl, hnext⟩
      -- the question mark behind the slash can only be a sign, and no source has the two in a row
      cases items with
      | nil => simp at hnext
      | cons y items =>
        cases y with
        | sign d =>
          rw [List.flatMap_cons, Item.write, List.singleton_append, List.cons_prefix_cons] at hnext
          rw [← hnext.1] at unmarked
          exact unmarked (List.prefix_append [Item.sign '/', Item.sign '?'] items).isInfix
        | wildcard w =>
          rw [List.flatMap_cons, Item.write, Pair.write] at hnext
          simp at hnext
    | wildcard w =>
      have hslash := Item.notMem_write (writable _ List.mem_cons_self) (d := '/') (by decide) (by decide)
      exact not_infix_append hslash ih

/-- A character that is no sign and does not mark a wildcard is not in the text of a source. -/
theorem notMem_text {d : Char} (hsign : Item.isSign d = false)
    (hmark : d ∉ ['\x7b', '!', ':', '\x7d']) : d ∉ s.text := by
  intro h
  obtain ⟨x, hx, hmem⟩ := List.mem_flatMap.1 h
  cases x with
  | sign c =>
    have hc : Item.isSign c := s.writable _ hx
    rw [Item.write, List.mem_singleton] at hmem
    rw [← hmem, hsign] at hc
    cases hc
  | wildcard w =>
    have hsmall : isSmall d = false := by
      rw [Bool.eq_false_iff]
      intro hd
      rw [isSign_of_isSmall hd] at hsign
      cases hsign
    exact Item.notMem_write (s.writable _ hx) hsmall hmark hmem

/-- The text of a source has no backslash. -/
theorem backslash_notMem_text : '\\' ∉ s.text := s.notMem_text (by decide) (by decide)

/-- Escaping the signs of a word of basic letters changes nothing. -/
theorem flatMap_escapeSign_of_letters {t : Text} (h : ∀ c ∈ t, isBasicLetter c) :
    t.flatMap escapeSign = t := by
  have hself : ∀ c ∈ t, escapeSign c = [c] := by
    intro c hc
    rw [escapeSign, if_neg]
    intro hmem
    rw [List.contains_iff_mem] at hmem
    simp only [List.mem_cons, List.not_mem_nil, or_false] at hmem
    rcases hmem with rfl | rfl | rfl <;> exact absurd (h _ hc) (by decide)
  rw [List.flatMap_congr hself, List.flatMap_singleton']

/-- Behind the escaping of signs. -/
theorem escapeSigns_text : escapeSigns s.text = s.items.flatMap Item.escaped := by
  rw [escapeSigns_eq s.backslash_notMem_text s.unmarked_text, text, List.flatMap_assoc]
  refine List.flatMap_congr fun x hx => ?_
  cases x with
  | sign c => exact List.append_nil _
  | wildcard w =>
    have hname := flatMap_escapeSign_of_letters fun c hc =>
      isBasicLetter_of_isSmall ((s.writable _ hx).2 c hc)
    have hkind := flatMap_escapeSign_of_letters w.kind.name_basic.2
    simp only [Item.write, Pair.write, Item.escaped, Pair.writeWith, List.flatMap_append]
    rw [show (Item.pair w).first = w.name from rfl, show (Item.pair w).second = w.kind.name from rfl,
      hname, hkind]
    congr 1
    cases (Item.pair w).raw <;> rfl

/-- A source has no entry script and no optional characters. -/
theorem prepare_text : prepare s.text = s.items.flatMap Item.escaped := by
  have hwritten : ∀ x ∈ s.items, ∀ c ∈ x.escaped, Item.isWritten c :=
    fun x hx => Item.isWritten_escaped (s.writable x hx)
  have hdot := Item.notMem_flatMap hwritten (d := '.') (by decide)
  have hbracket := Item.notMem_flatMap hwritten (d := '[') (by decide)
  rw [prepare, escapeSigns_text, Text.replaceAll_of_notMem markedEntry (a := '.') (by decide) hdot]
  refine Text.rewrite_eq_self id fun c hc rest => optionalForm_cons ?_ rest
  rintro rfl
  exact hbracket hc

/-- A rewriting of what begins with a brace keeps an escaped sign. -/
theorem rewrite_escapeSign {β : Type} {form : Form β} {put : β → Text} {c : Char}
    (hc : (Item.sign c).IsWritable) (hform : ∀ d rest, d ≠ '\x7b' → form (d :: rest) = none)
    (rest : Text) :
    Text.rewrite form put (escapeSign c ++ rest) = escapeSign c ++ Text.rewrite form put rest := by
  have hbrace := Item.notMem_escapeSign (d := '\x7b') hc (by decide) (by decide)
  refine Text.rewrite_plain _ rest fun d hd _ => hform d _ ?_
  rintro rfl
  exact hbrace hd

/-- The colons of the wildcards are set free. -/
theorem freeColons_escaped :
    freeColons (s.items.flatMap Item.escaped) = s.items.flatMap Item.freed := by
  refine Text.flatMap_of_append rfl fun x hx rest => ?_
  cases x with
  | sign c => exact rewrite_escapeSign (s.writable _ hx) (fun _ rest hd => pairForm_cons hd rest) rest
  | wildcard w =>
    obtain ⟨hne, hsmall⟩ := s.writable _ hx
    have hbetween : ∀ c t, ['\\', ':'] = c :: t → isBasicLetter c = false := by
      rintro c t ⟨⟩
      decide
    have hform := pairForm_writeWith (p := Item.pair w) rest
      ⟨hne, fun c hc => isBasicLetter_of_isSmall (hsmall c hc)⟩
      w.kind.name_basic
      (by decide) (by decide) hbetween (by decide)
    exact Text.rewrite_append _ (by simp [Item.escaped, Pair.writeWith]) hform

/-- A source has no spans. -/
theorem expandSpans_freed :
    expandSpans (s.items.flatMap Item.freed) = s.items.flatMap Item.freed := by
  have hangle := Item.notMem_flatMap (d := '<')
    (fun x hx => Item.isWritten_freed (s.writable x hx)) (by decide)
  refine Text.rewrite_eq_self _ fun c hc rest => spanForm_cons ?_ rest
  rintro rfl
  exact hangle hc

/-- A wildcard is recognised, whatever is written behind it. -/
theorem pairForm_write {w : Wildcard} (hw : (Item.wildcard w).IsWritable) (rest : Text) :
    pairForm isSmall [':'] ((Item.pair w).write ++ rest) =
      some (Item.pair w, (Item.pair w).write.length) := by
  have hbetween : ∀ c t, [':'] = c :: t → isSmall c = false := by
    rintro c t ⟨⟩
    decide
  exact pairForm_writeWith rest hw w.kind.name_small (by decide) (by decide) hbetween (by decide)

/-- A rewriting of what begins with a brace keeps a wildcard that it does not recognise. -/
theorem rewrite_write {β : Type} {form : Form β} {put : β → Text} {w : Wildcard}
    (hw : (Item.wildcard w).IsWritable) (hform : ∀ d rest, d ≠ '\x7b' → form (d :: rest) = none)
    {rest : Text} (hnone : form ((Item.pair w).write ++ rest) = none) :
    Text.rewrite form put ((Item.pair w).write ++ rest) =
      (Item.pair w).write ++ Text.rewrite form put rest := by
  obtain ⟨body, hbody⟩ : ∃ body, (Item.pair w).write = '\x7b' :: body := ⟨_, rfl⟩
  have hbrace : '\x7b' ∉ body := by
    intro h
    have hlead : body = (if (Item.pair w).raw then ['!'] else []) ++ w.name ++ [':'] ++ w.kind.name
        ++ ['\x7d'] := (List.cons.inj hbody).2.symm
    have hname : '\x7b' ∉ w.name := notMem_of_class hw.2 (by decide)
    have hkind : '\x7b' ∉ w.kind.name := notMem_of_class w.kind.name_small.2 (by decide)
    rw [hlead] at h
    simp [hname, hkind, List.mem_ite_nil_right] at h
  rw [hbody, List.cons_append] at hnone ⊢
  rw [Text.rewrite_cons put hnone, Text.rewrite_plain put rest, List.cons_append]
  intro d hd rest
  refine hform d rest ?_
  rintro rfl
  exact hbrace hd

/-- The words of a written wildcard are in order already. -/
theorem nameFirst_write {w : Wildcard} (hw : (Item.wildcard w).IsWritable) (rest : Text) :
    nameFirst ((Item.pair w).write ++ rest) = (Item.pair w).write ++ nameFirst rest := by
  have hsecond : (Kind.ofName? (Item.pair w).second).isSome := by
    rw [show (Item.pair w).second = w.kind.name from rfl, Kind.ofName?_name]
    rfl
  by_cases hfirst : (Kind.ofName? (Item.pair w).first).isSome
  · refine Text.rewrite_append Pair.write (by simp [Pair.write]) ?_
    simp only [nameFirstForm, pairForm_write hw, hfirst, hsecond, if_true]
  · refine rewrite_write hw (fun d rest hd => nameFirstForm_cons hd rest) ?_
    simp only [nameFirstForm, pairForm_write hw, hfirst, Bool.false_eq_true, if_false]

/-- The words of the wildcards of a source are in order already. -/
theorem nameFirst_freed :
    nameFirst (s.items.flatMap Item.freed) = s.items.flatMap Item.freed := by
  refine Text.flatMap_of_append rfl fun x hx rest => ?_
  cases x with
  | sign c =>
    exact rewrite_escapeSign (s.writable _ hx) (fun _ rest hd => nameFirstForm_cons hd rest) rest
  | wildcard w => exact nameFirst_write (s.writable _ hx) rest

/-- A name with a kind behind it is not taken for a name that implies one. -/
theorem aliasForm_write {w : Wildcard} (hname : ∀ c ∈ w.name, isBasicLetter c) (rest : Text) :
    aliasForm ((Item.pair w).write ++ rest) = none := by
  obtain ⟨name, kind, raw⟩ := w
  cases raw with
  | true => rfl
  | false =>
    have hword : (name ++ ':' :: (kind.name ++ '\x7d' :: rest)).takeWhile isBasicLetter = name := by
      refine takeWhile_append_of_head hname ?_
      rintro c ⟨⟩
      decide
    simp [Item.pair, Pair.write, aliasForm, hword]

/-- No wildcard of a source leaves its kind to its name. -/
theorem expandAliases_freed :
    expandAliases (s.items.flatMap Item.freed) = s.items.flatMap Item.freed := by
  have hform : ∀ d rest, d ≠ '\x7b' → aliasForm (d :: rest) = none :=
    fun d rest hd => aliasForm_cons hd rest
  refine Text.flatMap_of_append rfl fun x hx rest => ?_
  cases x with
  | sign c => exact rewrite_escapeSign (s.writable _ hx) hform rest
  | wildcard w =>
    have hw := s.writable _ hx
    have hletters : ∀ c ∈ w.name, isBasicLetter c := fun c hc => isBasicLetter_of_isSmall (hw.2 c hc)
    exact rewrite_write hw hform (aliasForm_write hletters rest)

/-- A wildcard of a source is recognised by its words. -/
theorem form_write {w : Wildcard} (hw : (Item.wildcard w).IsWritable) (rest : Text) :
    Wildcard.form ((Item.pair w).write ++ rest) = some (w, (Item.pair w).write.length) := by
  rw [Wildcard.form, pairForm_write hw]
  simp only [show (Item.pair w).second = w.kind.name from rfl, Kind.ofName?_name]
  rfl

/-- The groups of the wildcards stand in the place of the wildcards. -/
theorem render_freed :
    Text.render group (Text.pieces Wildcard.form (s.items.flatMap Item.freed)) =
      s.items.flatMap Item.expression := by
  refine Text.flatMap_of_append (f := Text.rewrite Wildcard.form group) rfl fun x hx rest => ?_
  cases x with
  | sign c => exact rewrite_escapeSign (s.writable _ hx) (fun _ rest hd => form_cons hd rest) rest
  | wildcard w =>
    exact Text.rewrite_append group (by simp [Item.freed, Pair.write])
      (form_write (s.writable _ hx) rest)

/-- The wildcards that are found are those of the source, in order. -/
theorem hits_freed :
    Text.hits (Text.pieces Wildcard.form (s.items.flatMap Item.freed)) = s.wildcards := by
  rw [wildcards, List.filterMap_eq_flatMap_toList]
  refine Text.flatMap_of_append (f := fun t => Text.hits (Text.pieces Wildcard.form t)) rfl
    fun x hx rest => ?_
  cases x with
  | sign c =>
    have hbrace := Item.notMem_escapeSign (d := '\x7b') (s.writable _ hx) (by decide) (by decide)
    have hplain : ∀ d ∈ escapeSign c, ∀ rest, Wildcard.form (d :: rest) = none := by
      intro d hd rest
      refine form_cons ?_ rest
      rintro rfl
      exact hbrace hd
    simp [Item.freed, Text.pieces_plain rest hplain, Text.hits, Item.wildcard?]
  | wildcard w =>
    have hpieces : Text.pieces Wildcard.form ((Item.pair w).write ++ rest) =
        .hit w :: Text.pieces Wildcard.form rest :=
      Text.pieces_append (by simp [Pair.write]) (form_write (s.writable _ hx) rest)
    simp [Item.freed, hpieces, Text.hits, Item.wildcard?]

/-- An expression of a source has no stray braces. -/
theorem escapeBraces_expression :
    escapeBraces (s.items.flatMap Item.expression) = s.items.flatMap Item.expression := by
  refine Text.flatMap_of_append rfl fun x hx rest => ?_
  cases x with
  | sign c =>
    have hc : Item.isSign c := s.writable _ hx
    simp only [Item.expression, escapeSign]
    split
    · have hpair : braceForm (['\\', c] ++ rest) = some (['\\', c], 2) := rfl
      exact Text.rewrite_append id (by simp) hpair
    · have hplain : ∀ d ∈ [c], ∀ rest, braceForm (d :: rest) = none := by
        intro d hd rest
        rw [List.mem_singleton] at hd
        subst hd
        unfold braceForm
        split <;> rename_i heq
        · exact absurd (List.cons.inj heq).1 fun h => absurd (h ▸ hc) (by decide)
        · exact absurd (List.cons.inj heq).1 fun h => absurd (h ▸ hc) (by decide)
        · exact absurd (List.cons.inj heq).1 fun h => absurd (h ▸ hc) (by decide)
        · rfl
      exact Text.rewrite_plain id rest hplain
  | wildcard w =>
    obtain ⟨name, kind, raw⟩ := w
    cases kind <;> rfl

end Source

/-- A source is compiled to the expressions of its items, and its wildcards are noted in order. -/
theorem Pattern.compile_text (s : Source) :
    Pattern.compile s.text = ⟨s.items.flatMap Item.freed, s.items.flatMap Item.freed,
      s.items.flatMap Item.expression, s.wildcards⟩ := by
  have hexpand : expand (s.items.flatMap Item.freed) = s.items.flatMap Item.freed := by
    rw [expand, s.expandSpans_freed, s.nameFirst_freed, s.expandAliases_freed]
  simp only [compile, s.prepare_text, s.freeColons_escaped, hexpand, ofExpanded, s.render_freed,
    s.hits_freed, s.escapeBraces_expression]

end Detour
