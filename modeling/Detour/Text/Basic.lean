/-!
# Text

A text is a list of characters. This module holds the operations on texts that every other part
uses: taking off a leading word, trimming, splitting, and replacing a word wherever it occurs.

* `Text.after?` is the rest of a text behind a leading word;
* `Text.split` cuts at a separator, so that joining with the separator gives the text back;
* `Text.replaceAll` is one pass from left to right over the occurrences that do not overlap.
-/

namespace Detour

/-- A text is a list of characters. -/
abbrev Text := List Char

namespace Text

/-- The rest of `s` behind the word `lead`, if `s` starts with it. -/
def after? : (lead s : Text) → Option Text
  | [], s => some s
  | _ :: _, [] => none
  | a :: lead, c :: s => if a = c then after? lead s else none

/-- The rest behind `lead` is what has to be appended to `lead`. -/
theorem after?_eq_some_iff {lead s rest : Text} : after? lead s = some rest ↔ s = lead ++ rest := by
  induction lead generalizing s with
  | nil => simp [after?, eq_comm]
  | cons a lead ih =>
    cases s with
    | nil => simp [after?]
    | cons c s =>
      by_cases h : a = c
      · subst h; simp [after?, ih]
      · simp [after?, h, Ne.symm h]

/-- Whether `s` starts with `lead`. -/
def startsWith (lead s : Text) : Bool := (after? lead s).isSome

/-- Whether `a` comes before `b` or equals it in the order of code points, which is also that of the
bytes of their encodings. -/
def le : (a b : Text) → Bool
  | [], _ => true
  | _ :: _, [] => false
  | c :: a, d :: b => if c = d then le a b else c ≤ d

/-- Without its leading characters of a class. -/
def trimStart (p : Char → Bool) (s : Text) : Text := s.dropWhile p

/-- Without its trailing characters of a class. -/
def trimEnd (p : Char → Bool) (s : Text) : Text := (s.reverse.dropWhile p).reverse

/-- Without its leading and trailing characters of a class. -/
def trimBoth (p : Char → Bool) (s : Text) : Text := trimEnd p (trimStart p s)

/-- Signs of a class on both sides of a text are taken off, up to characters that are not of it. -/
theorem trimBoth_append {p : Char → Bool} {front mid back : Text} (hfront : ∀ c ∈ front, p c)
    (hback : ∀ c ∈ back, p c) (hfirst : ∀ c, mid.head? = some c → p c = false)
    (hlast : ∀ c, mid.getLast? = some c → p c = false) :
    trimBoth p (front ++ mid ++ back) = mid := by
  have htaken : (back.reverse ++ mid.reverse).dropWhile p = mid.reverse := by
    rw [List.dropWhile_append_of_pos fun c hc => hback c (List.mem_reverse.1 hc)]
    cases hrev : mid.reverse with
    | nil => rfl
    | cons c rest =>
      have hc : mid.getLast? = some c := by rw [← List.head?_reverse, hrev]; rfl
      rw [List.dropWhile_cons_of_neg (by simp [hlast c hc])]
  rw [trimBoth, trimStart, List.append_assoc, List.dropWhile_append_of_pos hfront]
  cases mid with
  | nil =>
    have hnone := @List.dropWhile_append_of_pos _ p back [] hback
    rw [List.append_nil] at hnone
    rw [List.nil_append, hnone]
    rfl
  | cons c mid =>
    rw [List.cons_append, List.dropWhile_cons_of_neg (by simp [hfirst c rfl]), trimEnd,
      ← List.cons_append, List.reverse_append, htaken, List.reverse_reverse]

/-- The parts of a text between the separators; one more than there are separators. -/
def split (sep : Char) : Text → List Text
  | [] => [[]]
  | c :: s =>
    if c = sep then [] :: split sep s
    else match split sep s with
      | [] => [[c]]
      | first :: rest => (c :: first) :: rest

/-- The parts written one after another with a text between any two. -/
def join (between : Text) : List Text → Text
  | [] => []
  | [part] => part
  | part :: rest => part ++ between ++ join between rest

/-- A text has at least one part. -/
theorem split_ne_nil (sep : Char) (s : Text) : split sep s ≠ [] := by
  cases s with
  | nil => simp [split]
  | cons c s =>
    unfold split
    split
    · simp
    · split <;> simp

/-- One pass of `replaceAll`; the first argument counts the characters that still belong to the
occurrence replaced last. -/
def replaceFrom (word new : Text) : Nat → Text → Text
  | _, [] => []
  | skip + 1, _ :: s => replaceFrom word new skip s
  | 0, c :: s =>
    if startsWith word (c :: s) then new ++ replaceFrom word new (word.length - 1) s
    else c :: replaceFrom word new 0 s

/-- Every occurrence of the nonempty `word` replaced, from left to right and without overlaps. -/
def replaceAll (word new s : Text) : Text := replaceFrom word new 0 s

/-- Skipping as many characters as a leading part has leaves the rest. -/
theorem replaceFrom_append (word new lead s : Text) :
    replaceFrom word new lead.length (lead ++ s) = replaceFrom word new 0 s := by
  induction lead with
  | nil => rfl
  | cons c lead ih => simpa [replaceFrom] using ih

/-- A leading occurrence is replaced and the pass goes on behind it. -/
theorem replaceAll_append {word : Text} (new s : Text) (h : word ≠ []) :
    replaceAll word new (word ++ s) = new ++ replaceAll word new s := by
  cases word with
  | nil => exact absurd rfl h
  | cons a word =>
    have hs : startsWith (a :: word) (a :: (word ++ s)) = true := by
      have : after? (a :: word) ((a :: word) ++ s) = some s := after?_eq_some_iff.2 rfl
      simpa [startsWith] using congrArg Option.isSome this
    simp [replaceAll, replaceFrom, hs, replaceFrom_append]

/-- A character that no occurrence starts at is kept. -/
theorem replaceAll_cons {word : Text} (new : Text) {c : Char} {s : Text}
    (h : startsWith word (c :: s) = false) :
    replaceAll word new (c :: s) = c :: replaceAll word new s := by
  simp [replaceAll, replaceFrom, h]

/-- A text does not start with a word whose first character is another one. -/
theorem startsWith_cons_of_ne {a c : Char} (word s : Text) (h : a ≠ c) :
    startsWith (a :: word) (c :: s) = false := by
  rw [startsWith, after?, if_neg h]
  rfl

/-- A text starts with a word if the word is a prefix of it. -/
theorem startsWith_iff {word s : Text} : startsWith word s ↔ word <+: s := by
  rw [startsWith, Option.isSome_iff_exists]
  constructor
  · rintro ⟨rest, h⟩
    exact ⟨rest, (after?_eq_some_iff.1 h).symm⟩
  · rintro ⟨rest, h⟩
    exact ⟨rest, after?_eq_some_iff.2 h.symm⟩

/-- Nothing is replaced where a character of the word does not occur. -/
theorem replaceAll_of_notMem {word : Text} {a : Char} (new : Text) {s : Text} (ha : a ∈ word)
    (hs : a ∉ s) : replaceAll word new s = s := by
  induction s with
  | nil => rfl
  | cons c s ih =>
    have hfront : startsWith word (c :: s) = false := by
      rw [Bool.eq_false_iff, ne_eq, startsWith_iff]
      intro h
      exact hs (h.subset ha)
    rw [replaceAll_cons new hfront, ih fun h => hs (List.mem_cons_of_mem c h)]

/-- Replacing one character is done character by character. -/
theorem replaceAll_singleton (a : Char) (new s : Text) :
    replaceAll [a] new s = s.flatMap fun c => if c = a then new else [c] := by
  induction s with
  | nil => rfl
  | cons c s ih =>
    rw [List.flatMap_cons]
    by_cases h : c = a
    · subst h
      rw [if_pos rfl, ← ih]
      exact replaceAll_append new s (by simp)
    · rw [if_neg h, ← ih]
      exact replaceAll_cons new (startsWith_cons_of_ne [] s (Ne.symm h))

/-- What goes over a text from the front, part by part, turns each part into what it is to become. -/
theorem flatMap_of_append {ι γ : Type} {f : Text → List γ} {part : ι → Text} {image : ι → List γ}
    {items : List ι} (hnil : f [] = [])
    (h : ∀ x ∈ items, ∀ rest, f (part x ++ rest) = image x ++ f rest) :
    f (items.flatMap part) = items.flatMap image := by
  induction items with
  | nil => exact hnil
  | cons x items ih =>
    rw [List.flatMap_cons, List.flatMap_cons, h x List.mem_cons_self,
      ih fun y hy => h y (List.mem_cons_of_mem x hy)]

end Text

/-- The leading part of a class of characters ends where the first other character stands. -/
theorem takeWhile_append_of_head {p : Char → Bool} {w s : Text} (hw : ∀ c ∈ w, p c)
    (hs : ∀ c, s.head? = some c → p c = false) : (w ++ s).takeWhile p = w := by
  rw [List.takeWhile_append_of_pos hw]
  cases s with
  | nil => simp
  | cons c s => rw [List.takeWhile_cons_of_neg (by simp [hs c rfl]), List.append_nil]

end Detour
