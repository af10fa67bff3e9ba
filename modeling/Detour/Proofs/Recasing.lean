import Detour.Proofs.Camel
import Detour.Proofs.Casing

/-!
# Escapes in either letter case

The digits of a percent escape may be capitals or small letters. Words are written apart before escapes
are decoded, and capitals are what tells words apart: so a capital among the digits may be taken for the
beginning of a word, and then the escape is lost.

* `Cleaning.Recased`: values that differ in nothing but the letter case of the digits of their escapes.
* `Cleaning.fates`: what becomes of the escapes of a value when words are written apart.
* `Cleaning.spread_recased_iff`: two such values are written apart alike if and only if their escapes fare
  alike. `Cleaner.clean_recased` has what follows for the values that are cleaned.
-/

namespace Detour

namespace Cleaning

open Camel (Fate fate spread opensCapital gap)

variable {a b a' b' : Char} {s u v w : Text}

/-! ### Values that differ in letter case -/

/-- Two values that differ in nothing but the letter case of the digits of their percent escapes. -/
inductive Recased : Text → Text → Prop where
  /-- nothing differs in nothing -/
  | nil : Recased [] []
  /-- a character in common -/
  | cons (c : Char) {v w : Text} (h : Recased v w) : Recased (c :: v) (c :: w)
  /-- an escape with the same digits, each in either letter case -/
  | escape {a b a' b' : Char} {v w : Text} (ha : isHex a) (hb : isHex b) (hfirst : a'.toLower = a.toLower)
    (hsecond : b'.toLower = b.toLower) (h : Recased v w) :
    Recased ('%' :: a :: b :: v) ('%' :: a' :: b' :: w)

/-- They are the same in small letters. -/
theorem Recased.small (h : Recased v w) : v.small = w.small := by
  induction h with
  | nil => rfl
  | cons c _ ih => exact congrArg (c.toLower :: ·) ih
  | escape _ _ hfirst hsecond _ ih =>
    simp only [Text.small_cons, hfirst, hsecond, ih]

/-- They begin with the same capitals, and behind these with the same character. -/
theorem Recased.capitals (h : Recased v w) : v.takeWhile Char.isUpper = w.takeWhile Char.isUpper ∧
    (v.dropWhile Char.isUpper).head? = (w.dropWhile Char.isUpper).head? := by
  induction h with
  | nil => exact ⟨rfl, rfl⟩
  | cons c _ ih =>
    rw [List.takeWhile_cons, List.takeWhile_cons, List.dropWhile_cons, List.dropWhile_cons]
    split
    · exact ⟨congrArg _ ih.1, ih.2⟩
    · exact ⟨rfl, rfl⟩
  | escape => exact ⟨rfl, rfl⟩

/-- So what stands before them fares alike. -/
theorem Recased.fate_eq (h : Recased v w) (a b : Char) : fate a b v = fate a b w := by
  rw [fate, fate, h.capitals.1, h.capitals.2]

/-- They both begin with a capital or both do not. -/
theorem Recased.opensCapital_eq (h : Recased v w) : opensCapital v = opensCapital w := by
  cases h <;> rfl

/-! ### What becomes of escapes -/

/-- What becomes of the digits behind a percent sign. -/
def fateAfter : Text → List Fate
  | a :: b :: s => if isHex a && isHex b then [fate a b s] else []
  | _ => []

/-- What becomes of the escapes of a value, one after the other. -/
def fates : Text → List Fate
  | [] => []
  | c :: s => (if c = '%' then fateAfter s else []) ++ fates s

/-- A percent sign is no digit. -/
theorem isHex_percent : isHex '%' = false := by decide

/-- Behind a percent sign in common, the same becomes of the digits. -/
theorem Recased.fateAfter_eq (h : Recased v w) : fateAfter v = fateAfter w := by
  cases h with
  | nil => rfl
  | escape => simp [fateAfter, isHex_percent]
  | cons a h =>
    cases h with
    | nil => rfl
    | escape => simp [fateAfter, isHex_percent]
    | cons b h => rw [fateAfter, fateAfter, h.fate_eq]

/-- A part without percent signs has no escapes. -/
theorem fates_append (hu : '%' ∉ u) (s : Text) : fates (u ++ s) = fates s := by
  induction u with
  | nil => rfl
  | cons c u ih =>
    rw [List.mem_cons, not_or] at hu
    rw [List.cons_append, fates, if_neg (Ne.symm hu.1), ih hu.2]
    rfl

/-- A digit is no other sign. -/
theorem ne_of_isHex {sign : Char} (ha : isHex a) (hsign : isHex sign = false) : a ≠ sign := by
  rintro rfl
  rw [hsign] at ha
  exact absurd ha (by decide)

/-- An escape is the first one before those that follow. -/
theorem fates_escape (ha : isHex a) (hb : isHex b) (s : Text) :
    fates ('%' :: a :: b :: s) = fate a b s :: fates s := by
  have hdigits : '%' ∉ [a, b] := by
    simp [(ne_of_isHex ha isHex_percent).symm, (ne_of_isHex hb isHex_percent).symm]
  have hrest : fates (a :: b :: s) = fates s := fates_append hdigits s
  rw [fates, if_pos rfl, hrest, fateAfter, if_pos (by simp [ha, hb])]
  rfl

/-! ### Fates can be read off -/

/-- The fate of two characters, read off the text that has been written apart: a hyphen between them, or
none where one is expected behind them. -/
def readFate (spread : Text) (capital : Bool) : Fate :=
  if spread[1]? = some '-' then .broken
  else if capital && spread[2]? != some '-' then .joined
  else .whole

/-- Two digits fare as can be read off. -/
theorem fate_eq_readFate (ha : isHex a) (hb : isHex b) (s : Text) :
    fate a b s = readFate (spread (a :: b :: s)) (opensCapital s) := by
  have hholds := Camel.holds_fate (isWordSign_of_isHex ha) (isWordSign_of_isHex hb) s
  have hdigit : b ≠ '-' := ne_of_isHex hb (by decide)
  have hsmall : b.toLower ≠ '-' := (toLower_eq_iff (by decide) b).not.2 hdigit
  cases hfate : fate a b s with
  | whole =>
    rw [hfate] at hholds
    obtain ⟨d, hd, hspread⟩ := hholds
    have hne : d ≠ '-' := by
      rcases hd with rfl | rfl
      · exact hdigit
      · exact hsmall
    rw [hspread]
    by_cases hopens : opensCapital s
    · simp [readFate, hne, gap, hopens]
    · simp [readFate, hne, hopens]
  | joined =>
    rw [hfate] at hholds
    obtain ⟨-, -, hopens, c, t, -, hne, hspread⟩ := hholds
    simp [hspread, readFate, hsmall, hopens, hne]
  | broken =>
    rw [hfate] at hholds
    rw [hholds.2]
    rfl

/-- Letter case makes no difference to the reading. -/
theorem readFate_small (s : Text) (capital : Bool) : readFate s.small capital = readFate s capital := by
  have hplace : ∀ i : Nat, s.small[i]? = some '-' ↔ s[i]? = some '-' := fun i => by
    rw [Text.small, List.getElem?_map, map_toLower_eq_some_iff (by decide)]
  have hsecond : (s.small[2]? != some '-') = (s[2]? != some '-') := by
    rw [bne, bne, Bool.not_inj_iff, Bool.eq_iff_iff, beq_iff_eq, beq_iff_eq, hplace]
  rw [readFate, readFate, hsecond]
  simp only [hplace]

/-! ### Values written apart -/

/-- A digit in the other case is a digit. -/
theorem isHex_of_toLower_eq (h : a'.toLower = a.toLower) (ha : isHex a) : isHex a' := by
  rwa [← caseless_isHex a', h, caseless_isHex a]

/-- Two capitals with the same small letter are one. -/
theorem eq_of_toLower_eq (ha : a.isUpper) (ha' : a'.isUpper) (h : a'.toLower = a.toLower) : a' = a := by
  have hcapital : ∀ {c : Char}, c.isUpper → c.toUpper = c := fun hc =>
    Char.toUpper_eq_of_not_isLower (Char.not_isLower_of_isUpper hc)
  calc a' = a'.toLower.toUpper := by rw [Char.toUpper_toLower_eq_toUpper, hcapital ha']
    _ = a := by rw [h, Char.toUpper_toLower_eq_toUpper, hcapital ha]

/-- Two escapes that fare alike do not tell apart what stands behind them. -/
theorem small_spread_escape (ha : isHex a) (hb : isHex b) (hfirst : a'.toLower = a.toLower)
    (hsecond : b'.toLower = b.toLower) (h : Recased v w) (hfates : fate a b v = fate a' b' w)
    (ih : ∀ u, '%' ∉ u → ((spread (u ++ v)).small = (spread (u ++ w)).small ↔ fates v = fates w)) :
    (spread (a :: b :: v)).small = (spread (a' :: b' :: w)).small ↔ fates v = fates w := by
  have ha' : isHex a' := isHex_of_toLower_eq hfirst ha
  have hb' : isHex b' := isHex_of_toLower_eq hsecond hb
  have hholds := Camel.holds_fate (isWordSign_of_isHex ha) (isWordSign_of_isHex hb) v
  have hholds' := Camel.holds_fate (isWordSign_of_isHex ha') (isWordSign_of_isHex hb') w
  rw [← hfates] at hholds'
  have hnext : '%' ∉ [b'] := by simp [(ne_of_isHex hb' isHex_percent).symm]
  have hboth : '%' ∉ [a', b'] := by
    simp [(ne_of_isHex ha' isHex_percent).symm, (ne_of_isHex hb' isHex_percent).symm]
  cases hfate : fate a b v with
  | whole =>
    rw [hfate] at hholds hholds'
    obtain ⟨d, hd, hspread⟩ := hholds
    obtain ⟨d', hd', hspread'⟩ := hholds'
    have hkept : ∀ {c d : Char}, d = c ∨ d = c.toLower → d.toLower = c.toLower := by
      rintro c d (rfl | rfl)
      · rfl
      · exact Char.toLower_toLower_eq_toLower c
    rw [hspread, hspread', gap, gap, h.opensCapital_eq]
    simp only [Text.small_cons, Text.small_append, hkept hd, hkept hd', hfirst, hsecond, List.cons.injEq,
      true_and, List.append_cancel_left_eq]
    exact ih [] List.not_mem_nil
  | joined =>
    rw [hfate] at hholds hholds'
    obtain ⟨hupper, hupper₂, -⟩ := hholds
    obtain ⟨hupper', hupper₂', -⟩ := hholds'
    obtain rfl := eq_of_toLower_eq hupper hupper' hfirst
    obtain rfl := eq_of_toLower_eq hupper₂ hupper₂' hsecond
    exact ih [a', b'] hboth
  | broken =>
    rw [hfate] at hholds hholds'
    obtain rfl := eq_of_toLower_eq hholds.1 hholds'.1 hsecond
    rw [hholds.2, hholds'.2]
    simp only [Text.small_cons, hfirst, List.cons.injEq, true_and]
    exact ih [b'] hnext

/-- A percent sign parts the text, so that what is the same in front of it does not count. -/
theorem small_spread_percent (u s t : Text) :
    (spread (u ++ '%' :: s)).small = (spread (u ++ '%' :: t)).small ↔
      (spread s).small = (spread t).small := by
  have hpercent : Camel.isWordSign '%' = false := by decide
  rw [Camel.spread_sign hpercent, Camel.spread_sign hpercent]
  simp only [Text.small_append, Text.small_cons, List.append_cancel_left_eq, List.cons.injEq, true_and]

/-- **Escapes fare alike or not**: behind a part without escapes, two values are written apart to texts that
are the same but for letter case if and only if the same becomes of their escapes. -/
theorem spread_recased_iff (h : Recased v w) (hu : '%' ∉ u) :
    (spread (u ++ v)).small = (spread (u ++ w)).small ↔ fates v = fates w := by
  induction h generalizing u with
  | nil => simp
  | @cons c v w h ih =>
    by_cases hc : c = '%'
    · subst hc
      rw [small_spread_percent, fates, fates, h.fateAfter_eq, List.append_cancel_left_eq]
      exact ih List.not_mem_nil
    · have hlonger : '%' ∉ u ++ [c] := by simp [hu, Ne.symm hc]
      have hrest := ih hlonger
      simp only [List.append_assoc, List.cons_append, List.nil_append] at hrest
      simp only [fates, if_neg hc, List.nil_append]
      exact hrest
  | @escape a b a' b' v w ha hb hfirst hsecond h ih =>
    have ha' : isHex a' := isHex_of_toLower_eq hfirst ha
    have hb' : isHex b' := isHex_of_toLower_eq hsecond hb
    rw [small_spread_percent, fates_escape ha hb, fates_escape ha' hb', List.cons.injEq]
    have hbehind : fate a b v = fate a' b' w →
        ((spread (a :: b :: v)).small = (spread (a' :: b' :: w)).small ↔ fates v = fates w) :=
      fun hfate => small_spread_escape ha hb hfirst hsecond h hfate fun u hu => ih hu
    refine ⟨fun hsmall => ?_, fun ⟨hfate, hrest⟩ => (hbehind hfate).2 hrest⟩
    have hfate : fate a b v = fate a' b' w := by
      rw [fate_eq_readFate ha hb, fate_eq_readFate ha' hb', ← readFate_small, hsmall, readFate_small,
        h.opensCapital_eq]
    exact ⟨hfate, (hbehind hfate).1 hsmall⟩

end Cleaning

namespace Cleaner

open Cleaning

/-- **Values that differ in the letter case of their escapes** are written apart alike, but for letter case,
if and only if their escapes fare alike. Then they are cleaned alike in the full mode, and so they are where
words are not written apart. -/
theorem clean_recased {v w : Text} (h : Recased v w) (k : Cleaner) :
    ((Camel.spread v).small = (Camel.spread w).small ↔ fates v = fates w) ∧
      ((k.enhanced → fates v = fates w) → k.clean true v = k.clean true w) := by
  have hspread : (Camel.spread v).small = (Camel.spread w).small ↔ fates v = fates w :=
    spread_recased_iff h List.not_mem_nil
  refine ⟨hspread, fun hfates => k.clean_of_small_eq ?_⟩
  rw [split, split]
  split
  · exact hspread.2 (hfates ‹_›)
  · exact h.small

/-- The escapes of an accented letter are decoded in both letter cases. -/
theorem clean_recased_accented :
    let v : Text := "Caf%c3%a9".toList
    let w : Text := "Caf%C3%A9".toList
    let k : Cleaner := ⟨.fullClean, true⟩
    Recased v w ∧ (k.enhanced → fates v = fates w) ∧ k.clean true v = k.clean true w ∧
      k.clean true w = "cafe".toList := by
  intro v w k
  have hrecased : Recased v w :=
    .cons 'C' (.cons 'a' (.cons 'f' (.escape rfl rfl rfl rfl (.escape rfl rfl rfl rfl .nil))))
  have hfates : k.enhanced → fates v = fates w := fun _ => by decide
  exact ⟨hrecased, hfates, (clean_recased hrecased k).2 hfates, by decide +kernel⟩

/-- An escaped slash is lost if its second digit is a capital. -/
theorem clean_recased_slash :
    let v : Text := "a%2fb".toList
    let w : Text := "a%2Fb".toList
    let k : Cleaner := ⟨.fullClean, true⟩
    Recased v w ∧ k.clean true v = "a/b".toList ∧ k.clean true w = "a-2-fb".toList ∧
      k.clean true v ≠ k.clean true w := by
  intro v w k
  have hrecased : Recased v w := .cons 'a' (.escape rfl rfl rfl rfl (.cons 'b' .nil))
  exact ⟨hrecased, by decide +kernel, by decide +kernel, by decide +kernel⟩

end Cleaner

end Detour
