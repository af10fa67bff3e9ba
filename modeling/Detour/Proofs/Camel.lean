import Detour.Rewrite.Camel
import Mathlib

/-!
# Words written apart

What `Camel.spread` makes of a text, place by place.

* A sign that is in no word parts the text: `Camel.spread_sign`.
* A character before a small one stays as it is: `Camel.spread_cons`. Before a capital it gets a hyphen
  behind it, if it is a small letter or a digit: `Camel.spread_cons_capital`.
* A run of capitals becomes one word or, if a word goes on behind it, one word and the capital of the
  next: `Camel.spread_run_end` and `Camel.spread_run_word`.

Whatever stands there, the first character stays and the second is the same letter, unless it is the
hyphen that has come in: `Camel.head?_spread`, `Camel.second_spread`. `Camel.Fate` tells apart what may
become of two word characters, and `Camel.holds_fate` what the text then begins with.
-/

namespace Detour

namespace Camel

variable {c : Char} {run s t : Text}

/-! ### Runs of capitals -/

/-- Whether a text begins with a capital. -/
def opensCapital (s : Text) : Bool := s.head?.any Char.isUpper

/-- A capital is in a word. -/
theorem isWordSign_of_isUpper (h : c.isUpper) : isWordSign c := by
  simp [isWordSign, Char.isAlphanum, Char.isAlpha, h]

/-- The small letter of a capital is in a word. -/
theorem isWordSign_toLower (h : c.isUpper) : isWordSign c.toLower := by
  have hletter : c.toLower.isLower := by
    rw [Char.isLower_toLower_eq_isAlpha]
    simp [Char.isAlpha, h]
  simp [isWordSign, Char.isAlphanum, Char.isAlpha, hletter]

/-- A sign that is in no word is no capital. -/
theorem not_isUpper_of_not_word (h : isWordSign c = false) : c.isUpper = false := by
  rw [← Bool.not_eq_true]
  intro hupper
  rw [isWordSign_of_isUpper hupper] at h
  exact absurd h (by decide)

/-- Behind its leading capitals a text does not begin with one. -/
theorem opensCapital_dropWhile (s : Text) : opensCapital (s.dropWhile Char.isUpper) = false := by
  induction s with
  | nil => rfl
  | cons c s ih =>
    rw [List.dropWhile_cons]
    split
    · exact ih
    · rename_i hsmall
      simpa [opensCapital] using hsmall

/-- Before a sign that is in no word a run ends as it does at the end of the text. -/
theorem settle_of_not_word {next : Option Char} (h : next.any isWordSign = false) :
    settle run next = settle run none := by
  cases run with
  | nil => rfl
  | cons first rest => simp [settle, h]

/-- A settled run keeps its first capital. -/
theorem head?_settle (run : Text) (next : Option Char) : (settle run next).head? = run.head? := by
  cases run with
  | nil => rfl
  | cons first rest =>
    rw [settle]
    split <;> rfl

/-- A capital that stands alone stays. -/
theorem settle_singleton (c : Char) (next : Option Char) : settle [c] next = [c] := by
  rw [settle]
  split <;> rfl

/-- A run is settled as a whole. -/
theorem settleFrom_append {r : Text} (hr : ∀ c ∈ r, c.isUpper) (hs : opensCapital s = false) :
    settleFrom run (r ++ s) = settle (run.reverse ++ r) s.head? ++ settleFrom [] s := by
  induction r generalizing run with
  | nil =>
    cases s with
    | nil => simp [settleFrom, settle]
    | cons c s =>
      have hc : c.isUpper = false := hs
      simp [settleFrom, settle, hc]
  | cons c r ih =>
    have hc : c.isUpper := hr c List.mem_cons_self
    rw [List.cons_append, settleFrom, if_pos hc, ih fun d hd => hr d (List.mem_cons_of_mem c hd),
      List.reverse_cons, List.append_assoc]
    rfl

/-- A run at the front of a text is settled as a whole. -/
theorem settleFrom_run (hrun : ∀ c ∈ run, c.isUpper) (hs : opensCapital s = false) :
    settleFrom [] (run ++ s) = settle run s.head? ++ settleFrom [] s := settleFrom_append hrun hs

/-- Settling keeps the first character. -/
theorem head?_settleFrom (run s : Text) : (settleFrom run s).head? = (run.reverse ++ s).head? := by
  induction s generalizing run with
  | nil => rw [settleFrom, head?_settle, List.append_nil]
  | cons c s ih =>
    rw [settleFrom]
    split
    · rw [ih, List.reverse_cons, List.append_assoc]
      rfl
    · rw [List.head?_append, List.head?_append, head?_settle]
      rfl

/-- A sign that is in no word parts a text. -/
theorem settleFrom_sign (hc : isWordSign c = false) (s t : Text) :
    settleFrom run (s ++ c :: t) = settleFrom run s ++ c :: settleFrom [] t := by
  have hsmall : c.isUpper = false := not_isUpper_of_not_word hc
  induction s generalizing run with
  | nil =>
    have hnext : (some c).any isWordSign = false := hc
    simp [settleFrom, hsmall, settle_of_not_word hnext]
  | cons d s ih =>
    rw [List.cons_append, settleFrom, settleFrom]
    split
    · exact ih
    · rw [ih, List.append_assoc, List.cons_append]

/-! ### Hyphens -/

/-- What stands before a text counts only if the text begins with a capital. -/
theorem hyphenate_before (h : opensCapital s = false) (b d : Option Char) :
    hyphenate b s = hyphenate d s := by
  cases s with
  | nil => rfl
  | cons c s =>
    have hc : c.isUpper = false := h
    simp [hyphenate, hc]

/-- A sign that is in no word parts a text. -/
theorem hyphenate_sign (hc : isWordSign c = false) (before : Option Char) (s t : Text) :
    hyphenate before (s ++ c :: t) = hyphenate before s ++ c :: hyphenate none t := by
  have hsmall : c.isUpper = false := not_isUpper_of_not_word hc
  induction s generalizing before with
  | nil =>
    have hbehind : hyphenate (some c) t = hyphenate none t := by
      cases t with
      | nil => rfl
      | cons d t => simp [hyphenate, hc]
    simp [hyphenate, hsmall, hbehind]
  | cons d s ih => simp only [List.cons_append, hyphenate, ih, List.append_assoc]

/-- Characters that are no capitals stay as they are. -/
theorem hyphenate_append_small (hs : ∀ c ∈ s, c.isUpper = false) (before : Option Char) (t : Text) :
    hyphenate before (s ++ t) = s ++ hyphenate (s.getLast?.or before) t := by
  induction s generalizing before with
  | nil => rfl
  | cons c s ih =>
    have hlast : s.getLast?.or (some c) = ((c :: s).getLast?).or before := by
      rw [List.getLast?_cons]
      cases s.getLast? <;> rfl
    rw [List.cons_append, hyphenate, ih fun d hd => hs d (List.mem_cons_of_mem c hd), hlast,
      hs c List.mem_cons_self]
    rfl

/-! ### Both together -/

/-- **A sign that is in no word parts a text.** -/
theorem spread_sign (hc : isWordSign c = false) (s t : Text) :
    spread (s ++ c :: t) = spread s ++ c :: spread t := by
  rw [spread, settleFrom_sign hc, hyphenate_sign hc]
  rfl

/-- The first character stays. -/
theorem head?_spread (s : Text) : (spread s).head? = s.head? := by
  have hkept : (settleFrom [] s).head? = s.head? := head?_settleFrom [] s
  rw [spread]
  cases hsettled : settleFrom [] s with
  | nil => rwa [hsettled] at hkept
  | cons c u =>
    rw [hsettled] at hkept
    simpa [hyphenate] using hkept

/-- A character before anything but a capital stays as it is. -/
theorem spread_cons (c : Char) (hs : opensCapital s = false) : spread (c :: s) = c :: spread s := by
  have hsettled : settleFrom [] (c :: s) = c :: settleFrom [] s := by
    by_cases hc : c.isUpper
    · have hlone : ∀ d ∈ [c], d.isUpper := fun d hd => List.mem_singleton.1 hd ▸ hc
      have hrun := settleFrom_run hlone hs
      rwa [settle_singleton] at hrun
    · simp [settleFrom, hc, settle]
  have hbehind : opensCapital (settleFrom [] s) = false := by
    rw [opensCapital, head?_settleFrom [] s]
    exact hs
  rw [spread, hsettled, hyphenate, hyphenate_before hbehind (some c) none]
  simp [spread]

/-- A word character that is no capital gets a hyphen behind it if a capital follows. -/
theorem spread_cons_capital (hword : isWordSign c) (hc : c.isUpper = false) (hs : opensCapital s) :
    spread (c :: s) = c :: '-' :: spread s := by
  have hsettled : settleFrom [] (c :: s) = c :: settleFrom [] s := by simp [settleFrom, hc, settle]
  have hbehind : opensCapital (settleFrom [] s) := by
    rw [opensCapital, head?_settleFrom [] s]
    exact hs
  rw [spread, hsettled, spread]
  cases hrest : settleFrom [] s with
  | nil =>
    rw [hrest] at hbehind
    exact absurd hbehind (by decide)
  | cons d u =>
    rw [hrest] at hbehind
    have hd : d.isUpper := hbehind
    simp [hyphenate, hc, hd, hword]

/-- A run of capitals with no word behind it becomes one word. -/
theorem spread_run_end {m : Text} (hc : c.isUpper) (hm : ∀ d ∈ m, d.isUpper)
    (hs : opensCapital s = false) (hword : s.head?.any isWordSign = false) :
    spread (c :: (m ++ s)) = c :: (m.map Char.toLower ++ spread s) := by
  have hcapitals : ∀ d ∈ c :: m, d.isUpper := List.forall_mem_cons.2 ⟨hc, hm⟩
  have hrun := settleFrom_run hcapitals hs
  have hsettled : settleFrom [] (c :: (m ++ s)) = c :: (m.map Char.toLower ++ settleFrom [] s) := by
    rw [← List.cons_append, hrun]
    simp [settle, hword]
  have hbehind : opensCapital (settleFrom [] s) = false := by
    rw [opensCapital, head?_settleFrom [] s]
    exact hs
  have hsmall : ∀ d ∈ m.map Char.toLower, d.isUpper = false := by simp
  rw [spread, hsettled, hyphenate, hyphenate_append_small hsmall, hyphenate_before hbehind _ none]
  simp [spread]

/-- A run of capitals before the rest of a word becomes one word, and its last capital begins the
next. -/
theorem spread_run_word {m : Text} {z : Char} (hc : c.isUpper) (hm : ∀ d ∈ m, d.isUpper)
    (hz : z.isUpper) (hs : opensCapital s = false) (hword : s.head?.any isWordSign) :
    spread (c :: (m ++ z :: s)) = c :: (m.map Char.toLower ++ '-' :: z :: spread s) := by
  have hcapitals : ∀ d ∈ c :: (m ++ [z]), d.isUpper := by
    intro d hd
    rw [List.mem_cons, List.mem_append, List.mem_singleton] at hd
    rcases hd with rfl | hd | rfl
    · exact hc
    · exact hm d hd
    · exact hz
  have hrun := settleFrom_run hcapitals hs
  have hsettled : settleFrom [] (c :: (m ++ z :: s)) =
      c :: (m.map Char.toLower ++ z :: settleFrom [] s) := by
    have hsplit : c :: (m ++ z :: s) = c :: (m ++ [z]) ++ s := by simp
    rw [hsplit, hrun]
    simp [settle, hword]
  have hbehind : opensCapital (settleFrom [] s) = false := by
    rw [opensCapital, head?_settleFrom [] s]
    exact hs
  have hsmall : ∀ d ∈ m.map Char.toLower, d.isUpper = false := by simp
  -- what stands before the last capital is in a word, be it a small letter or the first capital
  have hlast : ((m.map Char.toLower).getLast?.or (some c)).any isWordSign := by
    cases hend : (m.map Char.toLower).getLast? with
    | none => exact isWordSign_of_isUpper hc
    | some d =>
      obtain ⟨e, he, rfl⟩ := List.mem_map.1 (List.mem_of_getLast? hend)
      exact isWordSign_toLower (hm e he)
  rw [spread, hsettled, hyphenate, hyphenate_append_small hsmall, hyphenate, hlast, hz,
    hyphenate_before hbehind _ none]
  simp [spread]

/-- A text without capitals stays as it is. -/
theorem spread_of_small (h : ∀ c ∈ s, c.isUpper = false) : spread s = s := by
  induction s with
  | nil => rfl
  | cons c s ih =>
    have hs : opensCapital s = false := by
      cases s with
      | nil => rfl
      | cons d s => exact h d (by simp)
    rw [spread_cons c hs, ih fun d hd => h d (List.mem_cons_of_mem c hd)]

/-- Hyphens are all that comes in. -/
theorem mem_hyphenate {before : Option Char} (h : c ∈ hyphenate before s) : c = '-' ∨ c ∈ s := by
  induction s generalizing before with
  | nil => exact .inr h
  | cons d s ih =>
    simp only [hyphenate, List.mem_append, List.mem_cons] at h
    rcases h with h | rfl | h
    · split at h
      · exact .inl (List.mem_singleton.1 h)
      · exact absurd h List.not_mem_nil
    · exact .inr List.mem_cons_self
    · exact (ih h).imp_right (List.mem_cons_of_mem d)

/-- A settled run has its own letters, or the small ones for them. -/
theorem mem_settle {next : Option Char} (h : c ∈ settle run next) :
    ∃ d ∈ run, c = d ∨ c = d.toLower := by
  cases run with
  | nil => exact absurd h List.not_mem_nil
  | cons first rest =>
    have hrest : c ∈ rest ∨ c ∈ rest.map Char.toLower → ∃ d ∈ first :: rest, c = d ∨ c = d.toLower := by
      rintro (hc | hc)
      · exact ⟨c, List.mem_cons_of_mem first hc, .inl rfl⟩
      · obtain ⟨d, hd, rfl⟩ := List.mem_map.1 hc
        exact ⟨d, List.mem_cons_of_mem first hd, .inr rfl⟩
    rw [settle] at h
    split at h
    · rcases List.mem_cons.1 h with rfl | h
      · exact ⟨c, List.mem_cons_self, .inl rfl⟩
      rcases List.mem_append.1 h with h | h
      · exact hrest (.inr (List.map_subset _ (List.dropLast_subset rest) h))
      · exact hrest (.inl (List.mem_of_getLast? (Option.mem_toList.1 h)))
    · rcases List.mem_cons.1 h with rfl | h
      · exact ⟨c, List.mem_cons_self, .inl rfl⟩
      · exact hrest (.inr h)

/-- A text with settled runs has its own letters, or the small ones for them. -/
theorem mem_settleFrom (h : c ∈ settleFrom run s) : ∃ d ∈ run.reverse ++ s, c = d ∨ c = d.toLower := by
  induction s generalizing run with
  | nil =>
    rw [List.append_nil]
    exact mem_settle h
  | cons d s ih =>
    rw [settleFrom] at h
    split at h
    · obtain ⟨e, he, hc⟩ := ih h
      refine ⟨e, ?_, hc⟩
      simpa using he
    · rcases List.mem_append.1 h with h | h
      · obtain ⟨e, he, hc⟩ := mem_settle h
        exact ⟨e, List.mem_append_left _ he, hc⟩
      rcases List.mem_cons.1 h with rfl | h
      · exact ⟨c, by simp, .inl rfl⟩
      · obtain ⟨e, he, hc⟩ := ih h
        exact ⟨e, List.mem_append_right _ (List.mem_cons_of_mem d he), hc⟩

/-- **A text written apart has its own letters, or the small ones for them, and hyphens.** -/
theorem mem_spread (h : c ∈ spread s) : c = '-' ∨ ∃ d ∈ s, c = d ∨ c = d.toLower := by
  rcases mem_hyphenate h with hc | hc
  · exact .inl hc
  · exact .inr (mem_settleFrom hc)

/-! ### Two characters that stand together -/

/-- What may become of two word characters that stand together behind a sign. -/
inductive Fate where
  /-- they stay together, and a capital behind them begins a word -/
  | whole
  /-- they stay together, and the capitals behind them are drawn to their word -/
  | joined
  /-- a hyphen comes between them -/
  | broken
deriving Repr, DecidableEq

/-- What becomes of two word characters, by the capitals behind them. -/
def fate (a b : Char) (s : Text) : Fate :=
  let run := s.takeWhile Char.isUpper
  let goesOn := (s.dropWhile Char.isUpper).head?.any isWordSign
  if !b.isUpper then .whole
  else if !a.isUpper then .broken
  else if run.isEmpty then if goesOn then .broken else .whole
  else if goesOn && run.length == 1 then .whole
  else .joined

/-- The hyphen before a capital behind a word character. -/
def gap (s : Text) : Text := if opensCapital s then ['-'] else []

/-- What a fate says of a text that begins with two word characters. -/
def Fate.Holds (a b : Char) (s : Text) : Fate → Prop
  | .whole => ∃ d, (d = b ∨ d = b.toLower) ∧ spread (a :: b :: s) = a :: d :: (gap s ++ spread s)
  | .joined => a.isUpper ∧ b.isUpper ∧ opensCapital s ∧
    ∃ c u, c.isUpper = false ∧ c ≠ '-' ∧ spread (a :: b :: s) = a :: b.toLower :: c :: u
  | .broken => b.isUpper ∧ spread (a :: b :: s) = a :: '-' :: spread (b :: s)

/-- A word character that is no capital stays, and a capital behind it begins a word. -/
theorem spread_cons_word (hword : isWordSign c) (hc : c.isUpper = false) (s : Text) :
    spread (c :: s) = c :: (gap s ++ spread s) := by
  by_cases hs : opensCapital s
  · rw [spread_cons_capital hword hc hs, gap, if_pos hs]
    rfl
  · rw [spread_cons c (by simpa using hs), gap, if_neg hs]
    rfl

/-- The small letter of a capital is no hyphen. -/
theorem toLower_ne_hyphen (h : c.isUpper) : c.toLower ≠ '-' := by
  intro heq
  have hword := isWordSign_toLower h
  rw [heq] at hword
  exact absurd hword (by decide)

/-- Two capitals before a text fare as their fate says. -/
theorem holds_fate_capitals {a b : Char} (ha : a.isUpper) (hb : b.isUpper) (s : Text) :
    (fate a b s).Holds a b s := by
  obtain ⟨run, rest, hs, hrun, hrest, htake, hdrop⟩ : ∃ run rest, s = run ++ rest ∧
      (∀ c ∈ run, c.isUpper) ∧ opensCapital rest = false ∧ s.takeWhile Char.isUpper = run ∧
      s.dropWhile Char.isUpper = rest :=
    ⟨_, _, List.takeWhile_append_dropWhile.symm, fun _ hc => List.mem_takeWhile_imp hc,
      opensCapital_dropWhile s, rfl, rfl⟩
  have hnone : ∀ d ∈ ([] : Text), d.isUpper := fun d hd => absurd hd List.not_mem_nil
  have hlone : ∀ d ∈ [b], d.isUpper := fun d hd => List.mem_singleton.1 hd ▸ hb
  simp only [fate, htake, hdrop, ha, hb, Bool.not_true, Bool.false_eq_true, if_false]
  clear htake hdrop
  subst hs
  by_cases hword : rest.head?.any isWordSign
  swap
  · -- the run ends with its word
    have hend : rest.head?.any isWordSign = false := by simpa using hword
    cases run with
    | nil =>
      have hspread := spread_run_end ha hlone hrest hend
      simp only [hend, List.isEmpty_nil, Bool.false_eq_true, if_true, if_false, List.nil_append]
      refine ⟨b.toLower, .inr rfl, ?_⟩
      rw [gap, hrest]
      exact hspread
    | cons c run =>
      have hc : c.isUpper := hrun c List.mem_cons_self
      have hspread := spread_run_end (m := b :: c :: run) ha
        (fun d hd => (List.mem_cons.1 hd).elim (fun h => h ▸ hb) (hrun d)) hrest hend
      simp only [hend, List.isEmpty_cons, Bool.false_and, Bool.false_eq_true, if_false]
      exact ⟨ha, hb, hc, c.toLower, _, Char.isUpper_toLower_eq_false c, toLower_ne_hyphen hc, hspread⟩
  · -- the last capital of the run begins the next word
    cases run with
    | nil =>
      have hspread := spread_run_word ha hnone hb hrest hword
      simp only [hword, List.isEmpty_nil, if_true, List.nil_append]
      refine ⟨hb, ?_⟩
      rw [spread_cons b hrest]
      exact hspread
    | cons c run =>
      have hc : c.isUpper := hrun c List.mem_cons_self
      simp only [hword, List.isEmpty_cons, Bool.true_and, Bool.false_eq_true, if_false]
      rcases List.eq_nil_or_concat run with rfl | ⟨middle, z, rfl⟩
      · have hspread := spread_run_word ha hlone hc hrest hword
        have hopens : opensCapital ([c] ++ rest) := hc
        refine ⟨b.toLower, .inr rfl, ?_⟩
        rw [gap, if_pos hopens]
        change _ = a :: b.toLower :: '-' :: spread (c :: rest)
        rw [spread_cons c hrest]
        exact hspread
      · have hz : z.isUpper := hrun z (by simp)
        have hmiddle : ∀ d ∈ b :: c :: middle, d.isUpper := by
          intro d hd
          rcases List.mem_cons.1 hd with rfl | hd
          · exact hb
          rcases List.mem_cons.1 hd with rfl | hd
          · exact hc
          · exact hrun d (by simp [hd])
        have hspread := spread_run_word ha hmiddle hz hrest hword
        have hlong : ((c :: middle.concat z).length == 1) = false := by simp
        have hsplit : a :: (b :: c :: middle ++ z :: rest) = a :: b :: (c :: middle.concat z ++ rest) := by
          simp
        rw [hsplit] at hspread
        rw [hlong]
        exact ⟨ha, hb, hc, c.toLower, _, Char.isUpper_toLower_eq_false c, toLower_ne_hyphen hc, hspread⟩

/-- **Two word characters fare as their fate says.** -/
theorem holds_fate {a b : Char} (ha : isWordSign a) (hb : isWordSign b) (s : Text) :
    (fate a b s).Holds a b s := by
  by_cases hb' : b.isUpper
  swap
  · have hsmall : b.isUpper = false := by simpa using hb'
    simp only [fate, hsmall, Bool.not_false, if_true]
    have hopens : opensCapital (b :: s) = false := hsmall
    refine ⟨b, .inl rfl, ?_⟩
    rw [spread_cons a hopens, spread_cons_word hb hsmall]
  by_cases ha' : a.isUpper
  swap
  · have hsmall : a.isUpper = false := by simpa using ha'
    simp only [fate, hsmall, hb', Bool.not_true, Bool.not_false, Bool.false_eq_true, if_true, if_false]
    exact ⟨hb', spread_cons_capital ha hsmall hb'⟩
  · exact holds_fate_capitals ha' hb' s

/-- **The second character** stays, or is made small, or is a hyphen that has come in. -/
theorem second_spread {a b d : Char} {u : Text} (ha : isWordSign a)
    (h : spread (a :: b :: s) = a :: d :: u) : d = b ∨ d = b.toLower ∨ d = '-' := by
  by_cases hb : b.isUpper
  swap
  · have hopens : opensCapital (b :: s) = false := by simpa [opensCapital] using hb
    have hfirst := head?_spread (b :: s)
    rw [spread_cons a hopens] at h
    rw [(List.cons.inj h).2] at hfirst
    exact .inl (Option.some.inj hfirst)
  have hholds := holds_fate ha (isWordSign_of_isUpper hb) s
  cases hfate : fate a b s with
  | whole =>
    rw [hfate] at hholds
    obtain ⟨e, he, hspread⟩ := hholds
    obtain rfl : e = d := (List.cons.inj (List.cons.inj (hspread.symm.trans h)).2).1
    exact he.imp_right .inl
  | joined =>
    rw [hfate] at hholds
    obtain ⟨-, -, -, c, v, -, -, hspread⟩ := hholds
    exact .inr (.inl (List.cons.inj (List.cons.inj (hspread.symm.trans h)).2).1.symm)
  | broken =>
    rw [hfate] at hholds
    obtain ⟨-, hspread⟩ := hholds
    exact .inr (.inr (List.cons.inj (List.cons.inj (hspread.symm.trans h)).2).1.symm)

/-- A sign that is in no word comes from the text itself, and so does what stands behind it. -/
theorem exists_of_spread {pre rest : Text} (hc : isWordSign c = false) (hne : c ≠ '-')
    (h : spread s = pre ++ c :: rest) : ∃ front back, s = front ++ c :: back ∧ spread back = rest := by
  have hnew : ∀ {t : Text}, c ∈ spread t → c ∈ t := by
    intro t ht
    obtain ⟨d, hd, rfl | rfl⟩ := (mem_spread ht).resolve_left hne
    · exact hd
    · by_cases hupper : d.isUpper
      · rw [isWordSign_toLower hupper] at hc
        exact absurd hc (by decide)
      · rwa [Char.toLower_eq_of_not_isUpper hupper]
  induction hlength : s.length using Nat.strongRecOn generalizing s pre with
  | _ n ih =>
    subst hlength
    have hmem : c ∈ s := hnew (by rw [h]; simp)
    obtain ⟨front, back, rfl, hfront⟩ := List.eq_append_cons_of_mem hmem
    rw [spread_sign hc] at h
    rcases List.append_eq_append_iff.1 h with ⟨mid, rfl, hback⟩ | ⟨mid, hmid, hback⟩
    · cases mid with
      | nil => exact ⟨front, back, rfl, (List.cons.inj hback).2⟩
      | cons d mid =>
        -- the sign stands further behind
        obtain ⟨rfl, hrest⟩ := List.cons.inj hback
        have hshort : back.length < (front ++ c :: back).length := by
          rw [List.length_append, List.length_cons]
          omega
        obtain ⟨first, last, rfl, hlast⟩ := ih _ hshort hrest rfl
        exact ⟨front ++ c :: first, last, by simp, hlast⟩
    · cases mid with
      | nil => exact ⟨front, back, rfl, (List.cons.inj hback).2.symm⟩
      | cons d mid =>
        obtain ⟨rfl, -⟩ := List.cons.inj hback
        exact absurd (hnew (by rw [hmid]; simp)) hfront

end Camel

end Detour
