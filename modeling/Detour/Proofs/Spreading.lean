import Detour.Proofs.Camel
import Detour.Proofs.Ink
import Mathlib.Data.List.Forall2

/-!
# What writing words apart leaves of a text

Words are written apart in two steps, and each leaves most of a text as it is.

* Settling goes run by run (`Camel.run_induction`): every letter stays or becomes small, and the first of
  a run stays, `Camel.lowers_settleFrom` and `Camel.opener_settleFrom`.
* Hyphens are put in between a word character and a capital and nowhere else, `Camel.exists_hyphenated`,
  so that no capital stands behind a word character any more, `Camel.isChain_hyphenate`.
* `Camel.spread_of_isChain`: a text without such capitals stays as it is. From it, `Camel.spread_parted`
  has that nothing is left to be done a second time.
-/

namespace Detour

namespace Camel

variable {c : Char} {s : Text}

/-! ### Letters -/

/-- What may become of a character: it stays, or it is a capital that becomes small. -/
def Lowers (c d : Char) : Prop := d = c ∨ (c.isUpper ∧ d = c.toLower)

/-- A text run by run: what holds of the empty text, of any other character if it holds behind it, and of a
run of capitals if it holds behind that, holds of every text. -/
theorem run_induction {P : Text → Prop} (nil : P [])
    (other : ∀ c s, c.isUpper = false → P s → P (c :: s))
    (run : ∀ c m s, c.isUpper → (∀ d ∈ m, d.isUpper) → opensCapital s = false → P s →
      P (c :: m ++ s)) (s : Text) : P s := by
  induction hlength : s.length using Nat.strongRecOn generalizing s with
  | _ n ih =>
    subst hlength
    cases s with
    | nil => exact nil
    | cons c s =>
      by_cases hc : c.isUpper
      · have hshort : (s.dropWhile Char.isUpper).length < (c :: s).length :=
          Nat.lt_succ_of_le (List.dropWhile_suffix _).length_le
        have hrun := run c (s.takeWhile Char.isUpper) _ hc (fun d hd => List.mem_takeWhile_imp hd)
          (opensCapital_dropWhile s) (ih _ hshort _ rfl)
        rwa [List.cons_append, List.takeWhile_append_dropWhile] at hrun
      · exact other c s (by simpa using hc) (ih s.length (Nat.lt_succ_self _) s rfl)

/-- Any other character stays. -/
theorem settleFrom_other (hc : c.isUpper = false) (s : Text) :
    settleFrom [] (c :: s) = c :: settleFrom [] s := by
  simp [settleFrom, hc, settle]

/-- The capitals of a run stay or become small. -/
theorem lowers_settle {run : Text} (hrun : ∀ d ∈ run, d.isUpper) (next : Option Char) :
    List.Forall₂ Lowers run (settle run next) := by
  have hsmall {m : Text} (hm : ∀ d ∈ m, d.isUpper) : List.Forall₂ Lowers m (m.map Char.toLower) := by
    rw [List.forall₂_map_right_iff, List.forall₂_same]
    exact fun d hd => .inr ⟨hm d hd, rfl⟩
  cases run with
  | nil => exact .nil
  | cons first rest =>
    rw [List.forall_mem_cons] at hrun
    rw [settle]
    split
    · refine .cons (.inl rfl) ?_
      rcases List.eq_nil_or_concat rest with rfl | ⟨m, z, rfl⟩
      · exact .nil
      · have hm : ∀ d ∈ m, d.isUpper := fun d hd => hrun.2 d (by simp [hd])
        simpa using List.rel_append (hsmall hm) (.cons (.inl rfl) .nil)
    · exact .cons (.inl rfl) (hsmall hrun.2)

/-- **Letters stay or become small**, position by position. -/
theorem lowers_settleFrom (s : Text) : List.Forall₂ Lowers s (settleFrom [] s) := by
  induction s using run_induction with
  | nil => exact .nil
  | other c s hc ih =>
    rw [settleFrom_other hc]
    exact .cons (.inl rfl) ih
  | run c m s hc hm hs ih =>
    have hrun : ∀ d ∈ c :: m, d.isUpper := List.forall_mem_cons.2 ⟨hc, hm⟩
    rw [settleFrom_run hrun hs]
    exact List.rel_append (lowers_settle hrun _) ih

/-- **The first letter of a run stays.** -/
theorem opener_settleFrom {front back : Text} (hc : c.isUpper)
    (hfront : front.getLast?.any Char.isUpper = false) :
    (settleFrom [] (front ++ c :: back))[front.length]? = some c := by
  generalize htext : front ++ c :: back = s
  induction s using run_induction generalizing front with
  | nil => simp at htext
  | other d s hd ih =>
    rw [settleFrom_other hd]
    cases front with
    | nil =>
      obtain ⟨rfl, -⟩ := List.cons.inj htext
      rw [hc] at hd
      exact absurd hd (by decide)
    | cons e front =>
      obtain ⟨rfl, hrest⟩ := List.cons.inj htext
      refine ih ?_ hrest
      cases front with
      | nil => rfl
      | cons => rwa [List.getLast?_cons_cons] at hfront
  | run d m s hd hm hs ih =>
    have hrun : ∀ e ∈ d :: m, e.isUpper := List.forall_mem_cons.2 ⟨hd, hm⟩
    have hlength := (lowers_settle hrun s.head?).length_eq
    rw [settleFrom_run hrun hs]
    rcases List.append_eq_append_iff.1 htext with ⟨mid, hmid, hback⟩ | ⟨mid, rfl, hback⟩
    · cases front with
      | nil =>
        obtain ⟨rfl, -⟩ := List.cons.inj htext
        have hfirst := head?_settle (c :: m) s.head?
        rw [List.head?_eq_getElem?] at hfirst
        rw [List.length_nil, List.getElem?_append_left (by rw [← hlength]; simp), hfirst]
        rfl
      | cons e front =>
        -- what stands before the letter is a capital of the run
        have hmem : (e :: front).getLast (by simp) ∈ d :: m := by
          rw [hmid]
          exact List.mem_append_left _ (List.getLast_mem _)
        rw [List.getLast?_eq_some_getLast (by simp), Option.any_some, hrun _ hmem] at hfront
        exact absurd hfront (by decide)
    · cases mid with
      | nil =>
        rw [List.nil_append] at hback
        rw [hback] at hs
        exact absurd hc (by simpa [opensCapital] using hs)
      | cons e mid =>
        rw [List.length_append, hlength, List.getElem?_append_right (by omega), Nat.add_sub_cancel_left]
        refine ih ?_ hback.symm
        rwa [List.getLast?_append_of_ne_nil _ (by simp)] at hfront

/-! ### Hyphens -/

/-- Whether one character may stand before another in a text whose words are written apart. -/
def Parted (a b : Char) : Prop := isWordSign a → b.isUpper = false

/-- **What is put in is hyphens**, between a word character and a capital; `before` is the character before
the text. -/
theorem exists_hyphenated (before : Option Char) (s : Text) : ∃ t : Inked,
    t.letters = hyphenate before s ∧ t.own = s ∧
      ∀ pre g post, t = pre ++ g :: post → g.2.isSome →
        g.1 = '-' ∧ ((Inked.letters pre).getLast?.or before).any isWordSign ∧
          opensCapital (Inked.letters post) := by
  induction s generalizing before with
  | nil => exact ⟨[], rfl, rfl, by simp⟩
  | cons c s ih =>
    obtain ⟨t, htext, hown, hput⟩ := ih (some c)
    -- the character itself is not put in, and what is put in behind it has it in front
    have hbehind (lead : Inked) {pre : Inked} {g : Glyph} {post : Inked}
        (hsplit : Inked.bare [c] ++ t = pre ++ g :: post) (hg : g.2.isSome) :
        g.1 = '-' ∧ ((Inked.letters (lead ++ pre)).getLast?.or before).any isWordSign ∧
          opensCapital (Inked.letters post) := by
      obtain ⟨mid, rfl, hmid⟩ := Inked.exists_of_bare_append hsplit hg
      obtain ⟨hhyphen, hword, hcapital⟩ := hput mid g post hmid hg
      have hlead : Inked.letters (lead ++ (Inked.bare [c] ++ mid)) =
          Inked.letters lead ++ [c] ++ Inked.letters mid := by simp
      rw [hlead, List.getLast?_append, List.getLast?_concat, Option.or_assoc, Option.some_or]
      exact ⟨hhyphen, hword, hcapital⟩
    by_cases hgap : c.isUpper && before.any isWordSign
    · refine ⟨Inked.mark 0 ['-'] ++ (Inked.bare [c] ++ t), ?_, ?_, ?_⟩
      · simp [hyphenate, hgap, htext]
      · simp [hown]
      · rw [Bool.and_eq_true] at hgap
        rintro (_ | ⟨h, pre⟩) g post hsplit hg
        · obtain ⟨rfl, rfl⟩ := List.cons.inj hsplit
          exact ⟨rfl, hgap.2, hgap.1⟩
        · obtain ⟨rfl, hrest⟩ := List.cons.inj hsplit
          exact hbehind [('-', some 0)] hrest hg
    · refine ⟨Inked.bare [c] ++ t, ?_, ?_, fun pre g post hsplit hg => hbehind [] hsplit hg⟩
      · simp [hyphenate, hgap, htext]
      · simp [hown]

/-- What is behind a character begins with a hyphen or with what may stand there. -/
theorem parted_head?_hyphenate {d : Char} (h : (hyphenate (some c) s).head? = some d) : Parted c d := by
  intro hword
  cases s with
  | nil => simp [hyphenate] at h
  | cons e s =>
    by_cases he : e.isUpper
    · simp only [hyphenate, he, Option.any_some, hword, Bool.and_self, if_true, List.cons_append,
        List.head?_cons, Option.some.injEq] at h
      rw [← h]
      rfl
    · simp only [hyphenate, he, Bool.false_and, Bool.false_eq_true, if_false, List.nil_append,
        List.head?_cons, Option.some.injEq] at h
      rw [← h]
      simpa using he

/-- **No capital stands behind a word character any more.** -/
theorem isChain_hyphenate (before : Option Char) (s : Text) : (hyphenate before s).IsChain Parted := by
  induction s generalizing before with
  | nil => exact List.isChain_nil
  | cons c s ih =>
    have hkept : (c :: hyphenate (some c) s).IsChain Parted :=
      List.isChain_cons.2 ⟨fun d hd => parted_head?_hyphenate hd, ih (some c)⟩
    rw [hyphenate]
    split
    · exact List.isChain_cons_cons.2 ⟨fun hword => absurd hword (by decide), hkept⟩
    · exact hkept

/-- A text in which no capital stands behind a word character stays as it is. -/
theorem spread_of_isChain (h : s.IsChain Parted) : spread s = s := by
  induction s with
  | nil => rfl
  | cons c s ih =>
    by_cases hs : opensCapital s
    · -- the character in front of a capital is in no word
      have hc : isWordSign c = false := by
        cases s with
        | nil => exact absurd hs (by decide)
        | cons d s =>
          have hd : d.isUpper := hs
          rw [← Bool.not_eq_true]
          intro hword
          rw [(List.isChain_cons_cons.1 h).1 hword] at hd
          exact absurd hd (by decide)
      have hsign : spread (c :: s) = c :: spread s := spread_sign hc [] s
      rw [hsign, ih h.tail]
    · rw [spread_cons c (by simpa using hs), ih h.tail]

/-- **Words are written apart once.** The text that comes out is the text that went in, position by
position, but for capitals that have become small and for hyphens that have been put in, each between a word
character and a capital; the first letter of a run of capitals stays as it is. No capital stands behind a
word character in it, and it stays as it is when words are written apart again. -/
theorem spread_parted (s : Text) :
    (∃ t : Inked, t.letters = spread s ∧ List.Forall₂ Lowers s t.own ∧
      (∀ front c back, s = front ++ c :: back → c.isUpper → front.getLast?.any Char.isUpper = false →
        t.own[front.length]? = some c) ∧
      ∀ pre g post, t = pre ++ g :: post → g.2.isSome →
        g.1 = '-' ∧ (Inked.letters pre).getLast?.any isWordSign ∧ opensCapital (Inked.letters post)) ∧
    (spread s).IsChain (fun a b => isWordSign a → b.isUpper = false) ∧
    spread (spread s) = spread s := by
  have hchain : (spread s).IsChain Parted := isChain_hyphenate none _
  refine ⟨?_, hchain, spread_of_isChain hchain⟩
  obtain ⟨t, htext, hown, hput⟩ := exists_hyphenated none (settleFrom [] s)
  refine ⟨t, htext, hown ▸ lowers_settleFrom s, ?_, fun pre g post hsplit hg => ?_⟩
  · rintro front c back rfl hc hfront
    rw [hown]
    exact opener_settleFrom hc hfront
  · have hseam := hput pre g post hsplit hg
    rwa [Option.or_none] at hseam

end Camel

end Detour
