import Detour.Text.Piece

/-!
# Inked texts

A text in which every character that was put in by some injection carries the number of that
injection, the *ink*. A rewriting of a text is followed on the inked text: what it finds at a place
covers some characters, which it takes out, and it leaves all others as they are.

* `Inked.cut` finds what `Text.pieces` finds, with what is covered; `Cut.place` writes the cuts back
  with something new in the place of every find.
* `Cut.length_of_place`: a character of one ink is either still there or was covered.
* `Cut.holds_place`: what stands in one piece and is not covered stays in one piece.
* `Cut.holds_place_mark`: what is put in stands in one piece.
-/

namespace Detour

/-- A character with the number of the injection that put it in. -/
abbrev Glyph := Char × Option Nat

/-- A text whose characters know where they come from. -/
abbrev Inked := List Glyph

namespace Inked

/-- The text itself. -/
def letters (t : Inked) : Text := t.map Prod.fst

/-- A text that no injection put in. -/
def bare (s : Text) : Inked := s.map fun c => (c, none)

/-- A text in the ink of an injection. -/
def mark (k : Nat) (s : Text) : Inked := s.map fun c => (c, some k)

/-- The characters of one ink. -/
def of (k : Nat) (t : Inked) : Inked := t.filter fun g => g.2 == some k

/-- The characters that no injection put in. -/
def own (t : Inked) : Text := letters (t.filter fun g => g.2.isNone)

/-- Whether a text stands somewhere in one piece, all of it in one ink. -/
def Holds (k : Nat) (s : Text) (t : Inked) : Prop := ∃ pre post, t = pre ++ mark k s ++ post

variable {k : Nat} {s : Text} {t : Inked}

@[simp] theorem letters_append (t u : Inked) : letters (t ++ u) = letters t ++ letters u :=
  List.map_append

@[simp] theorem letters_bare (s : Text) : letters (bare s) = s := by
  rw [letters, bare, List.map_map]
  exact List.map_id s

@[simp] theorem letters_mark (k : Nat) (s : Text) : letters (mark k s) = s := by
  rw [letters, mark, List.map_map]
  exact List.map_id s

@[simp] theorem own_append (t u : Inked) : own (t ++ u) = own t ++ own u := by
  rw [own, List.filter_append, letters_append]
  rfl

@[simp] theorem own_bare (s : Text) : own (bare s) = s := by
  have hall : (bare s).filter (fun g => g.2.isNone) = bare s := by
    rw [List.filter_eq_self]
    intro g hg
    obtain ⟨c, _, rfl⟩ := List.mem_map.1 hg
    rfl
  rw [own, hall, letters_bare]

@[simp] theorem own_mark (k : Nat) (s : Text) : own (mark k s) = [] := by
  have hnone : (mark k s).filter (fun g => g.2.isNone) = [] := by
    rw [List.filter_eq_nil_iff]
    intro g hg
    obtain ⟨c, _, rfl⟩ := List.mem_map.1 hg
    simp
  rw [own, hnone]
  rfl

@[simp] theorem of_append (k : Nat) (t u : Inked) : of k (t ++ u) = of k t ++ of k u :=
  List.filter_append t u

@[simp] theorem of_bare (k : Nat) (s : Text) : of k (bare s) = [] := by
  rw [of, List.filter_eq_nil_iff]
  intro g hg
  obtain ⟨c, _, rfl⟩ := List.mem_map.1 hg
  simp

@[simp] theorem of_mark_self (k : Nat) (s : Text) : of k (mark k s) = mark k s := by
  rw [of, List.filter_eq_self]
  intro g hg
  obtain ⟨c, _, rfl⟩ := List.mem_map.1 hg
  simp

theorem of_mark_ne {j k : Nat} (h : j ≠ k) (s : Text) : of k (mark j s) = [] := by
  rw [of, List.filter_eq_nil_iff]
  intro g hg
  obtain ⟨c, _, rfl⟩ := List.mem_map.1 hg
  simpa using h

@[simp] theorem length_mark (k : Nat) (s : Text) : (mark k s).length = s.length := List.length_map _

/-- What is put in behind a text stands behind all of it. -/
theorem exists_of_bare_append {pre post : Inked} {g : Glyph} (h : bare s ++ t = pre ++ g :: post)
    (hg : g.2.isSome) : ∃ mid, pre = bare s ++ mid ∧ t = mid ++ g :: post := by
  rcases List.append_eq_append_iff.1 h with ⟨mid, hpre, hmid⟩ | ⟨mid, hbare, hmid⟩
  · exact ⟨mid, hpre, hmid⟩
  cases mid with
  | nil => exact ⟨[], by rw [hbare, List.append_nil, List.append_nil], hmid.symm⟩
  | cons d mid =>
    obtain ⟨rfl, -⟩ := List.cons.inj hmid
    have hmem : g ∈ bare s := by
      rw [hbare]
      simp
    obtain ⟨c, -, rfl⟩ := List.mem_map.1 hmem
    exact absurd hg (by simp)

/-- There are no characters of an ink exactly if none of the characters has it. -/
theorem of_eq_nil_iff : of k t = [] ↔ ∀ g ∈ t, g.2 ≠ some k := by
  rw [of, List.filter_eq_nil_iff]
  simp

/-- The empty text stands everywhere. -/
theorem holds_nil (k : Nat) (t : Inked) : Holds k [] t := ⟨[], t, rfl⟩

/-- A text that stands in a part stands in the whole. -/
theorem Holds.append (h : Holds k s t) (pre post : Inked) : Holds k s (pre ++ t ++ post) := by
  obtain ⟨before, behind, rfl⟩ := h
  exact ⟨pre ++ before, behind ++ post, by simp only [List.append_assoc]⟩

/-- A text that stands in two parts of which the first has none of its ink stands in the second. -/
theorem Holds.of_append_left {lead : Inked} (h : Holds k s (lead ++ t)) (hlead : of k lead = []) :
    Holds k s t := by
  cases s with
  | nil => exact holds_nil k t
  | cons c s =>
    obtain ⟨pre, post, heq⟩ := h
    rw [List.append_assoc, List.append_eq_append_iff] at heq
    rcases heq with ⟨more, rfl, rfl⟩ | ⟨rest, rfl, heq⟩
    · exact ⟨more, post, by rw [List.append_assoc]⟩
    · -- the text begins before the second part, so its first character lies in the first
      cases rest with
      | nil =>
        rw [List.nil_append] at heq
        exact ⟨[], post, by rw [← heq, List.nil_append]⟩
      | cons g rest =>
        have hg : g = (c, some k) := by
          have := congrArg List.head? heq
          simpa [mark] using this.symm
        rw [of_append, List.append_eq_nil_iff] at hlead
        exact absurd hlead.2 (by simp [of, hg])

/-- What stands in one piece is at most all of its ink. -/
theorem Holds.length_le (h : Holds k s t) : s.length ≤ (of k t).length := by
  obtain ⟨pre, post, rfl⟩ := h
  simp only [of_append, of_mark_self, List.length_append, length_mark]
  omega

/-- What is all of its ink and stands in one piece in two parts of a text stands in the first up to
where the second begins. -/
theorem Holds.split {u : Inked} (h : Holds k s (t ++ u))
    (hall : (of k (t ++ u)).length = s.length) :
    ∃ kept, Holds k kept t ∧ s = kept ++ letters (of k u) := by
  obtain ⟨pre, post, heq⟩ := h
  obtain ⟨hpre, hpost⟩ : of k pre = [] ∧ of k post = [] := by
    rw [heq] at hall
    simp only [of_append, of_mark_self, List.length_append, length_mark] at hall
    exact ⟨List.length_eq_zero_iff.1 (by omega), List.length_eq_zero_iff.1 (by omega)⟩
  rcases List.append_eq_append_iff.1 heq with ⟨more, hmore, rfl⟩ | ⟨more, rfl, rfl⟩
  · rcases List.append_eq_append_iff.1 hmore with ⟨rest, rfl, hrest⟩ | ⟨rest, rfl, rfl⟩
    · -- the first part ends inside of the text
      obtain ⟨s₁, s₂, rfl, rfl, rfl⟩ := List.map_eq_append_iff.1 hrest
      refine ⟨s₁, ⟨pre, [], by rw [List.append_nil]; rfl⟩, ?_⟩
      change s₁ ++ s₂ = s₁ ++ letters (of k (mark k s₂ ++ post))
      simp [hpost]
    · -- the first part ends before the text begins
      rw [of_append, List.append_eq_nil_iff] at hpre
      refine ⟨[], holds_nil k t, ?_⟩
      simp [hpre.2, hpost]
  · rw [of_append, List.append_eq_nil_iff] at hpost
    exact ⟨s, ⟨pre, more, rfl⟩, by simp [hpost.2, letters]⟩

end Inked

/-! ### Cuts -/

/-- What a scan finds at one place of an inked text. -/
inductive Cut (β : Type) where
  /-- a character that belongs to no construct -/
  | plain (g : Glyph)
  /-- a construct with its meaning and the characters it covers -/
  | hit (meaning : β) (first : Glyph) (more : Inked)

namespace Cut

variable {β : Type}

/-- The characters under a cut. -/
def under : Cut β → Inked
  | plain g => [g]
  | hit _ first more => first :: more

/-- The characters that a construct covers. -/
def cover : Cut β → Inked
  | plain _ => []
  | hit _ first more => first :: more

/-- A cut without the characters it covers. -/
def piece : Cut β → Piece β
  | plain g => .plain g.1
  | hit meaning _ _ => .hit meaning

/-- The characters that constructs cover in some cuts. -/
def covers (cs : List (Cut β)) : Inked := cs.flatMap cover

/-- The constructs of some cuts replaced, numbered from `n` on. -/
def place (write : Nat → β → Inked) : (n : Nat) → List (Cut β) → Inked
  | _, [] => []
  | n, plain g :: cs => g :: place write n cs
  | n, hit meaning _ _ :: cs => write n meaning ++ place write (n + 1) cs

/-- The meanings of the constructs in some cuts. -/
def meanings (cs : List (Cut β)) : List β := Text.hits (cs.map piece)

end Cut

/-- The walk of `cut`; the first argument counts the characters that still belong to the construct
found last. -/
def Inked.cutFrom {β : Type} (form : Form β) : Nat → Inked → List (Cut β)
  | _, [] => []
  | skip + 1, _ :: t => cutFrom form skip t
  | 0, g :: t =>
    match form (letters (g :: t)) with
    | some (meaning, size) => .hit meaning g (t.take (size - 1)) :: cutFrom form (size - 1) t
    | none => .plain g :: cutFrom form 0 t

/-- The constructs of one form in an inked text, with the characters between them. -/
def Inked.cut {β : Type} (form : Form β) (t : Inked) : List (Cut β) := cutFrom form 0 t

namespace Cut

open Inked

variable {β : Type} {k n : Nat} {s : Text} {write : Nat → β → Inked} {cs : List (Cut β)}

/-- The cuts of a text lie over all of it. -/
theorem flatMap_under_cut (form : Form β) (t : Inked) : (cut form t).flatMap under = t := by
  have h : ∀ skip, (cutFrom form skip t).flatMap under = t.drop skip := by
    induction t with
    | nil => simp [cutFrom]
    | cons g t ih =>
      intro skip
      cases skip with
      | succ skip => exact ih skip
      | zero =>
        simp only [cutFrom]
        split
        · rw [List.flatMap_cons, ih, under, List.cons_append, List.take_append_drop]
          rfl
        · rw [List.flatMap_cons, ih]
          rfl
  exact h 0

/-- The constructs that are found are those of the text itself. -/
theorem map_piece_cut (form : Form β) (t : Inked) :
    (cut form t).map piece = Text.pieces form (letters t) := by
  have h : ∀ skip, (cutFrom form skip t).map piece = Text.piecesFrom form skip (letters t) := by
    induction t with
    | nil => simp [cutFrom, letters, Text.piecesFrom]
    | cons g t ih =>
      intro skip
      cases skip with
      | succ skip => exact ih skip
      | zero =>
        have hletters : letters (g :: t) = g.1 :: letters t := rfl
        simp only [cutFrom, hletters, Text.piecesFrom]
        cases form (g.1 :: letters t) with
        | none => exact congrArg (Piece.plain g.1 :: ·) (ih 0)
        | some found => exact congrArg (Piece.hit found.1 :: ·) (ih (found.2 - 1))
  exact h 0

/-- Cuts written back are the pieces written back, if the same is written for each construct. -/
theorem letters_place {put : β → Text} (h : ∀ i m, letters (write i m) = put m) :
    letters (place write n cs) = Text.render put (cs.map piece) := by
  induction cs generalizing n with
  | nil => rfl
  | cons c cs ih =>
    cases c with
    | plain g => exact congrArg (g.1 :: ·) ih
    | hit m first more =>
      rw [place, letters_append, h, ih]
      rfl

/-- A rewriting of an inked text is one of the text itself. -/
theorem letters_place_cut {form : Form β} {put : β → Text} {t : Inked}
    (h : ∀ i m, letters (write i m) = put m) :
    letters (place write n (cut form t)) = Text.rewrite form put (letters t) := by
  rw [letters_place h, map_piece_cut, Text.rewrite]

/-- A character of one ink is covered or kept, if nothing is put in with that ink. -/
theorem length_of_place
    (h : ∀ i m, n ≤ i → i < n + (meanings cs).length → of k (write i m) = []) :
    (of k (place write n cs)).length + (of k (covers cs)).length =
      (of k (cs.flatMap under)).length := by
  induction cs generalizing n with
  | nil => rfl
  | cons c cs ih =>
    cases c with
    | plain g =>
      have ih := ih h
      change (of k ([g] ++ place write n cs)).length + (of k (covers cs)).length =
        (of k ([g] ++ cs.flatMap under)).length
      rw [of_append, of_append, List.length_append, List.length_append]
      omega
    | hit m first more =>
      change ∀ i m, n ≤ i → i < n + ((meanings cs).length + 1) → of k (write i m) = [] at h
      have ih := @ih (n + 1) fun i m hlo hhi => h i m (by omega) (by omega)
      change (of k (write n m ++ place write (n + 1) cs)).length +
        (of k ((first :: more) ++ covers cs)).length =
          (of k ((first :: more) ++ cs.flatMap under)).length
      rw [of_append, of_append, of_append, h n m (by omega) (by omega), List.nil_append,
        List.length_append, List.length_append]
      omega

/-- What the text begins with and no construct covers stays at the front. -/
theorem exists_place_eq_append {post : Inked} (h : cs.flatMap under = mark k s ++ post)
    (hcovers : of k (covers cs) = []) : ∃ post', place write n cs = mark k s ++ post' := by
  induction s generalizing cs with
  | nil => exact ⟨place write n cs, rfl⟩
  | cons a s ih =>
    cases cs with
    | nil => simp [mark] at h
    | cons c cs =>
      cases c with
      | plain g =>
        obtain ⟨rfl, hrest⟩ : g = (a, some k) ∧ cs.flatMap under = mark k s ++ post := by
          simpa [under, mark] using h
        obtain ⟨post', hplace⟩ := ih hrest hcovers
        exact ⟨post', by rw [place, hplace]; rfl⟩
      | hit m first more =>
        -- the construct would cover the first character
        obtain ⟨rfl, _⟩ : first = (a, some k) ∧ _ := by
          simpa [under, mark] using h
        simp [covers, cover, of] at hcovers

/-- What stands in one piece and is not covered stays in one piece. -/
theorem holds_place (h : Holds k s (cs.flatMap under)) (hcovers : of k (covers cs) = []) :
    Holds k s (place write n cs) := by
  induction cs generalizing n with
  | nil => exact h
  | cons c cs ih =>
    cases c with
    | plain g =>
      obtain ⟨pre, post, heq⟩ := h
      cases pre with
      | nil =>
        obtain ⟨post', hplace⟩ := exists_place_eq_append heq hcovers
        exact ⟨[], post', hplace⟩
      | cons g' pre =>
        obtain ⟨_, heq⟩ : g = g' ∧ cs.flatMap under = pre ++ mark k s ++ post := by
          simpa [under] using heq
        simpa [place] using (ih ⟨pre, post, heq⟩ hcovers).append [g] []
    | hit m first more =>
      obtain ⟨hfirst, hcovers⟩ : of k (first :: more) = [] ∧ of k (covers cs) = [] := by
        simpa only [covers, List.flatMap_cons, cover, of_append, List.append_eq_nil_iff]
          using hcovers
      have hrest : Holds k s (place write (n + 1) cs) := ih (Holds.of_append_left h hfirst) hcovers
      simpa [place] using hrest.append (write n m) []

/-- Constructs cover nothing of an ink that is not there. -/
theorem of_covers_eq_nil (ht : of k (cs.flatMap under) = []) : of k (covers cs) = [] := by
  rw [of_eq_nil_iff] at ht ⊢
  intro g hg
  obtain ⟨c, hc, hcover⟩ := List.mem_flatMap.1 hg
  refine ht g (List.mem_flatMap.2 ⟨c, hc, ?_⟩)
  cases c with
  | plain g' => exact absurd hcover List.not_mem_nil
  | hit m first more => exact hcover

/-- Nothing of an ink comes in where nothing of it was and nothing of it is put in. -/
theorem of_place_eq_nil
    (h : ∀ i m, n ≤ i → i < n + (meanings cs).length → of k (write i m) = [])
    (ht : of k (cs.flatMap under) = []) : of k (place write n cs) = [] := by
  have hlength := length_of_place h
  rw [ht, List.length_nil] at hlength
  exact List.length_eq_zero_iff.1 (by omega)

/-- What is put in for a construct stands in one piece, and nothing else is in its ink. -/
theorem holds_place_mark (hn : n ≤ k) (hk : k < n + (meanings cs).length)
    (ht : of k (cs.flatMap under) = []) :
    Holds k s (place (fun i _ => mark i s) n cs) ∧
      (of k (place (fun i _ => mark i s) n cs)).length = s.length := by
  induction cs generalizing n with
  | nil => exact absurd hk (Nat.not_lt.2 hn)
  | cons c cs ih =>
    cases c with
    | plain g =>
      obtain ⟨hg, ht⟩ : of k [g] = [] ∧ of k (cs.flatMap under) = [] := by
        rw [← List.append_eq_nil_iff, ← of_append]
        exact ht
      obtain ⟨hholds, hlength⟩ := ih hn hk ht
      refine ⟨by simpa [place] using hholds.append [g] [], ?_⟩
      change (of k ([g] ++ place _ n cs)).length = s.length
      rw [of_append, hg, List.nil_append, hlength]
    | hit m first more =>
      obtain ⟨_, ht⟩ : of k (first :: more) = [] ∧ of k (cs.flatMap under) = [] := by
        rw [← List.append_eq_nil_iff, ← of_append]
        exact ht
      rw [place, of_append, List.length_append]
      by_cases hnk : n = k
      · subst hnk
        have hlater : ∀ i (_ : β), n + 1 ≤ i → i < n + 1 + (meanings cs).length →
            of n (mark i s) = [] := fun i _ hi _ => of_mark_ne (Nat.ne_of_gt hi) s
        have hrest := of_place_eq_nil hlater ht
        refine ⟨⟨[], place _ (n + 1) cs, rfl⟩, ?_⟩
        rw [of_mark_self, length_mark, hrest, List.length_nil, Nat.add_zero]
      · have hk : k < n + 1 + (meanings cs).length := by
          change k < n + ((meanings cs).length + 1) at hk
          omega
        obtain ⟨hholds, hlength⟩ := ih (Nat.lt_of_le_of_ne hn hnk) hk ht
        refine ⟨by simpa using hholds.append (mark n s) [], ?_⟩
        rw [of_mark_ne hnk, List.length_nil, Nat.zero_add, hlength]

end Cut

end Detour
