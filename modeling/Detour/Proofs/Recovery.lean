import Detour.Proofs.Capture

/-!
# Values recovered from a path

A path is written along a source by putting values in the place of the wildcards. Where a sign parts
every wildcard from what follows, a path splits in one way only, so that matching gives the values
back.

* `Source.fill` is the written path, and `Item.splits_fill` its split into the values.
* `Item.Separated` says that a wildcard ends the source or is followed by a sign that it never takes;
  `Item.Splits.unique` is what it is good for.
* `Source.captures_fill` puts it together with the matcher.
-/

namespace Detour

/-! ### Written paths -/

namespace Item

/-- The items with values in the place of the wildcards. -/
def fill : List Item → List Text → Text
  | [], _ => []
  | sign c :: items, vs => c :: fill items vs
  | wildcard _ :: items, v :: vs => v ++ fill items vs
  | wildcard _ :: items, [] => fill items []

/-- Every wildcard takes the value in its place. -/
def TakeAll (items : List Item) (vs : List Text) : Prop :=
  List.Forall₂ (fun w v => w.kind.Takes v) (items.filterMap wildcard?) vs

/-- A written path splits into the values that it was written with. -/
theorem splits_fill {items : List Item} {vs : List Text} (h : TakeAll items vs) :
    Splits items (fill items vs) vs := by
  induction items generalizing vs with
  | nil =>
    cases h
    exact .nil
  | cons x items ih =>
    cases x with
    | sign c =>
      have hsame : sameLetter c c := by rw [sameLetter, beq_self_eq_true]
      exact .sign hsame (ih h)
    | wildcard w =>
      have htaken : List.Forall₂ (fun w v => w.kind.Takes v)
          (w :: items.filterMap wildcard?) vs := h
      cases htaken with
      | cons hv hvs => exact .wildcard hv (ih hvs)

/-! ### Splits that are unique -/

/-- Every wildcard ends the items or is followed by a sign that occurs, in whatever letter case, in no
text that the wildcard takes. -/
inductive Separated : List Item → Prop where
  /-- no items -/
  | nil : Separated []
  /-- a sign in front -/
  | sign {a : Char} {items : List Item} : Separated items → Separated (.sign a :: items)
  /-- a wildcard that ends the items -/
  | last {w : Wildcard} : Separated [.wildcard w]
  /-- a wildcard with a sign behind it that it never takes -/
  | parted {w : Wildcard} {a : Char} {items : List Item} :
      (∀ v, w.kind.Takes v → ∀ c ∈ v, sameLetter a c = false) → Separated (.sign a :: items) →
        Separated (.wildcard w :: .sign a :: items)

/-- **A path splits along separated items in one way only.** -/
theorem Splits.unique {items : List Item} {path : Text} {vs ws : List Text} (hsep : Separated items)
    (hv : Splits items path vs) (hw : Splits items path ws) : vs = ws := by
  induction hsep generalizing path vs ws with
  | nil =>
    cases hv
    cases hw
    rfl
  | sign _ ih =>
    cases hv with
    | sign _ hv =>
      cases hw with
      | sign _ hw => exact ih hv hw
  | last =>
    -- both values are the whole path
    generalize hpath : path = whole at hv
    cases hv with
    | wildcard _ hv =>
      cases hw with
      | wildcard _ hw =>
        cases hv
        cases hw
        rw [List.append_nil, List.append_nil] at hpath
        rw [hpath]
  | parted hnever _ ih =>
    -- both values end where the sign stands first
    generalize hpath : path = whole at hv
    cases hv with
    | wildcard htakes hv =>
      cases hw with
      | wildcard htakes' hw =>
        have hv' := hv
        have hw' := hw
        cases hv with
        | sign hc hv =>
          cases hw with
          | sign hd hw =>
            obtain ⟨rfl, hrest⟩ := append_cons_inj_of_class (hnever _ htakes') (hnever _ htakes)
              hd hc hpath
            rw [hrest] at hw'
            rw [ih hv' hw']

end Item

/-! ### Recovered values -/

namespace Source

variable (s : Source)

/-- The path written along a source with values in the place of its wildcards. -/
def fill (vs : List Text) : Text := Item.fill s.items vs

/-- Every wildcard takes the value in its place. -/
def TakeAll (vs : List Text) : Prop := Item.TakeAll s.items vs

/-- Every wildcard ends the source or is followed by a sign that it never takes. -/
def Separated : Prop := Item.Separated s.items

/-- What a separated source captures from a written path are the values that it was written with. -/
theorem captures?_fill {vs : List Text} (hsep : s.Separated) (hvs : s.TakeAll vs) :
    s.expr.captures? (s.fill vs) = some vs := by
  have hfill : s.Splits (s.fill vs) vs := Item.splits_fill hvs
  cases hcaptures : s.expr.captures? (s.fill vs) with
  | none => exact absurd hfill (s.captures?_eq_none_iff.1 hcaptures vs)
  | some ws =>
    rw [Item.Splits.unique hsep (s.splits_of_captures? hcaptures) hfill]

/-- **Written paths give back their values.** A separated source is accepted exactly if its expression is
small enough, whatever the limits are, and then every path that is written along it with values that its
wildcards take is matched, and the values are captured in order. -/
theorem captures_fill [Limits] {vs : List Text} (hsep : s.Separated) (hvs : s.TakeAll vs) :
    ((∃ e, (Pattern.compile s.text).expr? = .ok e) ↔ Limits.fits s.expr) ∧
      ∀ e, (Pattern.compile s.text).expr? = .ok e → e.captures? (s.fill vs) = some vs := by
  refine ⟨s.exists_expr?_iff, fun e he => ?_⟩
  obtain ⟨rfl, -⟩ := s.expr?_compile_text_eq_ok_iff.1 he
  exact s.captures?_fill hsep hvs

/-- A year, a slash and the rest of a path, `{y:num}/{p:segments}`. -/
def dated : Source where
  items := [.wildcard ⟨['y'], .num, false⟩, .sign '/', .wildcard ⟨['p'], .segments, false⟩]
  writable := by
    simp [Item.IsWritable, Item.isSign, Wildcard.isSmall]
  unmarked := by decide

/-- The year ends at the first slash, and the rest takes the others. -/
theorem captures_fill_dated : dated.Separated ∧ dated.TakeAll ["2019".toList, "a/b-c".toList] ∧
    ∃ e, (Pattern.compile dated.text).expr? = .ok e ∧
      e.captures? "2019/a/b-c".toList = some ["2019".toList, "a/b-c".toList] := by
  have hyear : ∀ v, Kind.num.Takes v → ∀ c ∈ v, sameLetter '/' c = false := by
    intro v hv c hc
    rw [Kind.sameLetter_of_mem (by decide), decide_eq_false_iff_not]
    rintro rfl
    exact absurd (hv.2 _ hc) (by decide)
  have hsep : dated.Separated := .parted hyear (.sign .last)
  have htake : dated.TakeAll ["2019".toList, "a/b-c".toList] :=
    .cons ⟨by decide, List.all_eq_true.1 (by decide)⟩
      (.cons ⟨by decide, List.all_eq_true.1 (by decide +kernel)⟩ .nil)
  have hfill := captures_fill dated hsep htake
  obtain ⟨e, he⟩ := hfill.1.2 (by decide)
  exact ⟨hsep, htake, e, he, hfill.2 e he⟩

/-- So many segments, all of one name, with a slash behind each of them. -/
def slashed (n : Nat) : Source where
  items := (List.replicate n [.wildcard ⟨['a'], .segment, false⟩, .sign '/']).flatten
  writable := by
    intro x hx
    obtain ⟨part, hpart, hx⟩ := List.mem_flatten.1 hx
    rw [List.eq_of_mem_replicate hpart] at hx
    rcases List.mem_pair.1 hx with rfl | rfl
    · exact ⟨by simp, List.all_eq_true.1 (by decide)⟩
    · exact (by decide : Item.isSign '/' = true)
  unmarked := by
    intro h
    obtain ⟨part, hpart, hx⟩ :=
      List.mem_flatten.1 (h.subset (List.mem_cons_of_mem _ List.mem_cons_self))
    rw [List.eq_of_mem_replicate hpart] at hx
    exact absurd hx (by decide)

/-- A slash ends every segment. -/
theorem separated_slashed (n : Nat) : (slashed n).Separated := by
  have hsegment : ∀ v, Kind.segment.Takes v → ∀ c ∈ v, sameLetter '/' c = false := by
    intro v hv c hc
    rw [Kind.sameLetter_of_mem (by decide), decide_eq_false_iff_not]
    rintro rfl
    exact absurd (hv.2 _ hc) (by decide +kernel)
  change Item.Separated (List.replicate n _).flatten
  induction n with
  | zero => exact .nil
  | succ n ih => exact .parted hsegment (.sign ih)

/-- Letters may stand in the place of the segments. -/
theorem takeAll_slashed (n : Nat) : (slashed n).TakeAll (List.replicate n ['x']) := by
  change List.Forall₂ _ ((List.replicate n _).flatten.filterMap Item.wildcard?) _
  induction n with
  | zero => exact .nil
  | succ n ih => exact .cons ⟨by simp, List.all_eq_true.1 (by decide +kernel)⟩ ih

/-- Two thousand segments with a slash behind each are separated, and a path of two thousand letters
is written along them, but they are refused by every matcher that their expression is too large for, and so
by that of the program. -/
theorem expr?_slashed_refused :
    (slashed 2000).text = (List.replicate 2000 "\x7ba:segment\x7d/".toList).flatten ∧
      (slashed 2000).Separated ∧ (slashed 2000).TakeAll (List.replicate 2000 ['x']) ∧
      (∀ limits : Limits, limits.fits (slashed 2000).expr = false →
        ¬ ∃ e, (Pattern.compile (slashed 2000).text).expr? = .ok e) ∧
      ¬ ∃ e, (Pattern.compile (slashed 2000).text).expr? = .ok e := by
  refine ⟨?_, separated_slashed 2000, takeAll_slashed 2000, fun limits h => ?_, ?_⟩
  · rw [text, slashed, List.flatMap_def, List.map_flatten, List.flatten_flatten, List.map_replicate,
      List.map_replicate]
    rfl
  · rw [exists_expr?_iff, h]
    exact Bool.false_ne_true
  · have hroom : ([Item.wildcard ⟨['a'], .segment, false⟩, .sign '/'].map Item.room).sum = 47272 :=
      rfl
    have hlarge : Expr.roomLimit < (slashed 2000).room := by
      rw [room, slashed, List.map_flatten, List.map_replicate, List.sum_flatten,
        List.map_replicate, hroom, List.sum_replicate_nat]
      decide
    rw [exists_expr?_iff]
    exact Bool.eq_false_iff.1 ((slashed 2000).not_isBounded_expr hlarge)

end Source

end Detour
