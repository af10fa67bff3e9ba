import Detour.Proofs.Anchoring
import Detour.Proofs.Capture

/-!
# Matching behind a beginning

What an expression matches behind a beginning of a text does not depend on what the beginning is, as long
as there is one and its last character is a word character or is not, since the assertions about a place
look at no more than the character before it.

* `Plan.Shifts` says that whatever one plan can do behind one position, another can do behind another;
  it is kept by everything that plans are made of, and `Plan.shifts_ofExpr` follows.
* `Level.under` puts the levels of an expression on top of others. `Expr.exists_parts_of_build?`: tokens
  that build an expression by themselves, all their bars inside of groups, add the same parts to any
  level.
* `Expr.captures?_lined`: an expression that begins with some characters reads them first.
-/

namespace Detour

/-! ### Runs behind a position -/

namespace Plan

/-- Whatever one plan can do behind position `k`, another can do behind position `l`. -/
def Shifts (k l : Nat) (p q : Plan) : Prop :=
  ∀ i j ns, p.Runs (k + i) (k + j) ns → ∃ ms, q.Runs (l + i) (l + j) ms

namespace Shifts

variable {k l : Nat} {a b p q : Plan}

/-- A character is passed where the same places are. -/
theorem step {places others : Nat} (h : ∀ i, places.testBit (k + i) = others.testBit (l + i)) :
    Shifts k l (.step places) (.step others) := by
  rintro i j ns ⟨hplace, hj, -⟩
  refine ⟨[], ?_, by omega, rfl⟩
  rwa [← h i]

/-- A place is asserted where the same places are. -/
theorem guard {places others : Nat} (h : ∀ i, places.testBit (k + i) = others.testBit (l + i)) :
    Shifts k l (.guard places) (.guard others) := by
  rintro i j ns ⟨hplace, hj, -⟩
  refine ⟨[], ?_, by omega, rfl⟩
  rwa [← h i]

/-- One plan behind the other. -/
theorem seq (ha : Shifts k l a p) (hb : Shifts k l b q) : Shifts k l (.seq a b) (.seq p q) := by
  rintro i j ns ⟨mid, ms, ls, hfirst, hsecond, -⟩
  obtain ⟨m, rfl⟩ : ∃ m, mid = k + m := Nat.exists_eq_add_of_le ((Nat.le_add_right k i).trans hfirst.le)
  obtain ⟨ms', hfirst'⟩ := ha i m ms hfirst
  obtain ⟨ls', hsecond'⟩ := hb m j ls hsecond
  exact ⟨ls' ++ ms', l + m, ms', ls', hfirst', hsecond', rfl⟩

/-- Either of two plans. -/
theorem alt (ha : Shifts k l a p) (hb : Shifts k l b q) : Shifts k l (.alt a b) (.alt p q) := by
  rintro i j ns (h | h)
  · obtain ⟨ms, hrun⟩ := ha i j ns h
    exact ⟨ms, .inl hrun⟩
  · obtain ⟨ms, hrun⟩ := hb i j ns h
    exact ⟨ms, .inr hrun⟩

/-- A loop, round by round. -/
theorem loop (ha : Shifts k l a p) : Shifts k l (.loop a) (.loop p) := by
  have hrounds : ∀ x y ns, Rounds (fun i j ms => a.Runs i j ms) x y ns → ∀ i j, x = k + i → y = k + j →
      ∃ ms, Rounds (fun i j ms => p.Runs i j ms) (l + i) (l + j) ms := by
    intro x y ns h
    induction h with
    | last h =>
      rintro i j rfl rfl
      obtain ⟨ms, hrun⟩ := ha i j _ h
      exact ⟨ms, .last hrun⟩
    | more h _ ih =>
      rintro i j rfl rfl
      obtain ⟨m, rfl⟩ := Nat.exists_eq_add_of_le ((Nat.le_add_right k i).trans h.le)
      obtain ⟨ms, hrun⟩ := ha i m _ h
      obtain ⟨ls, hmore⟩ := ih m j rfl rfl
      exact ⟨ls ++ ms, .more hrun hmore⟩
  intro i j ns h
  exact hrounds _ _ ns h i j rfl rfl

/-- A group. -/
theorem group (n : Nat) (ha : Shifts k l a p) : Shifts k l (.group n a) (.group n p) := by
  rintro i j ns ⟨ms, hrun, -⟩
  obtain ⟨ms', hrun'⟩ := ha i j ms hrun
  exact ⟨(n, l + i, l + j) :: ms', ms', hrun', rfl⟩

/-- A plan so many times, and another one behind. -/
theorem times (ha : Shifts k l a p) (hb : Shifts k l b q) (n : Nat) :
    Shifts k l (Plan.times a n b) (Plan.times p n q) := by
  induction n with
  | zero => exact hb
  | succ n ih => exact ha.seq ih

/-- A plan at most so many times. -/
theorem upTo {skip pass : Plan} (hskip : Shifts k l skip pass) (ha : Shifts k l a p) (n : Nat) :
    Shifts k l (Plan.upTo skip a n) (Plan.upTo pass p n) := by
  induction n with
  | zero => exact hskip
  | succ n ih => exact (ha.seq ih).alt hskip

/-- A repetition. -/
theorem rounds {skip pass : Plan} (hskip : Shifts k l skip pass) (ha : Shifts k l a p) (lo : Nat)
    (hi : Option Nat) : Shifts k l (Plan.rounds skip a lo hi) (Plan.rounds pass p lo hi) := by
  cases hi with
  | some hi => exact ha.times (hskip.upTo ha (hi - lo)) lo
  | none =>
    cases lo with
    | zero => exact ha.loop.alt hskip
    | succ lo => exact ha.times ha.loop lo

end Shifts

end Plan

/-! ### Texts with the same end -/

section Ends

variable {v w r : Text} {a b : Char}

/-- Behind a beginning stand the characters of the rest. -/
theorem testBit_placesOf_append (p : Char → Bool) (v r : Text) (i : Nat) :
    (placesOf p (v ++ r)).testBit (v.length + i) = (placesOf p r).testBit i := by
  rw [testBit_placesOf, testBit_placesOf, List.getElem?_append_right (Nat.le_add_right _ _),
    Nat.add_sub_cancel_left]

/-- The characters before the places behind a beginning. -/
theorem testBit_placesOf_before (p : Char → Bool) (v r : Text) (a : Char) (i : Nat) :
    (placesOf p (v ++ a :: r) <<< 1).testBit (v.length + 1 + i) =
      (placesOf p (a :: r)).testBit i := by
  rw [Nat.testBit_shiftLeft, ← testBit_placesOf_append p v (a :: r) i]
  have hpos : v.length + 1 + i ≥ 1 := by omega
  rw [decide_eq_true hpos, Bool.true_and, show v.length + 1 + i - 1 = v.length + i by omega]

/-- Behind a beginning stand the characters of the rest, behind its last character as well. -/
theorem testBit_placesOf_behind (p : Char → Bool) (v r : Text) (a : Char) (i : Nat) :
    (placesOf p (v ++ a :: r)).testBit (v.length + 1 + i) = (placesOf p r).testBit i := by
  have hsplit : v ++ a :: r = (v ++ [a]) ++ r := by simp
  have hlength : v.length + 1 = (v ++ [a]).length := by simp
  rw [hsplit, hlength, testBit_placesOf_append]

/-- Characters of a class stand before the same places if the last character of the beginning is of the
class or is not. -/
theorem testBit_placesOf_cons_congr {p : Char → Bool} (h : p a = p b) (r : Text) (i : Nat) :
    (placesOf p (a :: r)).testBit i = (placesOf p (b :: r)).testBit i := by
  rw [placesOf, placesOf, h]

/-- The places behind a beginning that belong to the text. -/
theorem testBit_allPlaces_behind (v r : Text) (a : Char) (i : Nat) :
    (allPlaces (v ++ a :: r).length).testBit (v.length + 1 + i) = decide (i ≤ r.length) := by
  rw [Bool.eq_iff_iff, testBit_allPlaces, decide_eq_true_eq, List.length_append, List.length_cons]
  omega

/-- An assertion holds at the same places behind two beginnings. -/
theorem Edge.testBit_places_behind (e : Edge) (h : isWord a = isWord b) (v w r : Text) (i : Nat) :
    (e.places (v ++ a :: r)).testBit (v.length + 1 + i) =
      (e.places (w ++ b :: r)).testBit (w.length + 1 + i) := by
  have hwords : ∀ (v : Text) (a : Char), (placesOf isWord (v ++ a :: r)).testBit (v.length + 1 + i) =
      (placesOf isWord r).testBit i := fun v a => testBit_placesOf_behind isWord v r a i
  have hbefore : (placesOf isWord (v ++ a :: r) <<< 1).testBit (v.length + 1 + i) =
      (placesOf isWord (w ++ b :: r) <<< 1).testBit (w.length + 1 + i) := by
    rw [testBit_placesOf_before, testBit_placesOf_before, testBit_placesOf_cons_congr h]
  cases e with
  | start =>
    rw [Bool.eq_iff_iff, Expr.testBit_places_start, Expr.testBit_places_start]
    omega
  | stop =>
    rw [Bool.eq_iff_iff, Expr.testBit_places_stop, Expr.testBit_places_stop, List.length_append,
      List.length_append, List.length_cons, List.length_cons]
    omega
  | wordEdge => simp only [Edge.places, Nat.testBit_xor, hwords, hbefore]
  | noWordEdge =>
    simp only [Edge.places, Nat.testBit_xor, hwords, hbefore, testBit_allPlaces_behind]
  | wordStart => simp only [Edge.places, Nat.testBit_and, Nat.testBit_xor, hwords, hbefore]
  | wordStop => simp only [Edge.places, Nat.testBit_and, Nat.testBit_xor, hwords, hbefore]

/-- **An expression does not look far back.** Behind two beginnings whose last characters are both word
characters, or both not, it can do the same. -/
theorem Plan.shifts_ofExpr (h : isWord a = isWord b) (v w r : Text) (e : Expr) :
    Shifts (v.length + 1) (w.length + 1) (ofExpr (v ++ a :: r) e) (ofExpr (w ++ b :: r) e) := by
  have hall : ∀ i, (allPlaces (v ++ a :: r).length).testBit (v.length + 1 + i) =
      (allPlaces (w ++ b :: r).length).testBit (w.length + 1 + i) := by
    intro i
    rw [testBit_allPlaces_behind, testBit_allPlaces_behind]
  induction e with
  | empty => exact .guard hall
  | one set =>
    refine .step fun i => ?_
    rw [testBit_placesOf_behind, testBit_placesOf_behind]
  | edge e => exact .guard fun i => e.testBit_places_behind h v w r i
  | seq e f ihe ihf => exact ihe.seq ihf
  | alt e f ihe ihf => exact ihe.alt ihf
  | rep lo hi e ih => exact Shifts.rounds (.guard hall) ih lo hi
  | group number e ih =>
    cases number with
    | none => exact ih
    | some n => exact ih.group n

end Ends

/-! ### Building on other levels -/

/-- The level and the levels around it, where the outermost is put on top of another level. -/
def Level.under (below : Level) (around : List Level) (level : Level) : List Level → Level × List Level
  | [] => ({ below with parts := level.parts ++ below.parts }, around)
  | parent :: outer =>
    (level, (under below around parent outer).1 :: (under below around parent outer).2)

/-- **Tokens that read by themselves** add the same parts to whatever level they stand on, if all their
bars are inside of groups. -/
theorem Expr.exists_parts_of_build? {level : Level} {outer : List Level} {next : Nat}
    {ts : List Token} {e : Expr} (h : build? level outer next ts = some e)
    (hbars : Token.areBarsInside outer.length ts) :
    ∃ parts last, ∀ (below : Level) (around : List Level) (rest : List Token),
      build? (Level.under below around level outer).1 (Level.under below around level outer).2 next
          (ts ++ rest) =
        build? { below with parts := parts ++ below.parts } around last rest := by
  induction ts generalizing level outer next with
  | nil =>
    cases outer with
    | nil => exact ⟨level.parts, next, fun _ _ _ => rfl⟩
    | cons parent outer => cases h
  | cons token ts ih =>
    -- one more part is added to the same level
    have insert {part : Expr} (h : build? (level.insert part) outer next ts = some e)
        (hbars : Token.areBarsInside outer.length ts) :
        ∃ parts last, ∀ (below : Level) (around : List Level) (rest : List Token),
          build? ((Level.under below around level outer).1.insert part)
              (Level.under below around level outer).2 next (ts ++ rest) =
            build? { below with parts := parts ++ below.parts } around last rest := by
      obtain ⟨parts, last, hall⟩ := ih h hbars
      refine ⟨parts, last, fun below around rest => ?_⟩
      rw [← hall]
      cases outer <;> rfl
    cases token with
    | literal c => exact insert h hbars
    | set a => exact insert h hbars
    | edge place => exact insert h hbars
    | rounds lo hi =>
      simp only [build?] at h
      cases hlevel : level.parts with
      | nil => simp [Level.repeatLast?, hlevel] at h
      | cons part parts =>
        simp only [Level.repeatLast?, hlevel] at h
        obtain ⟨parts, last, hall⟩ := ih h hbars
        refine ⟨parts, last, fun below around rest => ?_⟩
        rw [← hall]
        cases outer <;> simp [Level.under, build?, Level.repeatLast?, hlevel]
    | bar =>
      -- a bar is read inside of a group, so not on the level that is put on top of another
      simp only [Token.areBarsInside, Bool.and_eq_true, decide_eq_true_eq] at hbars
      cases outer with
      | nil => exact absurd hbars.1 (Nat.lt_irrefl 0)
      | cons parent outer => exact ih h hbars.2
    | opening capturing =>
      have hinside : Token.areBarsInside (level :: outer).length ts := hbars
      cases capturing with
      | false => exact ih h hinside
      | true => exact ih h hinside
    | closing =>
      cases outer with
      | nil => cases h
      | cons parent outer =>
        obtain ⟨parts, last, hall⟩ := ih h hbars
        refine ⟨parts, last, fun below around rest => ?_⟩
        rw [← hall]
        cases outer <;> rfl
    | bad => cases h

/-! ### A beginning that is written out -/

namespace Expr

/-- Characters of some sets, one behind the other, with more parts behind them. -/
def written (sets : List CharSet) (parts : List Expr) : Expr := seqAll (sets.map one ++ parts)

/-- Whether a text has one character of each of some sets. -/
def Spells (sets : List CharSet) (v : Text) : Prop := List.Forall₂ (fun set c => set.has c) sets v

/-- A text that spells some sets has as many characters. -/
theorem Spells.length {sets : List CharSet} {v : Text} (h : Spells sets v) : v.length = sets.length :=
  h.length_eq.symm

/-- **A beginning that is written out** is read character by character, and the rest behind it. -/
theorem runs_written {t : Text} {sets : List CharSet} {parts : List Expr} {i k : Nat}
    {ns : Plan.Notes} (hi : i ≤ t.length) :
    (Plan.ofExpr t (written sets parts)).Runs i k ns ↔
      ∃ v rest, t.drop i = v ++ rest ∧ Spells sets v ∧
        (Plan.ofExpr t (seqAll parts)).Runs (i + sets.length) k ns := by
  induction sets generalizing i ns with
  | nil =>
    refine ⟨fun h => ⟨[], t.drop i, rfl, .nil, h⟩, ?_⟩
    rintro ⟨_, _, _, _, h⟩
    exact h
  | cons set sets ih =>
    have hcons : written (set :: sets) parts = seqAll (.one set :: (sets.map one ++ parts)) := rfl
    have hlength : i + (set :: sets).length = i + 1 + sets.length := by
      rw [List.length_cons]
      omega
    rw [hcons, hlength, runs_seqAll_cons (Item.le_of_runs_one hi)]
    refine ⟨?_, ?_⟩
    · rintro ⟨j, ms, ls, hone, hrest, rfl⟩
      obtain ⟨rfl, c, rest, hc, hdrop, rfl⟩ := runs_one.1 hone
      obtain ⟨hj, hbehind⟩ := drop_of_drop_eq_append (v := [c]) hi hdrop
      obtain ⟨v, rest', hv, hspells, hparts⟩ := (ih hj).1 hrest
      rw [hbehind] at hv
      refine ⟨c :: v, rest', by rw [hdrop, hv, List.cons_append], .cons hc hspells, ?_⟩
      rwa [List.append_nil]
    · rintro ⟨v, rest, hdrop, hspells, hparts⟩
      cases hspells with
      | @cons _ c _ v hc hspells =>
        obtain ⟨hj, hbehind⟩ := drop_of_drop_eq_append (v := [c]) hi hdrop
        refine ⟨i + 1, [], ns, runs_one.2 ⟨rfl, c, v ++ rest, hc, hdrop, rfl⟩, ?_,
          (List.append_nil ns).symm⟩
        exact (ih hj).2 ⟨v, rest, hbehind, hspells, hparts⟩

/-- An expression that holds at both ends of a text, and begins with characters that are written out. -/
def lined (sets : List CharSet) (parts : List Expr) : Expr :=
  seqAll [.edge .start, .group none (written sets parts), .edge .stop]

/-- It matches the texts that spell the beginning and go on with the other parts. -/
theorem captures?_lined {t : Text} {sets : List CharSet} {parts : List Expr} :
    ((lined sets parts).captures? t).isSome ↔
      ∃ v rest ns, t = v ++ rest ∧ Spells sets v ∧
        (Plan.ofExpr t (seqAll parts)).Runs sets.length t.length ns := by
  rw [isSome_captures?_iff]
  refine ⟨?_, ?_⟩
  · rintro ⟨i, j, ns, -, hrun⟩
    have hends : (Plan.ofExpr t (seqAll (.edge .start :: [.group none (written sets parts)] ++
        [.edge .stop]))).Runs i j ns := hrun
    obtain ⟨rfl, rfl⟩ := covers_of_runs hends
    obtain ⟨a, ms, ls, ⟨_, rfl, rfl⟩, ⟨b, ms', ls', hmid, ⟨_, rfl, rfl⟩, rfl⟩, rfl⟩ := hrun
    obtain ⟨v, rest, hdrop, hspells, hparts⟩ := (runs_written (Nat.zero_le _)).1 hmid
    rw [List.drop_zero] at hdrop
    rw [Nat.zero_add] at hparts
    exact ⟨v, rest, _, hdrop, hspells, hparts⟩
  · rintro ⟨v, rest, ns, ht, hspells, hparts⟩
    have hmid : (Plan.ofExpr t (written sets parts)).Runs 0 t.length ns :=
      (runs_written (Nat.zero_le _)).2 ⟨v, rest, ht, hspells, by rwa [Nat.zero_add]⟩
    have hstart : (Plan.ofExpr t (.edge .start)).Runs 0 0 [] :=
      ⟨(testBit_places_start t 0).2 rfl, rfl, rfl⟩
    have hstop : (Plan.ofExpr t (.edge .stop)).Runs t.length t.length [] :=
      ⟨(testBit_places_stop t t.length).2 rfl, rfl, rfl⟩
    exact ⟨0, t.length, _, Nat.le_refl _, 0, [], _, hstart, ⟨t.length, ns, [], hmid, hstop, rfl⟩, rfl⟩

end Expr

end Detour
