import Detour.Proofs.Script

/-!
# When the mark of the entry script makes no difference

A source and a request are both marked, each by its own rule: the source wherever it has the entry script,
in small letters; the request if it begins with it, in small letters as well, and goes on behind it. The
mark makes no difference if the marked source matches the marked request exactly if the two match without
it.

* `Target.ofPath_path` and `Target.GoesOn`: which requests are marked.
* `Expr.captures?_lined_swap`: an expression that begins with the marked script matches behind the marked
  script what the other matches behind the bare one.
* `Item.Splits.swap`: what a wildcard takes may hold the mark or not, if the wildcard does not end within
  it.
* `Pattern.matches_marked` puts them together, and `Pattern.matches_marked_capital` is a request in capital
  letters, which is not marked.
-/

namespace Detour

open Wildcard

/-! ### Requests -/

namespace Target

/-- Whether a path goes on behind the entry script, with a query or with more of a path. -/
def GoesOn (path : Text) : Prop := ∃ c rest, path = entryScript ++ c :: rest ∧ (c = '?' ∨ c = '/')

/-- A path that goes on behind the entry script has the script marked, and another one stays as it is. -/
theorem ofPath_path {path p : Text} (h : ofPath path = .path p) :
    (∃ c rest, path = entryScript ++ c :: rest ∧ (c = '?' ∨ c = '/') ∧ p = markedEntry ++ c :: rest) ∨
      ¬ GoesOn path ∧ p = path := by
  rw [ofPath] at h
  split at h
  · cases h
  · split at h
    · rename_i c rest hafter
      have hpath := Text.after?_eq_some_iff.1 hafter
      split at h
      · rename_i hc
        exact .inl ⟨c, rest, hpath, by simpa using hc, (Target.path.inj h).symm⟩
      · rename_i hc
        refine .inr ⟨?_, (Target.path.inj h).symm⟩
        rintro ⟨d, more, hmore, hd⟩
        obtain ⟨rfl, -⟩ := List.cons.inj (List.append_cancel_left (hpath.symm.trans hmore))
        exact hc (by simpa using hd)
    · rename_i hnone
      refine .inr ⟨?_, (Target.path.inj h).symm⟩
      rintro ⟨d, more, hmore, -⟩
      exact hnone d more (Text.after?_eq_some_iff.2 hmore)

end Target

/-! ### Expressions -/

namespace Expr

/-- Beginnings that are written out are no part of how deep the rest is nested. -/
theorem depthBelow_written (sets : List CharSet) (parts : List Expr) :
    depthBelow .sequence (written sets parts) = depthBelow .sequence (seqAll parts) := by
  induction sets with
  | nil => rfl
  | cons set sets ih =>
    have hcons : written (set :: sets) parts = seqAll (.one set :: (sets.map one ++ parts)) := rfl
    rw [← ih, hcons, written]
    cases sets.map one ++ parts with
    | nil => rfl
    | cons e es => simp [seqAll, depthBelow]

/-- A beginning takes its own room. -/
theorem room_written (sets : List CharSet) (parts : List Expr) :
    (written sets parts).room = (sets.map CharSet.room).sum + (seqAll parts).room := by
  rw [written, room_seqAll, room_seqAll, List.map_append, List.sum_append, List.map_map]
  rfl

/-- An expression keeps within the bounds with a beginning that takes less room. -/
theorem isBounded_lined {a b a' b' : CharSet} {sets others : List CharSet} {parts : List Expr}
    (hroom : ((a' :: b' :: others).map CharSet.room).sum ≤ ((a :: b :: sets).map CharSet.room).sum)
    (h : (lined (a :: b :: sets) parts).isBounded) : (lined (a' :: b' :: others) parts).isBounded := by
  have hdepth (a b : CharSet) (sets : List CharSet) : (lined (a :: b :: sets) parts).depth =
      depthBelow .sequence (seqAll parts) + 3 := by
    have hinside : depthBelow .none (written (a :: b :: sets) parts) =
        depthBelow .sequence (written (b :: sets) parts) + 1 := by
      simp [written, seqAll, depthBelow]
    rw [depth, lined, ← depthBelow_written (b :: sets) parts]
    simp [seqAll, depthBelow, hinside]
  have hlined (sets : List CharSet) : (lined sets parts).room =
      (sets.map CharSet.room).sum + (seqAll parts).room + 128 := by
    rw [lined, room_seqAll]
    simp [room, room_written]
    omega
  rw [isBounded, Bool.and_eq_true, decide_eq_true_eq, decide_eq_true_eq, hdepth, hlined] at h ⊢
  omega

/-- **The mark moves with the request.** If a text begins as an expression says, what the expression
matches behind that beginning another one matches behind another beginning, as long as both end with a word
character or both do not. -/
theorem captures?_lined_swap {sets others : List CharSet} {parts : List Expr} {v w rest : Text}
    {a b : Char} (ha : v.getLast? = some a) (hb : w.getLast? = some b) (hword : isWord a = isWord b)
    (hv : Spells sets v) (hw : Spells others w)
    (h : ((lined sets parts).captures? (v ++ rest)).isSome) :
    ((lined others parts).captures? (w ++ rest)).isSome := by
  obtain ⟨v, rfl⟩ := List.getLast?_eq_some_iff.1 ha
  obtain ⟨w, rfl⟩ := List.getLast?_eq_some_iff.1 hb
  have hlength {sets : List CharSet} {v : Text} {a : Char} (h : Spells sets (v ++ [a])) :
      sets.length = v.length + 1 := by
    rw [← h.length, List.length_append, List.length_singleton]
  have hwhole (v : Text) (a : Char) : (v ++ a :: rest).length = v.length + 1 + rest.length := by
    rw [List.length_append, List.length_cons]
    omega
  obtain ⟨_, _, ns, -, -, hrun⟩ := captures?_lined.1 h
  rw [List.append_assoc, List.singleton_append, hlength hv, hwhole] at hrun
  obtain ⟨ms, hrun'⟩ := Plan.shifts_ofExpr hword v w rest (seqAll parts) 0 rest.length ns hrun
  refine captures?_lined.2 ⟨w ++ [b], rest, ms, rfl, hw, ?_⟩
  rw [List.append_assoc, List.singleton_append, hlength hw, hwhole]
  exact hrun'

/-- Letters and dots spell themselves. -/
theorem spells_leadSet (v : Text) : Spells (v.map leadSet) v := by
  induction v with
  | nil => exact .nil
  | cons c v ih =>
    refine .cons ?_ ih
    by_cases hc : c = '.'
    · subst hc
      decide
    · rw [leadSet, if_neg hc]
      exact beq_self_eq_true (fold c)

/-- A word without dots spells itself up to letter case. -/
theorem alike_of_spells {word v : Text} (hdot : '.' ∉ word) (h : Spells (word.map leadSet) v) :
    Alike word v := by
  induction word generalizing v with
  | nil =>
    cases h
    rfl
  | cons c word ih =>
    rw [List.map_cons] at h
    cases h with
    | @cons _ d _ v hd h =>
      have hne : c ≠ '.' := fun hc => hdot (by rw [hc]; exact List.mem_cons_self)
      have hfold : fold c = fold d := by
        rw [leadSet, if_neg hne] at hd
        exact beq_iff_eq.1 hd
      have hrest : word.map fold = v.map fold := ih (fun hc => hdot (List.mem_cons_of_mem c hc)) h
      rw [Alike, List.map_cons, List.map_cons, hfold, hrest]

/-- A text that begins like the marked script has the word of the mark in it. -/
theorem not_unmarked_of_spells {v rest : Text} (h : Spells (markedEntry.map leadSet) v) :
    ¬ Unmarked (v ++ rest) := by
  intro hunmarked
  have hmark : Alike markWord (v.drop 10) := alike_of_spells (by decide) (List.forall₂_drop 10 h)
  have hword : markWord = (v.drop 10).map fold := hmark
  refine hunmarked.of_infix (List.infix_append [] v rest) ?_
  rw [hword]
  exact ((List.drop_suffix 10 v).map fold).isInfix

end Expr

/-- Whether the bare script is no larger than the marked one: an expression that is small enough with the
marked script at its beginning is so with the bare one. -/
def Limits.SparesMark [Limits] : Prop :=
  ∀ parts, Limits.fits (Expr.lined (markedEntry.map leadSet) parts) →
    Limits.fits (Expr.lined (entryScript.map leadSet) parts)

/-- The bare script takes less room than the marked one. -/
theorem Expr.limits_sparesMark : Limits.SparesMark :=
  fun _ h => Expr.isBounded_lined (by decide) h

/-! ### Sources that begin with the entry script -/

namespace Pattern

/-- Whether a pattern is accepted and matches a path. -/
def Matches [Limits] (p : Pattern) (path : Text) : Prop := ∃ e, p.expr? = .ok e ∧ (e.captures? path).isSome

/-- An accepted pattern matches what its expression does. -/
theorem matches_iff [Limits] {p : Pattern} {e : Expr} (he : p.expr? = .ok e) (path : Text) :
    p.Matches path ↔ (e.captures? path).isSome := by
  refine ⟨?_, fun h => ⟨e, he, h⟩⟩
  rintro ⟨e', he', h⟩
  rwa [Except.ok.inj (he.symm.trans he')]

instance [Limits] (p : Pattern) (path : Text) : Decidable (p.Matches path) :=
  decidable_of_iff (p.expr?.toOption.any fun e => (e.captures? path).isSome) (by
    rw [Option.any_eq_true, Matches]
    cases p.expr? <;> simp [Except.toOption])

/-- What an expression is read as decides whether it is accepted. -/
theorem expr?_eq_ok_iff [Limits] {p : Pattern} {e e' : Expr}
    (h : Expr.ofTokens? (Token.scan p.anchored) = some e) :
    p.expr? = .ok e' ↔ e' = e ∧ Limits.fits e := by
  rw [expr?, Expr.read?, h, Option.filter_some]
  by_cases hfits : Limits.fits e <;> simp [hfits, eq_comm]

variable {t : Text} {e : Expr}

/-- A source that begins with the entry script, marked and bare. -/
theorem exists_lined [Limits] (hspares : Limits.SparesMark) (hscript : ¬ entryScript <:+: t)
    (ht : (compile t).StandsBehind) (he : (compile (entryScript ++ t)).expr? = .ok e) :
    ∃ parts, e = Expr.lined (markedEntry.map leadSet) parts ∧
      (compileBare (entryScript ++ t)).expr? = .ok (Expr.lined (entryScript.map leadSet) parts) := by
  obtain ⟨parts, hparts⟩ := ht.exists_parts
  have hmarked := hparts markedEntry _ (expression_script t) fun _ => rfl
  have hbare := hparts entryScript _ (expression_script_bare hscript) fun _ => rfl
  obtain ⟨rfl, hfits⟩ := (expr?_eq_ok_iff hmarked).1 he
  exact ⟨parts, rfl, (expr?_eq_ok_iff hbare).2 ⟨rfl, hspares parts hfits⟩⟩

/-- **Sources that begin with the entry script** match, marked, what they match without the mark, of the
requests that go on behind the script. -/
theorem matches_script [Limits] {path p : Text} (hspares : Limits.SparesMark)
    (hscript : ¬ entryScript <:+: t) (ht : (compile t).StandsBehind)
    (he : (compile (entryScript ++ t)).expr? = .ok e) (hpath : Unmarked path)
    (h : Target.ofPath path = .path p) :
    (compile (entryScript ++ t)).Matches p ↔
      (compileBare (entryScript ++ t)).Matches path ∧ Target.GoesOn path := by
  obtain ⟨parts, rfl, hbare⟩ := exists_lined hspares hscript ht he
  have hmarked := Expr.spells_leadSet markedEntry
  have hplain := Expr.spells_leadSet entryScript
  have hmarkedLast : markedEntry.getLast? = some 'k' := rfl
  have hplainLast : entryScript.getLast? = some 'p' := rfl
  have hwords : isWord 'k' = isWord 'p' := by decide
  rw [matches_iff he, matches_iff hbare]
  rcases Target.ofPath_path h with ⟨c, rest, rfl, hc, rfl⟩ | ⟨hother, rfl⟩
  · have hgoes : Target.GoesOn (entryScript ++ c :: rest) := ⟨c, rest, rfl, hc⟩
    refine ⟨fun hmatch => ⟨?_, hgoes⟩, fun hmatch => ?_⟩
    · exact Expr.captures?_lined_swap hmarkedLast hplainLast hwords hmarked hplain hmatch
    · exact Expr.captures?_lined_swap hplainLast hmarkedLast hwords.symm hplain hmarked hmatch.1
  · refine ⟨fun hmatch => ?_, fun hmatch => absurd hmatch.2 hother⟩
    -- the request would have to hold the mark by itself
    obtain ⟨v, rest, _, rfl, hspells, -⟩ := Expr.captures?_lined.1 hmatch
    exact absurd hpath (Expr.not_unmarked_of_spells hspells)

end Pattern

/-! ### Sources without the entry script -/

namespace Kind

/-- Whether wildcards of a kind may take dots. -/
def isWide : Kind → Bool
  | all | any => true
  | alpha | alphanum | ext | num | segment | segments => false

/-- Only wide kinds take dots. -/
theorem isWide_of_takes {k : Kind} {v : Text} (h : k.Takes v) (hdot : '.' ∈ v) : k.isWide := by
  cases k with
  | all => rfl
  | any => rfl
  | alpha => exact absurd (h.2 _ hdot) (by decide)
  | alphanum => exact absurd (h.2 _ hdot) (by decide)
  | num => exact absurd (h.2 _ hdot) (by decide)
  | segment => exact absurd (h.2 _ hdot) (by decide)
  | segments => exact absurd (h.2 _ hdot) (by decide)
  | ext =>
    have hnone : ∀ w ∈ extensions, '.' ∉ w.map fold := by decide +kernel
    obtain ⟨w, hw, halike⟩ := h
    have hfolded : fold '.' ∈ v.map fold := List.mem_map_of_mem hdot
    rw [← halike] at hfolded
    exact absurd hfolded (hnone w hw)

/-- Wide kinds take what they take with letters of the marked script put in, or taken out. -/
theorem takes_of_isWide {k : Kind} {v w : Text} (hk : k.isWide) (h : k.Takes v) (hw : w ≠ [])
    (hmem : ∀ c ∈ w, c ∈ v ∨ c ∈ markedEntry) : k.Takes w := by
  have hline : ∀ c ∈ markedEntry, c != '\n' := List.all_eq_true.1 (by decide)
  have hsigns : ∀ c ∈ markedEntry, isWord c || isBlank c || ['.', '-', '_', '%', '='].contains c :=
    List.all_eq_true.1 (by decide)
  cases k with
  | all => exact fun c hc => (hmem c hc).elim (h c) fun hc => bne_iff_ne.1 (hline c hc)
  | any => exact ⟨hw, fun c hc => (hmem c hc).elim (h.2 c) (hsigns c)⟩
  | _ => cases hk

end Kind

namespace Item

/-- Whether some items begin with a sign that is no letter, or are none. -/
def endsWord : List Item → Bool
  | [] => true
  | .sign c :: _ => !isBasicLetter c
  | .wildcard _ :: _ => false

/-- Whether every wide wildcard is the last item or has a sign behind it that is no letter. -/
def isOpenEnded : List Item → Bool
  | [] => true
  | .sign _ :: items => isOpenEnded items
  | .wildcard w :: items => (!w.kind.isWide || endsWord items) && isOpenEnded items

/-- No sign is a dot. -/
theorem sameLetter_dot {s : Char} (hs : isSign s) : sameLetter s '.' = false := by
  rw [Bool.eq_false_iff]
  intro hsame
  have hdot : sameLetter '.' s := beq_iff_eq.2 (beq_iff_eq.1 hsame).symm
  rw [Kind.sameLetter_of_mem (by decide), decide_eq_true_eq] at hdot
  rw [hdot] at hs
  exact absurd hs (by decide)

/-- A sign that is no letter is none of those in the marked script. -/
theorem sameLetter_of_mem_markedEntry {s c : Char} (hs : isSign s) (hletter : isBasicLetter s = false)
    (hc : c ∈ markedEntry) : sameLetter s c = false := by
  have hlead : isBasicLetter c ∨ c = '.' := by simpa [isLead] using isLead_markedEntry c hc
  rcases hlead with hbasic | rfl
  · rw [Bool.eq_false_iff]
    intro hsame
    have hfold : fold s = fold c := beq_iff_eq.1 hsame
    have hsame' : isBasicLetter s = isBasicLetter c := by rw [isBasicLetter, isBasicLetter, hfold]
    rw [hsame', hbasic] at hletter
    cases hletter
  · exact sameLetter_dot hs

/-- Items that end a word take nothing that begins with a letter of the marked script. -/
theorem Splits.notMem_of_endsWord {items : List Item} {c : Char} {rest : Text} {vs : List Text}
    (h : Splits items (c :: rest) vs) (hwritable : ∀ x ∈ items, x.IsWritable) (hends : endsWord items) :
    c ∉ markedEntry := by
  intro hc
  cases items with
  | nil => cases h
  | cons x items =>
    cases x with
    | wildcard w => cases hends
    | sign s =>
      have hletter : isBasicLetter s = false := by simpa [endsWord] using hends
      cases h with
      | sign hsame _ =>
        rw [sameLetter_of_mem_markedEntry (hwritable _ List.mem_cons_self) hletter hc] at hsame
        cases hsame

/-- Items that end a word leave the words of the marked script to what stands before them. -/
theorem Splits.exists_behind_word {items : List Item} {behind : Text} {vs : List Text}
    (h : Splits items behind vs) (hwritable : ∀ x ∈ items, x.IsWritable) (hends : endsWord items)
    {word v rest : Text} {c : Char} (hword : word ⊆ markedEntry)
    (htext : word ++ c :: rest = v ++ behind) :
    ∃ more, v = word ++ more ∧ c :: rest = more ++ behind := by
  rcases List.append_eq_append_iff.1 htext with ⟨more, hv, hmore⟩ | ⟨more, rfl, hmore⟩
  · exact ⟨more, hv, hmore⟩
  · cases more with
    | nil => exact ⟨[], by simp, by simpa using hmore.symm⟩
    | cons d more =>
      rw [hmore] at h
      exact absurd (hword (by simp)) (h.notMem_of_endsWord hwritable hends)

/-- **Wide wildcards take the mark.** A text with a word of the letters of the marked script behind a dot
splits along open-ended items with another such word in its place. -/
theorem Splits.swap {items : List Item} {text : Text} {vs : List Text} (h : Splits items text vs)
    (hwritable : ∀ x ∈ items, x.IsWritable) (hopen : isOpenEnded items) {lead word word' rest : Text}
    {c : Char} (htext : text = lead ++ '.' :: (word ++ c :: rest))
    (hword : word ⊆ markedEntry) (hword' : word' ⊆ markedEntry) :
    ∃ vs', Splits items (lead ++ '.' :: (word' ++ c :: rest)) vs' := by
  induction h generalizing lead with
  | nil => simp at htext
  | @sign a d items behind vs hsame _ ih =>
    have hrest : ∀ x ∈ items, x.IsWritable := fun x hx => hwritable x (List.mem_cons_of_mem _ hx)
    cases lead with
    | nil =>
      obtain ⟨rfl, -⟩ := List.cons.inj htext
      rw [sameLetter_dot (hwritable _ List.mem_cons_self)] at hsame
      cases hsame
    | cons l lead =>
      obtain ⟨rfl, hbehind⟩ := List.cons.inj htext
      obtain ⟨vs', hsplits⟩ := ih hrest hopen hbehind
      exact ⟨vs', .sign hsame hsplits⟩
  | @wildcard w v items behind vs htakes hsplits ih =>
    have hrest : ∀ x ∈ items, x.IsWritable := fun x hx => hwritable x (List.mem_cons_of_mem _ hx)
    rw [isOpenEnded, Bool.and_eq_true] at hopen
    rcases List.append_eq_append_iff.1 htext with ⟨lead', rfl, hbehind⟩ | ⟨v', rfl, hbehind⟩
    · -- the wildcard ends before the dot
      obtain ⟨vs', hsplits'⟩ := ih hrest hopen.2 hbehind
      exact ⟨_, by simpa using Splits.wildcard htakes hsplits'⟩
    · cases v' with
      | nil =>
        have hdot : behind = [] ++ '.' :: (word ++ c :: rest) := hbehind.symm
        obtain ⟨vs', hsplits'⟩ := ih hrest hopen.2 hdot
        exact ⟨_, .wildcard (by simpa using htakes) hsplits'⟩
      | cons d v' =>
        obtain ⟨rfl, hthen⟩ := List.cons.inj hbehind
        have hwide := Kind.isWide_of_takes htakes (List.mem_append_right lead List.mem_cons_self)
        have hends : endsWord items := by simpa [hwide] using hopen.1
        -- it takes the dot, and does not end within the word behind it
        obtain ⟨more, rfl, hmore⟩ := hsplits.exists_behind_word hrest hends hword hthen
        have htakes' : w.kind.Takes (lead ++ '.' :: (word' ++ more)) := by
          refine Kind.takes_of_isWide hwide htakes (by simp) fun d hd => ?_
          simp only [List.mem_append, List.mem_cons] at hd ⊢
          rcases hd with hd | hd | hd | hd
          · exact .inl (.inl hd)
          · exact .inl (.inr (.inl hd))
          · exact .inr (hword' hd)
          · exact .inl (.inr (.inr (.inr hd)))
        have hsplits' := Splits.wildcard htakes' hsplits
        exact ⟨_, by simpa [hmore] using hsplits'⟩

end Item

namespace Source

variable (s : Source)

/-- A source matches the paths that split along it, if it is accepted. -/
theorem matches_text [Limits] (path : Text) : (Pattern.compile s.text).Matches path ↔
    Limits.fits s.expr ∧ ∃ vs, s.Splits path vs := by
  have hsplits : (s.expr.captures? path).isSome ↔ ∃ vs, s.Splits path vs := by
    rw [← not_iff_not, Bool.not_eq_true, Option.isSome_eq_false_iff, Option.isNone_iff_eq_none,
      captures?_eq_none_iff, not_exists]
  simp only [Pattern.Matches, expr?_compile_text_eq_ok_iff, and_assoc, exists_eq_left, hsplits]

/-- A request that goes on behind the entry script splits along an open-ended source with the script marked
exactly if it does with the script bare. -/
theorem exists_splits_marked_iff (hopen : Item.isOpenEnded s.items) (c : Char) (rest : Text) :
    (∃ vs, s.Splits (markedEntry ++ c :: rest) vs) ↔ ∃ vs, s.Splits (entryScript ++ c :: rest) vs := by
  have swap (word word' : Text) (hword : word ⊆ markedEntry) (hword' : word' ⊆ markedEntry) :
      (∃ vs, s.Splits ("index".toList ++ '.' :: (word ++ c :: rest)) vs) →
        ∃ vs, s.Splits ("index".toList ++ '.' :: (word' ++ c :: rest)) vs := by
    rintro ⟨vs, hsplits⟩
    exact hsplits.swap s.writable hopen rfl hword hword'
  exact ⟨swap "php.jumplink".toList "php".toList (by decide) (by decide),
    swap "php".toList "php.jumplink".toList (by decide) (by decide)⟩

/-- **Open-ended sources** do not see the mark. -/
theorem matches_openEnded [Limits] (hopen : Item.isOpenEnded s.items) {path p : Text}
    (h : Target.ofPath path = .path p) :
    (Pattern.compile s.text).Matches p ↔ (Pattern.compileBare s.text).Matches path := by
  have hscript : ¬ entryScript <:+: s.text := fun hscript =>
    s.notMem_text (d := '.') (by decide) (by decide) (hscript.subset (by decide))
  rw [← Pattern.compile_eq_compileBare hscript, matches_text, matches_text]
  rcases Target.ofPath_path h with ⟨c, rest, rfl, -, rfl⟩ | ⟨-, rfl⟩
  · rw [s.exists_splits_marked_iff hopen]
  · rfl

end Source

/-! ### All together -/

namespace Pattern

/-- **When the mark makes no difference.** For every request that is not for the bare entry script:

* a source without the entry script sees no mark unless the request goes on behind the script;
* a source that begins with the entry script matches exactly the requests that it matches without the mark
  and that go on behind the script, written in small letters, if what is small enough with the mark is so
  without it: so the mark makes no difference exactly if the request goes on behind the script or is not
  matched without the mark;
* a source of signs and wildcards whose wide wildcards do not end within a word sees no mark at all. -/
theorem matches_marked [Limits] {uri p : Text} (h : Target.ofUri ['/'] uri = .path p) :
    let path := Target.withoutSlashes uri
    (∀ source, ¬ entryScript <:+: source → ¬ Target.GoesOn path →
      ((compile source).Matches p ↔ (compileBare source).Matches path)) ∧
    (∀ t e, Limits.SparesMark → ¬ entryScript <:+: t → (compile t).StandsBehind →
      (compile (entryScript ++ t)).expr? = .ok e → Unmarked path →
        ((compile (entryScript ++ t)).Matches p ↔
          (compileBare (entryScript ++ t)).Matches path ∧ Target.GoesOn path)) ∧
    (∀ s : Source, Item.isOpenEnded s.items →
      ((compile s.text).Matches p ↔ (compileBare s.text).Matches path)) := by
  intro path
  have hpath : Target.ofPath path = .path p := h
  refine ⟨fun source hscript hother => ?_, fun t e hspares hscript ht he hunmarked => ?_,
    fun s hopen => ?_⟩
  · rw [← compile_eq_compileBare hscript]
    rcases Target.ofPath_path hpath with ⟨c, rest, hscript, hc, -⟩ | ⟨-, rfl⟩
    · exact absurd ⟨c, rest, hscript, hc⟩ hother
    · rfl
  · exact matches_script hspares hscript ht he hunmarked hpath
  · exact s.matches_openEnded hopen hpath

/-- The source `{p:all}`. -/
def anything : Source where
  items := [.wildcard ⟨['p'], .all, false⟩]
  writable := by
    intro x hx
    rw [List.mem_singleton.1 hx]
    exact ⟨by simp, List.all_eq_true.1 (by decide)⟩
  unmarked := by decide

/-- A request that goes on behind the entry script is matched marked as it is matched bare. -/
theorem matches_marked_script :
    Target.ofUri ['/'] "/index.php?id=42".toList = .path "index.php.jumplink?id=42".toList ∧
      (compile "index.php?id={id}".toList).Matches "index.php.jumplink?id=42".toList ∧
      (compileBare "index.php?id={id}".toList).Matches "index.php?id=42".toList ∧
      ((compile "{p:all}".toList).Matches "index.php.jumplink?id=42".toList ↔
        (compileBare "{p:all}".toList).Matches "index.php?id=42".toList) := by
  have htarget : Target.ofUri ['/'] "/index.php?id=42".toList =
      .path "index.php.jumplink?id=42".toList := by decide
  obtain ⟨-, hscript, hopen⟩ := matches_marked htarget
  have hmatch : (compile "index.php?id={id}".toList).Matches "index.php.jumplink?id=42".toList := by
    decide +kernel
  obtain ⟨e, he, -⟩ := id hmatch
  have hstands : (compile "?id={id}".toList).StandsBehind := by decide +kernel
  have hboth := (hscript "?id={id}".toList e Expr.limits_sparesMark (by decide) hstands he (by decide)).1
    hmatch
  exact ⟨htarget, hmatch, hboth.1, hopen anything (by decide)⟩

/-- The same request in capital letters is not marked, and so it is not matched by the source, which would
match it if neither were marked. Nor is a path that only begins like the entry script. -/
theorem matches_marked_capital :
    (Target.ofUri ['/'] "/INDEX.PHP?id=42".toList = .path "INDEX.PHP?id=42".toList ∧
      ¬ (compile "index.php?id={id}".toList).Matches "INDEX.PHP?id=42".toList ∧
      (compileBare "index.php?id={id}".toList).Matches "INDEX.PHP?id=42".toList) ∧
    Target.ofUri ['/'] "/index.phpx".toList = .path "index.phpx".toList ∧
      ¬ (compile "index.phpx".toList).Matches "index.phpx".toList ∧
      (compileBare "index.phpx".toList).Matches "index.phpx".toList := by
  refine ⟨⟨by decide, ?_, ?_⟩, by decide, ?_, ?_⟩ <;> decide +kernel

end Pattern

end Detour
