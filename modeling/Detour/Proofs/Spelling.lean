import Detour.Proofs.Recovery
import Detour.Proofs.Surroundings

/-!
# The ways to write a wildcard

A wildcard may be written with its name first, `{id:num}`, with its kind first, `{num:id}`, or by its name
alone, `{id}`, if the name implies the kind. All of them mean the same in every source, whatever stands
around them.

* `Pattern.compile_nameFirst` is about the order of the two words.
* `Pattern.compile_alias` is about the name alone, in whatever letter case.
* `Pattern.captures_alias` says when a name alone is a wildcard: the name in two words has to be written
  with small letters, so that a name with a capital is not, and what its wildcard then matches.
-/

namespace Detour

namespace Wildcard

/-! ### The order of the words -/

/-- Two words in braces stop at an opening brace, also where they may have to change places. -/
theorem stopsAt_nameFirstForm : Text.StopsAt nameFirstForm '\x7b' := by
  refine stopsAt_smallPair.refine fun s q size h => ?_
  unfold nameFirstForm at h
  split at h
  case h_2 => cases h
  rename_i p n hpair
  obtain rfl : n = size := by
    split_ifs at h <;> exact (Prod.mk.inj (Option.some.inj h)).2
  exact ⟨p, hpair, fun t ht => by rw [nameFirstForm, ht]; exact h⟩

/-- A wildcard with its kind first is written with its name first, and keeps its place, if its name is
not that of a kind. -/
theorem nameFirst_turned {w : Wildcard} (hw : (Item.wildcard w).IsWritable)
    (hkind : Kind.ofName? w.name = none) (before behind : Text) :
    nameFirst (before ++ (Pair.write ⟨w.raw, w.kind.name, w.name⟩ ++ behind)) =
      nameFirst before ++ ((Item.pair w).write ++ nameFirst behind) := by
  have hbetween : ∀ c t, [':'] = c :: t → isSmall c = false := by
    rintro c t ⟨⟩
    decide
  have hpair : pairForm isSmall [':'] (Pair.write ⟨w.raw, w.kind.name, w.name⟩ ++ behind) =
      some (⟨w.raw, w.kind.name, w.name⟩, (Pair.write ⟨w.raw, w.kind.name, w.name⟩).length) :=
    pairForm_writeWith behind w.kind.name_small hw (by decide) (by decide) hbetween (by decide)
  have hform : nameFirstForm (Pair.write ⟨w.raw, w.kind.name, w.name⟩ ++ behind) =
      some (Item.pair w, (Pair.write ⟨w.raw, w.kind.name, w.name⟩).length) := by
    simp only [nameFirstForm, hpair, Kind.ofName?_name, hkind, Option.isSome_some,
      Option.isSome_none, Bool.false_eq_true, if_true, if_false]
    rfl
  exact Text.rewrite_found stopsAt_nameFirstForm before rfl hform

/-- A wildcard with its name first stays as it is, and keeps its place. -/
theorem nameFirst_kept {w : Wildcard} (hw : (Item.wildcard w).IsWritable) (before behind : Text) :
    nameFirst (before ++ ((Item.pair w).write ++ behind)) =
      nameFirst before ++ ((Item.pair w).write ++ nameFirst behind) := by
  have hcut : nameFirst (before ++ ((Item.pair w).write ++ behind)) =
      nameFirst before ++ nameFirst ((Item.pair w).write ++ behind) :=
    Text.rewrite_append_of_stopsAt stopsAt_nameFirstForm before _
  rw [hcut, Source.nameFirst_write hw]

end Wildcard

open Wildcard

namespace Pattern

/-- Sources that are brought into the same form are compiled to the same expression and wildcards. -/
theorem compile_congr {s t : Text}
    (h : expand (freeColons (prepare s)) = expand (freeColons (prepare t))) :
    (compile s).expression = (compile t).expression ∧ (compile s).wildcards = (compile t).wildcards := by
  simp only [compile, ofExpanded, h, and_self]

/-- Patterns with the same expression are read in the same way. -/
theorem expr?_congr [Limits] {p q : Pattern} (h : p.expression = q.expression) :
    p.anchored = q.anchored ∧ p.expr? = q.expr? := by
  have hanchored : p.anchored = q.anchored := congrArg (fun e => "^(?:".toList ++ e ++ ")$".toList) h
  refine ⟨hanchored, ?_⟩
  rw [expr?, hanchored, h, expr?]

/-- **The order of words.** Wherever a wildcard stands in a source, it may be written with its kind
first, as long as its name is not that of a kind: the expression and the wildcards are the same. -/
theorem compile_nameFirst (before behind : Text) {w : Wildcard}
    (hname : w.name ≠ [] ∧ ∀ c ∈ w.name, isSmall c) (hkind : Kind.ofName? w.name = none) :
    (compile (before ++ Pair.write ⟨w.raw, w.kind.name, w.name⟩ ++ behind)).expression =
        (compile (before ++ Pair.write ⟨w.raw, w.name, w.kind.name⟩ ++ behind)).expression ∧
      (compile (before ++ Pair.write ⟨w.raw, w.kind.name, w.name⟩ ++ behind)).wildcards =
        (compile (before ++ Pair.write ⟨w.raw, w.name, w.kind.name⟩ ++ behind)).wildcards := by
  obtain ⟨front, back, hspans⟩ :=
    expandSpans_around (freeColons (prepare before)) (freeColons (prepare behind))
  have hspanned : ∀ p : Pair, p.IsBasic →
      expandSpans (freeColons (prepare (before ++ p.write ++ behind))) = front ++ (p.write ++ back) := by
    intro p hp
    rw [List.append_assoc, prepare_around hp, freeColons_around hp]
    exact hspans p.write hp.isInSpan_write
  have hname' : w.name ≠ [] ∧ ∀ c ∈ w.name, isBasicLetter c :=
    ⟨hname.1, fun c hc => isBasicLetter_of_isSmall (hname.2 c hc)⟩
  have hkind' := w.kind.name_basic
  have hturned := nameFirst_turned (w := w) hname hkind front back
  have hkept := nameFirst_kept (w := w) hname front back
  refine compile_congr ?_
  rw [expand, hspanned _ ⟨hkind', hname'⟩, hturned, ← hkept, expand, hspanned _ ⟨hname', hkind'⟩]
  rfl

/-- A wildcard in a span that is opened in front of it and closed behind it, where a backslash stands
right before its brace. -/
theorem compile_nameFirst_spanned :
    ("at".toList ≠ [] ∧ ∀ c ∈ "at".toList, isSmall c) ∧ Kind.ofName? "at".toList = none ∧
      (compile "<x\\\x7b!num:at\x7d|index.php>\x7by".toList).expression =
        (compile "<x\\\x7b!at:num\x7d|index.php>\x7by".toList).expression ∧
      (compile "<x\\\x7b!num:at\x7d|index.php>\x7by".toList).wildcards =
        [⟨"at".toList, .num, true⟩] := by
  have hname : "at".toList ≠ [] ∧ ∀ c ∈ "at".toList, isSmall c :=
    ⟨by decide, List.all_eq_true.1 (by decide)⟩
  have hkind : Kind.ofName? "at".toList = none := by decide
  have hfirst : "<x\\\x7b!num:at\x7d|index.php>\x7by".toList = "<x\\".toList ++
      Pair.write ⟨true, Kind.num.name, "at".toList⟩ ++ "|index.php>\x7by".toList := by decide
  have hsecond : "<x\\\x7b!at:num\x7d|index.php>\x7by".toList = "<x\\".toList ++
      Pair.write ⟨true, "at".toList, Kind.num.name⟩ ++ "|index.php>\x7by".toList := by decide
  obtain ⟨hexpression, hwildcards⟩ := compile_nameFirst "<x\\".toList "|index.php>\x7by".toList
    (w := ⟨"at".toList, .num, true⟩) hname hkind
  rw [← hfirst, ← hsecond] at hexpression hwildcards
  have hnoted : (compile "<x\\\x7b!at:num\x7d|index.php>\x7by".toList).wildcards =
      [⟨"at".toList, .num, true⟩] := by decide +kernel
  exact ⟨hname, hkind, hexpression, hwildcards.trans hnoted⟩

end Pattern

namespace Wildcard

/-! ### The name alone -/

variable {name : Text} {k : Kind}

/-- The names that imply a kind are nonempty words of small letters. -/
theorem small_of_mem_aliases {a : Text} (h : a ∈ k.aliases) : a ≠ [] ∧ ∀ c ∈ a, isSmall c := by
  have hall : k.aliases.all fun a => !a.isEmpty && a.all isSmall := by
    cases k <;> decide
  have ha := List.all_eq_true.1 hall a h
  rw [Bool.and_eq_true, Bool.not_eq_true', List.isEmpty_eq_false_iff] at ha
  exact ⟨ha.1, List.all_eq_true.1 ha.2⟩

/-- A name that implies a kind in whatever letter case is a nonempty word of basic letters. -/
theorem name_of_ofAlias? (h : Kind.ofAlias? (name.map fold) = some k) :
    name ≠ [] ∧ ∀ c ∈ name, isBasicLetter c := by
  have hmem : name.map fold ∈ k.aliases := by simpa using List.find?_some h
  obtain ⟨hne, hletters⟩ := small_of_mem_aliases hmem
  exact ⟨fun h => hne (by rw [h]; rfl), fun c hc => hletters _ (List.mem_map_of_mem hc)⟩

/-- A name that implies a kind is recognised by itself. -/
theorem aliasForm_braced (h : Kind.ofAlias? (name.map fold) = some k) (rest : Text) :
    aliasForm (braced name ++ rest) = some (⟨false, name, k.name⟩, (braced name).length) := by
  have hword : (name ++ '\x7d' :: rest).takeWhile isBasicLetter = name := by
    refine takeWhile_append_of_head (name_of_ofAlias? h).2 ?_
    rintro c ⟨⟩
    decide
  simp [braced, aliasForm, hword, h]

/-- A name that implies a kind stops at an opening brace. -/
theorem stopsAt_aliasForm : Text.StopsAt aliasForm '\x7b' := by
  intro s p size h
  unfold aliasForm at h
  split at h
  case h_2 => cases h
  rename_i s
  obtain ⟨hhead, h⟩ := Option.ite_none_right_eq_some.1 h
  obtain ⟨k, hk, hpair⟩ := Option.map_eq_some_iff.1 h
  have hclose : ¬ (s.drop (s.takeWhile isBasicLetter).length).head? != some '\x7d' := by
    rw [bne, hhead]
    decide
  obtain ⟨name, rest, rfl, htake, hletters⟩ := exists_eq_takeWhile_append hclose
  rw [htake] at hk hpair
  obtain ⟨rfl, rfl⟩ := Prod.mk.inj hpair
  refine ⟨'\x7b', name ++ ['\x7d'], rest, by simp, by simp, ?_, fun t => ?_⟩
  · simp [notMem_of_class hletters (c := '\x7b') (by decide)]
  · simpa [braced] using aliasForm_braced hk t

/-- A word of letters in braces keeps its place when signs are escaped and colons set free. -/
theorem freeColons_braced (hletters : ∀ c ∈ name, isBasicLetter c) (before behind : Text) :
    freeColons (prepare (before ++ (braced name ++ behind))) =
      freeColons (prepare before) ++ (braced name ++ freeColons (prepare behind)) := by
  have hnone : ∀ {c}, isBasicLetter c = false → c ∉ name := notMem_of_class hletters
  have hprepare : prepare name = name := by
    rw [prepare_eq (hnone (by decide)) (hnone (by decide)) (hnone (by decide)) fun h =>
      hnone (by decide) (h.subset List.mem_cons_self), Source.flatMap_escapeSign_of_letters hletters]
  have hform : pairForm isBasicLetter ['\\', ':'] ('\x7b' :: (name ++ '\x7d' :: prepare behind)) = none :=
    pairForm_word _ (by decide) (by decide) List.mem_cons_self (hnone (by decide)) (hnone (by decide))
  rw [braced_append, prepare_braces, hprepare, freeColons, braced_append]
  exact rewrite_kept stopsAt_escapedPair (fun c rest hc => pairForm_cons hc rest) Pair.write
    (prepare before) (hnone (by decide)) hform

/-- A word of letters in braces has its words in order. -/
theorem nameFirst_braced (hletters : ∀ c ∈ name, isBasicLetter c) (before behind : Text) :
    nameFirst (before ++ (braced name ++ behind)) =
      nameFirst before ++ (braced name ++ nameFirst behind) := by
  have hnone : ∀ {c}, isBasicLetter c = false → c ∉ name := notMem_of_class hletters
  have hpair : pairForm isSmall [':'] ('\x7b' :: (name ++ '\x7d' :: behind)) = none :=
    pairForm_word _ (by decide) (by decide) List.mem_cons_self (hnone (by decide)) (hnone (by decide))
  rw [braced_append, braced_append]
  refine rewrite_kept stopsAt_nameFirstForm (fun c rest hc => nameFirstForm_cons hc rest) Pair.write
    before (hnone (by decide)) ?_
  rw [nameFirstForm, hpair]

/-- A name alone that implies a kind comes to stand in front of it, and keeps its place. -/
theorem expandAliases_braced (h : Kind.ofAlias? (name.map fold) = some k) (before behind : Text) :
    expandAliases (before ++ (braced name ++ behind)) =
      expandAliases before ++ (Pair.write ⟨false, name, k.name⟩ ++ expandAliases behind) :=
  Text.rewrite_found stopsAt_aliasForm before rfl (aliasForm_braced h behind)

/-! ### The words of a wildcard, in whatever letter case -/

section Written

variable {w : Wildcard} (hname : w.name ≠ [] ∧ ∀ c ∈ w.name, isBasicLetter c)
include hname

/-- Between the braces of a written wildcard there are no braces. -/
theorem brace_notMem_inside : '\x7b' ∉ (Item.pair w).inside [':'] := by
  have hbasic : (Item.pair w).IsBasic := ⟨hname, w.kind.name_basic⟩
  exact hbasic.notMem_inside (by decide) (by decide) (by decide)

/-- A name with a capital is not that of a wildcard. -/
theorem pairForm_capital (hcapital : ¬ ∀ c ∈ w.name, isSmall c) (rest : Text) :
    pairForm isSmall [':'] ((Item.pair w).write ++ rest) = none := by
  rw [Option.eq_none_iff_forall_ne_some]
  rintro ⟨p, size⟩ h
  obtain ⟨behind, heq, -, hfirst, hsecond⟩ := writeWith_of_pairForm h
  -- both pairs are recognised when capitals are letters as well
  have hbasic : ∀ {t : Text}, t ≠ [] ∧ (∀ c ∈ t, isSmall c) → t ≠ [] ∧ ∀ c ∈ t, isBasicLetter c :=
    fun ht => ⟨ht.1, fun c hc => isBasicLetter_of_isSmall (ht.2 c hc)⟩
  have hbetween : ∀ c t, [':'] = c :: t → isBasicLetter c = false := by
    rintro c t ⟨⟩
    decide
  have hpair := pairForm_writeWith behind (hbasic hfirst) (hbasic hsecond) (by decide) (by decide)
    hbetween (by decide)
  have hwritten : pairForm isBasicLetter [':'] ((Item.pair w).writeWith [':'] ++ rest) = _ :=
    pairForm_writeWith rest hname w.kind.name_basic (by decide) (by decide) hbetween (by decide)
  rw [← heq] at hpair
  obtain ⟨rfl, -⟩ := Prod.mk.inj (Option.some.inj (hpair.symm.trans hwritten))
  exact hcapital hfirst.2

/-- The words of a written wildcard are in order already, and keep their place. -/
theorem nameFirst_written (before behind : Text) :
    nameFirst (before ++ ((Item.pair w).write ++ behind)) =
      nameFirst before ++ ((Item.pair w).write ++ nameFirst behind) := by
  by_cases hsmall : ∀ c ∈ w.name, isSmall c
  · exact nameFirst_kept ⟨hname.1, hsmall⟩ before behind
  · have hnone := pairForm_capital hname hsmall behind
    rw [Pair.write_append] at hnone ⊢
    rw [Pair.write_append]
    refine rewrite_kept stopsAt_nameFirstForm (fun c rest hc => nameFirstForm_cons hc rest) Pair.write
      before (brace_notMem_inside hname) ?_
    rw [nameFirstForm, hnone]

/-- A name with a kind behind it is not taken for one that implies a kind, and keeps its place. -/
theorem expandAliases_written (before behind : Text) :
    expandAliases (before ++ ((Item.pair w).write ++ behind)) =
      expandAliases before ++ ((Item.pair w).write ++ expandAliases behind) := by
  have hnone := Source.aliasForm_write hname.2 behind
  rw [Pair.write_append] at hnone ⊢
  rw [Pair.write_append]
  exact rewrite_kept stopsAt_aliasForm (fun c rest hc => aliasForm_cons hc rest) Pair.write before
    (brace_notMem_inside hname) hnone

end Written

end Wildcard

namespace Pattern

variable {before name behind : Text} {k : Kind}

/-- **The name alone.** Wherever a name that implies a kind stands in a source, in whatever letter case,
the kind may be written behind it: the expression and the wildcards are the same. -/
theorem compile_alias (before behind : Text) (h : Kind.ofAlias? (name.map fold) = some k) :
    (compile (before ++ braced name ++ behind)).expression =
        (compile (before ++ Pair.write ⟨false, name, k.name⟩ ++ behind)).expression ∧
      (compile (before ++ braced name ++ behind)).wildcards =
        (compile (before ++ Pair.write ⟨false, name, k.name⟩ ++ behind)).wildcards := by
  have hname := name_of_ofAlias? h
  have hpair : Pair.IsBasic ⟨false, name, k.name⟩ := ⟨hname, k.name_basic⟩
  obtain ⟨front, back, hspans⟩ :=
    expandSpans_around (freeColons (prepare before)) (freeColons (prepare behind))
  have hbraced : ∀ c ∈ braced name, c ≠ '<' ∧ isInSpan c := by
    intro c hc
    refine isInSpan_of_isBasicLetter ?_
    simp only [braced, List.mem_append, List.mem_singleton] at hc
    rcases hc with (rfl | hc) | rfl
    · simp
    · exact .inl (hname.2 c hc)
    · simp
  have hfront : ∀ c d : Text, nameFirst (c ++ (Pair.write ⟨false, name, k.name⟩ ++ d)) =
      nameFirst c ++ (Pair.write ⟨false, name, k.name⟩ ++ nameFirst d) :=
    nameFirst_written (w := ⟨name, k, false⟩) hname
  have hkept : ∀ c d : Text, expandAliases (c ++ (Pair.write ⟨false, name, k.name⟩ ++ d)) =
      expandAliases c ++ (Pair.write ⟨false, name, k.name⟩ ++ expandAliases d) :=
    expandAliases_written (w := ⟨name, k, false⟩) hname
  refine compile_congr ?_
  rw [List.append_assoc, freeColons_braced hname.2, expand, hspans _ hbraced,
    nameFirst_braced hname.2, expandAliases_braced h]
  rw [List.append_assoc, prepare_around hpair, freeColons_around hpair, expand,
    hspans _ hpair.isInSpan_write, hfront, hkept]

end Pattern

/-! ### A wildcard between two texts -/

namespace Item

variable {items : List Item} {rest : Text} {vs : List Text}

/-- Signs split off the text that they are. -/
theorem splits_signs (t : Text) : Splits (t.map .sign ++ items) (t ++ rest) vs ↔ Splits items rest vs := by
  induction t with
  | nil => exact Iff.rfl
  | cons c t ih =>
    rw [← ih]
    refine ⟨fun h => ?_, .sign (by rw [sameLetter, beq_self_eq_true])⟩
    cases h with
    | sign _ h => exact h

/-- Signs take as many characters as they are, and list no text. -/
theorem Splits.of_signs {t path : Text} (h : Splits (t.map .sign) path vs) :
    path.length = t.length ∧ vs = [] := by
  induction t generalizing path vs with
  | nil =>
    cases h
    exact ⟨rfl, rfl⟩
  | cons c t ih =>
    cases h with
    | sign _ h => exact ⟨congrArg (· + 1) (ih h).1, (ih h).2⟩

/-- A path along a wildcard between two texts splits in one way only. -/
theorem splits_between {w : Wildcard} {before v behind : Text} (hv : w.kind.Takes v) :
    Splits (before.map .sign ++ .wildcard w :: behind.map .sign) (before ++ (v ++ behind)) vs ↔
      vs = [v] := by
  rw [splits_signs]
  refine ⟨fun h => ?_, ?_⟩
  · generalize hpath : v ++ behind = path at h
    cases h with
    | wildcard _ h =>
      obtain ⟨hlength, rfl⟩ := h.of_signs
      rw [(List.append_inj_left' hpath hlength.symm)]
  · rintro rfl
    have hnone : Splits (behind.map .sign ++ []) (behind ++ []) [] := (splits_signs behind).2 .nil
    rw [List.append_nil, List.append_nil] at hnone
    exact .wildcard hv hnone

end Item

/-- A source of one wildcard between two texts. -/
def Source.between (before : Text) (w : Wildcard) (behind : Text) (hw : (Item.wildcard w).IsWritable)
    (hsigns : ∀ c ∈ before ++ behind, Item.isSign c ∧ c ≠ '?') : Source where
  items := before.map .sign ++ .wildcard w :: behind.map .sign
  writable := by
    intro x hx
    simp only [List.mem_append, List.mem_cons, List.mem_map] at hx
    rcases hx with ⟨c, hc, rfl⟩ | rfl | ⟨c, hc, rfl⟩
    · exact (hsigns c (List.mem_append_left behind hc)).1
    · exact hw
    · exact (hsigns c (List.mem_append_right before hc)).1
  unmarked := by
    intro h
    have hmark := h.subset (List.mem_cons_of_mem _ List.mem_cons_self)
    simp only [List.mem_append, List.mem_cons, List.mem_map, Item.sign.injEq, exists_eq_right,
      reduceCtorEq, false_or] at hmark
    exact (hsigns '?' (List.mem_append.2 hmark)).2 rfl

namespace Source

variable {before behind : Text} {w : Wildcard} {hw : (Item.wildcard w).IsWritable}
  {hsigns : ∀ c ∈ before ++ behind, Item.isSign c ∧ c ≠ '?'}

/-- The text of a wildcard between two texts. -/
theorem text_between :
    (between before w behind hw hsigns).text = before ++ (Item.pair w).write ++ behind := by
  have hsigns : ∀ t : Text, (t.map Item.sign).flatMap Item.write = t := fun t => by
    rw [List.flatMap_map]
    exact List.flatMap_singleton' t
  simp [text, between, hsigns, Item.write]

/-- There is one wildcard between two texts. -/
theorem wildcards_between : (between before w behind hw hsigns).wildcards = [w] := by
  have hsigns : ∀ t : Text, (t.map Item.sign).filterMap Item.wildcard? = [] := fun t => by
    rw [List.filterMap_map]
    exact List.filterMap_eq_nil_iff.2 fun _ _ => rfl
  simp [wildcards, between, hsigns, Item.wildcard?]

/-- What a wildcard between two texts captures is what stands between the two. -/
theorem captures?_between {v : Text} (hv : w.kind.Takes v) :
    (between before w behind hw hsigns).expr.captures? (before ++ v ++ behind) = some [v] := by
  have hiff : ∀ vs, (between before w behind hw hsigns).Splits (before ++ v ++ behind) vs ↔ vs = [v] := by
    intro vs
    rw [List.append_assoc]
    exact Item.splits_between hv
  cases hcaptures : (between before w behind hw hsigns).expr.captures? (before ++ v ++ behind) with
  | none => exact absurd ((hiff [v]).2 rfl) (captures?_eq_none_iff _ |>.1 hcaptures _)
  | some vs => rw [(hiff vs).1 (splits_of_captures? _ hcaptures)]

end Source

namespace Wildcard

/-- A wildcard stops at an opening brace. -/
theorem stopsAt_form : Text.StopsAt Wildcard.form '\x7b' := by
  refine stopsAt_smallPair.refine fun s w size h => ?_
  unfold Wildcard.form at h
  split at h
  case h_2 => cases h
  rename_i p n hpair
  obtain ⟨k, hk, hw⟩ := Option.map_eq_some_iff.1 h
  obtain ⟨rfl, rfl⟩ := Prod.mk.inj hw
  exact ⟨p, hpair, fun t ht => by rw [Wildcard.form, ht]; exact h⟩

/-- What a text of signs is escaped to has no brackets. -/
theorem notMem_flatMap_escapeSign {t : Text} (ht : ∀ c ∈ t, Item.isSign c ∧ c ≠ '?') :
    ∀ d ∈ ['\x7b', '<'], d ∉ t.flatMap escapeSign := by
  intro d hd hmem
  obtain ⟨c, hc, hdc⟩ := List.mem_flatMap.1 hmem
  have hsign : Item.isSign c := (ht c hc).1
  rcases Item.mem_escapeSign hdc with rfl | rfl
  · exact absurd hd (by decide)
  · simp only [List.mem_cons, List.not_mem_nil, or_false] at hd
    rcases hd with rfl | rfl <;> exact absurd hsign (by decide)

/-- A text of signs is escaped sign by sign. -/
theorem freeColons_signs {t : Text} (ht : ∀ c ∈ t, Item.isSign c ∧ c ≠ '?') :
    freeColons (prepare t) = t.flatMap escapeSign := by
  have hnone : ∀ {c}, Item.isSign c = false → c ∉ t := notMem_of_class fun c hc => (ht c hc).1
  have hmark : ¬ ['/', '?'] <:+: t := fun h =>
    (ht '?' (h.subset (List.mem_cons_of_mem _ List.mem_cons_self))).2 rfl
  rw [prepare_eq (hnone (by decide)) (hnone (by decide)) (hnone (by decide)) hmark, freeColons]
  exact rewrite_of_notMem (fun c rest hc => pairForm_cons hc rest) Pair.write
    (notMem_flatMap_escapeSign ht _ (by simp))

end Wildcard

namespace Kind

/-- A name that implies a kind up to the case of the letters of ASCII does so up to letter case. -/
theorem ofAlias?_fold_of_implied? {name : Text} {k : Kind} (h : implied? name = some k) :
    ofAlias? (name.map fold) = some k := by
  have hfold : ∀ c ∈ name, fold c = c.toLower := by
    intro c hc
    have hmem : name.map Char.toLower ∈ k.aliases := by simpa using List.find?_some h
    have hlower : isSmall c.toLower := (small_of_mem_aliases hmem).2 _ (List.mem_map_of_mem hc)
    have hascii : c.toNat < 128 := by
      have hbound : c.toLower.toNat ≤ 122 := by
        simp only [isSmall, Bool.and_eq_true, decide_eq_true_eq] at hlower
        exact hlower.2
      unfold Char.toLower at hbound
      split at hbound
      · rename_i hupper
        have hlast : c.toNat ≤ 90 := hupper.2
        omega
      · omega
    simpa using fold_ascii ⟨c.toNat, hascii⟩
  rw [List.map_congr_left hfold]
  exact h

end Kind

namespace Pattern

variable {before name behind : Text} {k : Kind}

/-- A written wildcard between two texts is kept by the stages, in whatever letter case its name is. -/
theorem expand_written {w : Wildcard} (hname : w.name ≠ [] ∧ ∀ c ∈ w.name, isBasicLetter c)
    (hsigns : ∀ c ∈ before ++ behind, Item.isSign c ∧ c ≠ '?') :
    expand (freeColons (prepare (before ++ (Item.pair w).write ++ behind))) =
      before.flatMap escapeSign ++ ((Item.pair w).write ++ behind.flatMap escapeSign) := by
  have hpair : (Item.pair w).IsBasic := ⟨hname, w.kind.name_basic⟩
  have hbefore : ∀ c ∈ before, Item.isSign c ∧ c ≠ '?' := fun c hc =>
    hsigns c (List.mem_append_left behind hc)
  have hbehind : ∀ c ∈ behind, Item.isSign c ∧ c ≠ '?' := fun c hc =>
    hsigns c (List.mem_append_right before hc)
  have hfront := notMem_flatMap_escapeSign hbefore
  have hback := notMem_flatMap_escapeSign hbehind
  rw [List.append_assoc, prepare_around hpair, freeColons_around hpair, freeColons_signs hbefore,
    freeColons_signs hbehind]
  generalize before.flatMap escapeSign = front at hfront
  generalize behind.flatMap escapeSign = back at hback
  have hspans : expandSpans (front ++ ((Item.pair w).write ++ back)) =
      front ++ ((Item.pair w).write ++ back) := by
    refine Text.rewrite_eq_self _ fun c hc rest => spanForm_cons ?_ rest
    rintro rfl
    simp only [List.mem_append] at hc
    rcases hc with hc | hc | hc
    · exact hfront _ (by simp) hc
    · exact (hpair.isInSpan_write _ hc).1 rfl
    · exact hback _ (by simp) hc
  have hnames : ∀ {t : Text}, '\x7b' ∉ t → nameFirst t = t :=
    rewrite_of_notMem (fun c rest hc => nameFirstForm_cons hc rest) Pair.write
  have haliases : ∀ {t : Text}, '\x7b' ∉ t → expandAliases t = t :=
    rewrite_of_notMem (fun c rest hc => aliasForm_cons hc rest) Pair.write
  rw [expand, hspans, nameFirst_written hname, hnames (hfront _ (by simp)),
    hnames (hback _ (by simp)), expandAliases_written hname, haliases (hfront _ (by simp)),
    haliases (hback _ (by simp))]

/-- What is written like a wildcard between two texts is none, if its name has a capital. -/
theorem wildcards_capital {w : Wildcard} (hname : w.name ≠ [] ∧ ∀ c ∈ w.name, isBasicLetter c)
    (hcapital : ¬ ∀ c ∈ w.name, isSmall c) (hsigns : ∀ c ∈ before ++ behind, Item.isSign c ∧ c ≠ '?') :
    (compile (before ++ (Item.pair w).write ++ behind)).wildcards = [] := by
  have hform : ∀ c rest, c ≠ '\x7b' → Wildcard.form (c :: rest) = none := fun c rest hc =>
    form_cons hc rest
  have hplain : ∀ t : Text, (∀ c ∈ t, Item.isSign c ∧ c ≠ '?') →
      Text.pieces Wildcard.form (t.flatMap escapeSign) = (t.flatMap escapeSign).map .plain := by
    intro t ht
    have hpieces := pieces_of_notMem hform (notMem_flatMap_escapeSign ht '\x7b' (by simp)) []
    rwa [List.append_nil, show Text.pieces Wildcard.form [] = [] from rfl, List.append_nil] at hpieces
  have hnone : Wildcard.form ((Item.pair w).write ++ behind.flatMap escapeSign) = none := by
    rw [Wildcard.form, pairForm_capital hname hcapital]
  rw [Pair.write_append] at hnone
  rw [compile, ofExpanded, expand_written hname hsigns, Pair.write_append, pieces_kept stopsAt_form hform _
    (brace_notMem_inside hname) hnone, hplain before fun c hc => hsigns c (List.mem_append_left _ hc),
    hplain behind fun c hc => hsigns c (List.mem_append_right _ hc)]
  simp [Text.hits]

/-- **Names that imply a kind.** A name that implies a kind, between two texts, is the wildcard of that
kind if it is written in small letters, and no wildcard otherwise. The expression is then read, it is
accepted exactly if it is small enough, and it captures whatever text of the kind stands between the
two. -/
theorem captures_alias [Limits] (hsigns : ∀ c ∈ before ++ behind, Item.isSign c ∧ c ≠ '?')
    (hname : Kind.implied? name = some k) :
    (compile (before ++ braced name ++ behind)).wildcards =
        (if name.all isSmall then [⟨name, k, false⟩] else []) ∧
      (name.all isSmall → ∃ e,
        Expr.ofTokens? (Token.scan (compile (before ++ braced name ++ behind)).anchored) = some e ∧
        ((compile (before ++ braced name ++ behind)).expr? = .ok e ↔ Limits.fits e) ∧
        ∀ v, k.Takes v → e.captures? (before ++ v ++ behind) = some [v]) := by
  have halias := Kind.ofAlias?_fold_of_implied? hname
  obtain ⟨hne, hletters⟩ := name_of_ofAlias? halias
  obtain ⟨hexpression, hwildcards⟩ := compile_alias before behind halias
  by_cases hsmall : ∀ c ∈ name, isSmall c
  · have hall : name.all isSmall := List.all_eq_true.2 hsmall
    let s := Source.between before ⟨name, k, false⟩ behind ⟨hne, hsmall⟩ hsigns
    have htext : s.text = before ++ Pair.write ⟨false, name, k.name⟩ ++ behind := Source.text_between
    rw [← htext] at hexpression hwildcards
    obtain ⟨hanchored, hexpr⟩ := expr?_congr hexpression
    have hnoted : (compile s.text).wildcards = s.wildcards := by rw [compile_text]
    rw [hwildcards, hanchored, hexpr, if_pos hall, hnoted]
    refine ⟨Source.wildcards_between, fun _ => ⟨s.expr, ?_, ?_, fun v hv => ?_⟩⟩
    · rw [s.scan_anchored, s.ofTokens?_tokens]
    · rw [s.expr?_compile_text_eq_ok_iff]
      exact and_iff_right rfl
    · exact Source.captures?_between hv
  · have hall : ¬ name.all isSmall := fun h => hsmall (List.all_eq_true.1 h)
    refine ⟨?_, fun h => absurd h hall⟩
    rw [if_neg hall, hwildcards]
    exact wildcards_capital (w := ⟨name, k, false⟩) ⟨hne, hletters⟩ hsmall hsigns

/-- A number behind a slash, whose name is written in small letters. -/
theorem captures_alias_id : (∀ c ∈ "blog/".toList ++ "=x".toList, Item.isSign c ∧ c ≠ '?') ∧
    Kind.implied? "id".toList = some .num ∧
    (compile "blog/\x7bid\x7d=x".toList).wildcards = [⟨"id".toList, .num, false⟩] ∧
    ∃ e, (compile "blog/\x7bid\x7d=x".toList).expr? = .ok e ∧
      e.captures? "blog/12=x".toList = some ["12".toList] := by
  have hall : ("blog/".toList ++ "=x".toList).all fun c => Item.isSign c && c != '?' := by decide
  have hsigns : ∀ c ∈ "blog/".toList ++ "=x".toList, Item.isSign c ∧ c ≠ '?' := fun c hc => by
    simpa using List.all_eq_true.1 hall c hc
  have hname : Kind.implied? "id".toList = some .num := by decide
  have htakes : Kind.num.Takes "12".toList := ⟨by decide, List.all_eq_true.1 (by decide)⟩
  have htext : "blog/\x7bid\x7d=x".toList =
      "blog/".toList ++ braced "id".toList ++ "=x".toList := by decide
  have hpath : "blog/12=x".toList = "blog/".toList ++ "12".toList ++ "=x".toList := by decide
  have hfits : (Expr.ofTokens? (Token.scan (compile "blog/\x7bid\x7d=x".toList).anchored)).all
      Limits.fits := by decide +kernel
  obtain ⟨hwildcards, hread⟩ := captures_alias hsigns hname
  rw [← htext] at hwildcards hread
  obtain ⟨e, hparsed, hexpr, hcaptures⟩ := hread (by decide)
  rw [hparsed, Option.all_some] at hfits
  exact ⟨hsigns, hname, hwildcards, e, hexpr.2 hfits, hpath ▸ hcaptures _ htakes⟩

/-- A title written with a capital is text. -/
theorem wildcards_title : Kind.implied? "Title".toList = some .segment ∧
    (compile "\x7bTitle\x7d".toList).wildcards = [] ∧
    (compile "\x7bTitle\x7d".toList).expression = "\\\x7bTitle:segment\\\x7d".toList := by
  decide +kernel

end Pattern

end Detour
