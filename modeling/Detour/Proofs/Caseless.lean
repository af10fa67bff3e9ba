import Detour.Proofs.Spelling

/-!
# Matching ignores letter case

Two paths that differ only in the letter case of ASCII are matched alike. The one fact about characters is
that every set has a character exactly if it has the small letter of it; from there the case variants of
a path are carried through the matcher:

* `CharSet.has_toLower` by the constructors of sets, `Plan.ofExpr_small` by those of expressions;
* `Expr.captures?_small`: the small letters of a path are matched at the same positions, and what is
  captured are the small letters of what the path itself captures;
* `Pattern.captures_caseless` states it for two paths and for all sources. No source can write an inline
  flag, which might ask for another treatment of letter case: `Pattern.opensPlainly_compile` follows the
  question marks through the stages of compilation.
-/

namespace Detour

/-! ### Characters and sets -/

/-- A function of characters that treats the capital letters of ASCII as the small ones. -/
def Caseless {γ : Type} (f : Char → γ) : Prop := ∀ c : Char, f c.toLower = f c

/-- A character outside ASCII has no other case in ASCII. -/
theorem toLower_of_not_ascii {c : Char} (h : ¬ c.toNat < 128) : c.toLower = c := by
  unfold Char.toLower
  split
  · rename_i hupper
    have hlast : c.toNat ≤ 90 := hupper.2
    omega
  · rfl

/-- It is enough to look at ASCII. -/
theorem caseless_of_ascii {γ : Type} {f : Char → γ}
    (h : ∀ n : Fin 128, f (Char.ofNat n).toLower = f (Char.ofNat n)) : Caseless f := by
  intro c
  by_cases hascii : c.toNat < 128
  · have hc := h ⟨c.toNat, hascii⟩
    rwa [Char.ofNat_toNat] at hc
  · rw [toLower_of_not_ascii hascii]

/-- Folding treats capital letters as small ones. -/
theorem caseless_fold : Caseless fold := caseless_of_ascii (by decide)

/-- Digits have no letter case. -/
theorem caseless_isDigit : Caseless isDigit := caseless_of_ascii (by decide)

/-- White space has no letter case. -/
theorem caseless_isBlank : Caseless isBlank := caseless_of_ascii (by decide)

/-- Word characters come in both cases. -/
theorem caseless_isWord : Caseless isWord := caseless_of_ascii (by decide)

/-- The case variants of a character are those of its small letter. -/
theorem caseless_orbit : Caseless orbit := by
  intro c
  rw [orbit, orbit, caseless_fold c]

/-- **A set has both cases of a letter or neither**, also if it is negated, nested or combined. -/
theorem CharSet.has_toLower (a : CharSet) : Caseless a.has := by
  intro c
  induction a with
  | nothing => rfl
  | char a => rw [has, has, sameLetter, sameLetter, caseless_fold c]
  | range lo hi => rw [has, has, caseless_orbit c]
  | digit => exact caseless_isDigit c
  | blank => exact caseless_isBlank c
  | word => exact caseless_isWord c
  | category k => rw [has, has, caseless_orbit c]
  | union a b iha ihb => rw [has, has, iha, ihb]
  | both a b iha ihb => rw [has, has, iha, ihb]
  | except a b iha ihb => rw [has, has, iha, ihb]
  | oneOf a b iha ihb => rw [has, has, iha, ihb]
  | not a ih => rw [has, has, ih]

/-! ### Matching -/

/-- A text in small letters of ASCII. -/
def Text.small (s : Text) : Text := s.map Char.toLower

/-- A text in small letters is as long. -/
@[simp] theorem Text.length_small (s : Text) : s.small.length = s.length := List.length_map _

/-- Characters of a class that ignores letter case stand at the same positions. -/
theorem placesOf_small {p : Char → Bool} (h : Caseless p) (s : Text) :
    placesOf p s.small = placesOf p s := by
  induction s with
  | nil => rfl
  | cons c s ih =>
    have hrest : placesOf p (s.map Char.toLower) = placesOf p s := ih
    rw [Text.small, List.map_cons, placesOf, placesOf, hrest, h c]

/-- An assertion holds at the same positions. -/
theorem Edge.places_small (e : Edge) (s : Text) : e.places s.small = e.places s := by
  simp only [Edge.places, placesOf_small caseless_isWord, Text.length_small]

/-- An expression has the same plan. -/
theorem Plan.ofExpr_small (e : Expr) (s : Text) : ofExpr s.small e = ofExpr s e := by
  induction e with
  | empty => rw [ofExpr, ofExpr, Text.length_small]
  | one a => rw [ofExpr, ofExpr, placesOf_small a.has_toLower]
  | edge e => rw [ofExpr, ofExpr, Edge.places_small]
  | seq a b iha ihb => rw [ofExpr, ofExpr, iha, ihb]
  | alt a b iha ihb => rw [ofExpr, ofExpr, iha, ihb]
  | rep lo hi a ih => rw [ofExpr, ofExpr, ih, Text.length_small]
  | group number a ih =>
    cases number with
    | none => rw [ofExpr, ofExpr, ih]
    | some n => rw [ofExpr, ofExpr, ih]

namespace Expr

/-- An expression matches at the same positions. -/
theorem match?_small (e : Expr) (s : Text) : e.match? s.small = e.match? s := by
  rw [match?, match?, Plan.ofExpr_small, Text.length_small]

/-- A part of a text in small letters. -/
theorem slice_small (s : Text) (i j : Nat) : slice s.small i j = (slice s i j).small := by
  rw [slice, slice, Text.small, Text.small, ← List.map_drop, ← List.map_take]

/-- **What is captured in small letters are the small letters of what is captured.** -/
theorem captures?_small (e : Expr) (s : Text) :
    e.captures? s.small = (e.captures? s).map fun values => values.map Text.small := by
  rw [captures?, captures?, match?_small, Option.map_map]
  refine congrArg (fun f => (e.match? s).map f) (funext fun m => ?_)
  rw [Function.comp_apply, List.map_map]
  refine List.map_congr_left fun n _ => ?_
  rw [Function.comp_apply]
  rcases m.notes.lookup (n + 1) with _ | ⟨i, j⟩
  · rfl
  · exact slice_small s i j

/-- Two texts with the same small letters are matched alike. -/
theorem captures?_of_small_eq {e : Expr} {s t : Text} (h : s.small = t.small) :
    ((e.captures? s).isSome ↔ (e.captures? t).isSome) ∧
      ∀ values others, e.captures? s = some values → e.captures? t = some others →
        values.map Text.small = others.map Text.small := by
  have hs := e.captures?_small s
  have ht := e.captures?_small t
  rw [h] at hs
  have hsame := hs.symm.trans ht
  refine ⟨?_, ?_⟩
  · rw [← Option.isSome_map (x := e.captures? s), hsame, Option.isSome_map]
  · intro values others hvalues hothers
    rw [hvalues, hothers] at hsame
    exact Option.some.inj hsame

end Expr

/-! ### Question marks behind opening brackets -/

/-- Wherever a question mark stands behind an opening bracket, what stands behind both is as asked for. -/
def Opens (ok : Text → Prop) (s : Text) : Prop := ∀ a b, s = a ++ '(' :: '?' :: b → ok b

/-- A text in which no question mark stands behind an opening bracket. -/
def NeverOpens (s : Text) : Prop := Opens (fun _ => False) s

/-- No group opens with a flag: a question mark behind an opening bracket has a colon behind it. -/
def OpensPlainly (s : Text) : Prop := Opens (fun b => b.head? = some ':') s

namespace Opens

variable {ok ok' : Text → Prop} {s t : Text}

/-- The end of a text opens as the text does. -/
theorem of_suffix (h : Opens ok t) (hs : s <:+ t) : Opens ok s := by
  obtain ⟨lead, rfl⟩ := hs
  rintro a b rfl
  exact h (lead ++ a) b (List.append_assoc _ _ _).symm

/-- A text with one more character in front. -/
theorem cons_iff {c : Char} :
    Opens ok (c :: s) ↔ (∀ b, c = '(' → s = '?' :: b → ok b) ∧ Opens ok s := by
  refine ⟨fun h => ⟨?_, h.of_suffix (List.suffix_cons c s)⟩, ?_⟩
  · rintro b rfl rfl
    exact h [] b rfl
  · rintro ⟨hfront, hrest⟩ a b hs
    cases a with
    | nil =>
      obtain ⟨hc, hs⟩ := List.cons.inj hs
      exact hfront b hc hs
    | cons d a => exact hrest a b (List.cons.inj hs).2

/-- A text with another character than an opening bracket in front. -/
theorem cons_of_ne {c : Char} (hc : c ≠ '(') (h : Opens ok s) : Opens ok (c :: s) :=
  cons_iff.2 ⟨fun _ hbracket => absurd hbracket hc, h⟩

/-- A text in front in which no question mark stands behind an opening bracket, and which does not end
with such a bracket. -/
theorem append {w : Text} (hw : Opens (fun _ => False) w) (hlast : w.getLast? ≠ some '(')
    (h : Opens ok s) : Opens ok (w ++ s) := by
  induction w with
  | nil => exact h
  | cons c w ih =>
    obtain ⟨hfront, hw⟩ := cons_iff.1 hw
    cases w with
    | nil => exact cons_of_ne (fun hc => hlast (by rw [hc]; rfl)) h
    | cons d w =>
      refine cons_iff.2 ⟨fun b hc heq => ?_, ih hw ?_⟩
      · obtain ⟨rfl, -⟩ := List.cons.inj heq
        exact (hfront w hc rfl).elim
      · rwa [List.getLast?_cons_cons] at hlast

/-- A text without opening brackets in front. -/
theorem append_of_notMem {w : Text} (hw : '(' ∉ w) (h : Opens ok s) : Opens ok (w ++ s) := by
  refine append ?_ (fun hlast => hw (List.mem_of_getLast? hlast)) h
  rintro a b rfl
  exact hw (by simp)

section Pass

variable {β : Type} {form : Form β} {write : β → Text}

/-- A rewriting that never begins a construct anew with a question mark leaves the question marks in
front where they are. -/
theorem exists_of_rewrite_eq_cons (hhead : ∀ t m size, form t = some (m, size) →
      write m ≠ [] ∧ (write m).head? ≠ some '?') {b : Text}
    (h : Text.rewrite form write s = '?' :: b) :
    ∃ rest, s = '?' :: rest ∧ b = Text.rewrite form write rest := by
  cases s with
  | nil => cases h
  | cons c s =>
    rcases hfound : form (c :: s) with _ | ⟨m, size⟩
    · rw [Text.rewrite_cons write hfound] at h
      obtain ⟨rfl, rfl⟩ := List.cons.inj h
      exact ⟨s, rfl, rfl⟩
    · obtain ⟨hne, hquestion⟩ := hhead _ m size hfound
      obtain ⟨d, more, hmore⟩ := List.exists_cons_of_ne_nil hne
      rw [Text.rewrite_hit write hfound, hmore] at h
      obtain ⟨rfl, -⟩ := List.cons.inj h
      exact absurd (by rw [hmore]; rfl) hquestion

/-- One character in front of a rewritten text. -/
theorem cons_rewrite (hok : ∀ b, ok b → ok' (Text.rewrite form write b))
    (hhead : ∀ t m size, form t = some (m, size) → write m ≠ [] ∧ (write m).head? ≠ some '?')
    {c : Char} (h : Opens ok (c :: s)) (hrest : Opens ok' (Text.rewrite form write s)) :
    Opens ok' (c :: Text.rewrite form write s) := by
  refine cons_iff.2 ⟨fun b hc heq => ?_, hrest⟩
  obtain ⟨rest, rfl, rfl⟩ := exists_of_rewrite_eq_cons hhead heq
  exact hok rest ((cons_iff.1 h).1 rest hc rfl)

/-- **One stage.** A rewriting keeps what stands behind opening brackets if it puts in no question mark
in front, and the constructs that it writes open as they should. -/
theorem rewrite (hok : ∀ b, ok b → ok' (Text.rewrite form write b))
    (hhead : ∀ t m size, form t = some (m, size) → write m ≠ [] ∧ (write m).head? ≠ some '?')
    (hhit : ∀ c s m size, form (c :: s) = some (m, size) → Opens ok (c :: s) →
      Opens ok' (Text.rewrite form write (s.drop (size - 1))) →
        Opens ok' (write m ++ Text.rewrite form write (s.drop (size - 1))))
    (h : Opens ok s) : Opens ok' (Text.rewrite form write s) := by
  induction s using Text.walk_induction form with
  | nil => exact fun a b hs => absurd hs (by simp [Text.rewrite, Text.pieces, Text.piecesFrom, Text.render])
  | plain c s hnone ih =>
    rw [Text.rewrite_cons write hnone]
    exact cons_rewrite hok hhead h (ih (h.of_suffix (List.suffix_cons c s)))
  | hit c s m size hfound ih =>
    rw [Text.rewrite_hit write hfound]
    exact hhit c s m size hfound h
      (ih (h.of_suffix ((List.drop_suffix _ s).trans (List.suffix_cons c s))))

/-- A stage that puts in no opening brackets. -/
theorem rewrite_of_notMem (hok : ∀ b, ok b → ok (Text.rewrite form write b))
    (hwrite : ∀ t m size, form t = some (m, size) →
      write m ≠ [] ∧ (write m).head? ≠ some '?' ∧ '(' ∉ write m)
    (h : Opens ok s) : Opens ok (Text.rewrite form write s) :=
  h.rewrite hok (fun t m size hm => ⟨(hwrite t m size hm).1, (hwrite t m size hm).2.1⟩)
    fun _ _ m size hm _ hrest => append_of_notMem (hwrite _ m size hm).2.2 hrest

end Pass

end Opens

/-! ### The stages of compilation -/

open Wildcard

/-- A character other than a question mark may come to the end. -/
theorem NeverOpens.concat {s : Text} {c : Char} (h : NeverOpens s) (hc : c ≠ '?') :
    NeverOpens (s ++ [c]) := by
  intro a b hab
  rcases List.eq_nil_or_concat b with rfl | ⟨b, d, rfl⟩
  · have hsplit : s ++ [c] = (a ++ ['(']) ++ ['?'] := by
      rw [hab]
      simp
    exact hc (List.cons.inj (List.append_inj' hsplit rfl).2).1
  · have hsplit : s ++ [c] = (a ++ '(' :: '?' :: b) ++ [d] := by
      rw [hab]
      simp
    exact h a b (List.append_inj' hsplit rfl).1

/-- A word is replaced by one that begins with no question mark and has no opening bracket. -/
theorem NeverOpens.replaceAll {word new s : Text} (h : NeverOpens s)
    (hnew : new ≠ [] ∧ new.head? ≠ some '?' ∧ '(' ∉ new) : NeverOpens (Text.replaceAll word new s) := by
  rw [Text.replaceAll_eq_rewrite]
  exact Opens.rewrite_of_notMem (fun _ hfalse => hfalse) (fun _ _ _ _ => hnew) h

/-- With signs escaped, every question mark has a backslash or a slash in front. -/
theorem neverOpens_escapeSigns (source : Text) : NeverOpens (escapeSigns source) := by
  have hescaped : NeverOpens (Text.replaceAll ['?'] ['\\', '?'] source) := by
    rw [Text.replaceAll_singleton]
    induction source with
    | nil => exact fun a b hs => absurd hs (by simp)
    | cons c source ih =>
      rw [List.flatMap_cons]
      by_cases hc : c = '?'
      · rw [if_pos hc]
        exact Opens.append_of_notMem (by decide) ih
      · rw [if_neg hc]
        refine Opens.cons_iff.2 ⟨fun b _ hb => ?_, ih⟩
        cases source with
        | nil => cases hb
        | cons d source =>
          rw [List.flatMap_cons] at hb
          by_cases hd : d = '?'
          · rw [if_pos hd] at hb
            cases hb
          · rw [if_neg hd] at hb
            exact hd (List.cons.inj hb).1
  exact ((hescaped.replaceAll (by decide)).replaceAll (by decide)).replaceAll (by decide)

/-- So it is in a source with the entry script marked and optional characters written out. -/
theorem neverOpens_prepare (source : Text) : NeverOpens (prepare source) := by
  have hmarked : NeverOpens (Text.replaceAll entryScript markedEntry (escapeSigns source)) :=
    (neverOpens_escapeSigns source).replaceAll (by decide)
  refine Opens.rewrite_of_notMem (fun _ hfalse => hfalse) (fun t m size hm => ?_) hmarked
  unfold optionalForm at hm
  split at hm
  · rename_i c rest
    obtain ⟨hc, hm⟩ := Option.ite_none_right_eq_some.1 hm
    obtain ⟨rfl, -⟩ := Prod.mk.inj (Option.some.inj hm)
    have hother : ∀ d, isOptionable d = false → c ≠ d := by
      rintro d hd rfl
      rw [hd] at hc
      exact Bool.false_ne_true hc
    have hquestion : c ≠ '?' := hother '?' (by decide)
    have hbracket : c ≠ '(' := hother '(' (by decide)
    simp [hquestion, hbracket.symm]
  · cases hm

/-- Two words of letters in braces begin with a brace and have no brackets. -/
theorem Wildcard.Pair.IsBasic.write_opens {p : Pair} (hp : p.IsBasic) :
    p.write ≠ [] ∧ p.write.head? ≠ some '?' ∧ '(' ∉ p.write := by
  have hwrite : p.write = '\x7b' :: (p.inside [':'] ++ ['\x7d']) := by
    simpa using Pair.write_append p []
  have hinside : '(' ∉ p.inside [':'] := hp.notMem_inside (by decide) (by decide) (by decide)
  rw [hwrite]
  refine ⟨List.cons_ne_nil _ _, by simp, ?_⟩
  simp [hinside]

/-- Two words of letters in braces are such a pair. -/
theorem isBasic_of_pairForm {letter : Char → Bool} {between t : Text} {p : Pair} {size : Nat}
    (hletter : ∀ c, letter c → isBasicLetter c) (h : pairForm letter between t = some (p, size)) :
    p.IsBasic := by
  obtain ⟨-, -, -, hfirst, hsecond⟩ := writeWith_of_pairForm h
  exact ⟨⟨hfirst.1, fun c hc => hletter c (hfirst.2 c hc)⟩,
    ⟨hsecond.1, fun c hc => hletter c (hsecond.2 c hc)⟩⟩

/-- Setting colons free opens nothing. -/
theorem NeverOpens.freeColons {s : Text} (h : NeverOpens s) : NeverOpens (freeColons s) :=
  Opens.rewrite_of_notMem (fun _ hfalse => hfalse)
    (fun _ _ _ hm => (isBasic_of_pairForm (fun _ hc => hc) hm).write_opens) h

/-- **Spans open plainly.** The one stage that puts a question mark behind an opening bracket puts a colon
behind it. -/
theorem NeverOpens.expandSpans {s : Text} (h : NeverOpens s) : OpensPlainly (expandSpans s) := by
  refine Opens.rewrite (fun _ hfalse => hfalse.elim) (fun _ _ _ _ => ⟨by simp, by simp⟩) ?_ h
  intro c s body size hfound hs hrest
  have hbody : NeverOpens body := by
    unfold spanForm at hfound
    split at hfound
    · rename_i s' heq
      obtain ⟨-, hfound⟩ := Option.ite_none_right_eq_some.1 hfound
      obtain ⟨rfl, -⟩ := Prod.mk.inj (Option.some.inj hfound)
      obtain ⟨-, rfl⟩ := List.cons.inj heq
      intro a b hab
      refine (Opens.cons_iff.1 hs).2 a (b ++ s.dropWhile (fun c => c != '>' && c != '\n')) ?_
      nth_rewrite 1 [← List.takeWhile_append_dropWhile (p := fun c => c != '>' && c != '\n') (l := s)]
      rw [hab]
      simp
    · cases hfound
  have hclosed : OpensPlainly (body ++ ([')'] ++ Text.rewrite spanForm
      (fun body => "(?:".toList ++ body ++ [')']) (s.drop (size - 1)))) := by
    have hlast : (body ++ [')']).getLast? ≠ some '(' := by
      rw [List.getLast?_concat]
      decide
    rw [← List.append_assoc]
    exact Opens.append (hbody.concat (by decide)) hlast hrest
  rw [List.append_assoc, List.append_assoc]
  refine Opens.cons_iff.2 ⟨fun b _ hb => ?_, Opens.cons_of_ne (by decide)
    (Opens.cons_of_ne (by decide) hclosed)⟩
  obtain ⟨-, rfl⟩ := List.cons.inj hb
  rfl

/-- A later stage that writes pairs for constructs in braces keeps plain openings. -/
theorem OpensPlainly.rewrite_of_notMem {β : Type} {form : Form β} {write : β → Text} {s : Text}
    (hcolon : ∀ t, form (':' :: t) = none)
    (hwrite : ∀ t m size, form t = some (m, size) →
      write m ≠ [] ∧ (write m).head? ≠ some '?' ∧ '(' ∉ write m)
    (h : OpensPlainly s) : OpensPlainly (Text.rewrite form write s) := by
  refine Opens.rewrite_of_notMem (fun b hb => ?_) hwrite h
  obtain ⟨rest, rfl⟩ := List.head?_eq_some_iff.1 hb
  rw [Text.rewrite_cons write (hcolon rest)]
  rfl

/-- Turning pairs round keeps plain openings. -/
theorem OpensPlainly.nameFirst {s : Text} (h : OpensPlainly s) : OpensPlainly (nameFirst s) := by
  refine h.rewrite_of_notMem (fun t => rfl) fun t q size hm => Pair.IsBasic.write_opens ?_
  unfold nameFirstForm at hm
  split at hm
  · rename_i p n hpair
    have hp := isBasic_of_pairForm (fun c hc => isBasicLetter_of_isSmall hc) hpair
    split_ifs at hm
    · obtain ⟨rfl, -⟩ := Prod.mk.inj (Option.some.inj hm)
      exact hp
    · obtain ⟨rfl, -⟩ := Prod.mk.inj (Option.some.inj hm)
      exact ⟨hp.second, hp.first⟩
  · cases hm

/-- Writing kinds for aliases keeps plain openings. -/
theorem OpensPlainly.expandAliases {s : Text} (h : OpensPlainly s) : OpensPlainly (expandAliases s) := by
  refine h.rewrite_of_notMem (fun t => rfl) fun t p size hm => Pair.IsBasic.write_opens ?_
  unfold aliasForm at hm
  split at hm
  · obtain ⟨-, hm⟩ := Option.ite_none_right_eq_some.1 hm
    obtain ⟨k, hk, hpair⟩ := Option.map_eq_some_iff.1 hm
    obtain ⟨rfl, -⟩ := Prod.mk.inj hpair
    exact ⟨name_of_ofAlias? hk, k.name_basic⟩
  · cases hm

/-- In a text without the two signs next to each other nothing opens. -/
theorem neverOpens_of_notMem_pair {s : Text} (h : ¬ ['(', '?'] <:+: s) : NeverOpens s := by
  intro a b hab
  refine h ⟨a, b, ?_⟩
  rw [hab]
  simp

/-- The group of a wildcard opens nothing but itself. -/
theorem neverOpens_group (w : Wildcard) : NeverOpens w.group ∧ w.group.getLast? ≠ some '(' := by
  have hfragment : ∀ k : Kind, ¬ ['(', '?'] <:+: '(' :: (k.fragment ++ [')']) := by
    intro k
    cases k <;> decide +kernel
  refine ⟨neverOpens_of_notMem_pair (hfragment w.kind), ?_⟩
  rw [group, List.getLast?_concat]
  decide

/-- Writing groups for wildcards keeps plain openings. -/
theorem OpensPlainly.groups {s : Text} (h : OpensPlainly s) :
    OpensPlainly (Text.rewrite Wildcard.form Wildcard.group s) := by
  refine Opens.rewrite (fun b hb => ?_) (fun _ _ _ _ => ⟨List.cons_ne_nil _ _, by simp [group]⟩)
    (fun _ _ w _ _ _ hrest => (neverOpens_group w).1.append (neverOpens_group w).2 hrest) h
  obtain ⟨rest, rfl⟩ := List.head?_eq_some_iff.1 hb
  rfl

/-- A count has no opening bracket. -/
theorem bracket_notMem_of_countLength? {s : Text} {n : Nat} (h : countLength? s = some n) :
    '(' ∉ s.take n := by
  have hdigits : ∀ t : Text, '(' ∉ t.takeWhile Char.isDigit := fun t hmem =>
    absurd (List.all_eq_true.1 List.all_takeWhile _ hmem) (by decide)
  have htaken : ∀ lead rest : Text, s = lead ++ rest → lead.length = n → '(' ∉ lead → '(' ∉ s.take n := by
    rintro lead rest rfl hlength hlead
    rwa [List.take_left' hlength]
  unfold countLength? at h
  simp only at h
  split at h
  · cases h
  · split at h
    · rename_i rest hrest
      have hcount := eq_takeWhile_append hrest
      refine htaken (s.takeWhile Char.isDigit ++ ['\x7d']) rest ?_ ?_ ?_
      · rw [List.append_assoc]
        exact hcount
      · rw [List.length_append]
        exact Option.some.inj h
      · simp [hdigits s]
    · rename_i rest hrest
      obtain ⟨hclose, h⟩ := Option.ite_none_right_eq_some.1 h
      have hcount := eq_takeWhile_append hrest
      obtain ⟨behind, hbehind⟩ := List.head?_eq_some_iff.1 (beq_iff_eq.1 hclose)
      have hhigh := eq_takeWhile_append hbehind
      refine htaken (s.takeWhile Char.isDigit ++ ',' :: (rest.takeWhile Char.isDigit ++ ['\x7d'])) behind
        ?_ ?_ ?_
      · rw [List.append_assoc, List.cons_append, List.append_assoc, List.singleton_append, ← hhigh]
        exact hcount
      · rw [← Option.some.inj h]
        simp
        omega
      · simp [hdigits s, hdigits rest]
    · cases h

/-- What becomes of braces and escaped characters. -/
theorem braceForm_cases {c : Char} {s m : Text} {size : Nat} (h : braceForm (c :: s) = some (m, size)) :
    (∃ d rest, c = '\\' ∧ s = d :: rest ∧ m = ['\\', d] ∧ size = 2) ∨
      m ≠ [] ∧ m.head? ≠ some '?' ∧ '(' ∉ m := by
  unfold braceForm at h
  split at h
  · rename_i d rest heq
    obtain ⟨rfl, rfl⟩ := Prod.mk.inj (Option.some.inj h)
    obtain ⟨rfl, rfl⟩ := List.cons.inj heq
    exact .inl ⟨d, rest, rfl, rfl, rfl, rfl⟩
  · rename_i s' heq
    obtain ⟨rfl, rfl⟩ := List.cons.inj heq
    refine .inr ?_
    split at h
    · rename_i n hcount
      obtain ⟨rfl, -⟩ := Prod.mk.inj (Option.some.inj h)
      have hcounted := bracket_notMem_of_countLength? hcount
      simp [hcounted]
    · obtain ⟨rfl, -⟩ := Prod.mk.inj (Option.some.inj h)
      decide
  · obtain ⟨rfl, -⟩ := Prod.mk.inj (Option.some.inj h)
    exact .inr (by decide)
  · cases h

/-- Escaping braces keeps plain openings. -/
theorem OpensPlainly.escapeBraces {s : Text} (h : OpensPlainly s) : OpensPlainly (escapeBraces s) := by
  have hok : ∀ b : Text, b.head? = some ':' → (Text.rewrite braceForm id b).head? = some ':' := by
    intro b hb
    obtain ⟨rest, rfl⟩ := List.head?_eq_some_iff.1 hb
    rw [Text.rewrite_cons id (show braceForm (':' :: rest) = none from rfl)]
    rfl
  have hhead : ∀ t m size, braceForm t = some (m, size) → id m ≠ [] ∧ (id m).head? ≠ some '?' := by
    intro t m size hm
    cases t with
    | nil => cases hm
    | cons c t =>
      rcases braceForm_cases hm with ⟨d, rest, -, -, rfl, -⟩ | ⟨hne, hquestion, -⟩
      · exact ⟨List.cons_ne_nil _ _, by simp⟩
      · exact ⟨hne, hquestion⟩
  refine Opens.rewrite hok hhead (fun c s m size hm hs hrest => ?_) h
  rcases braceForm_cases hm with ⟨d, rest, rfl, rfl, rfl, rfl⟩ | ⟨-, -, hbracket⟩
  · -- an escaped character, which may be a bracket
    exact Opens.cons_of_ne (by decide) (Opens.cons_rewrite hok hhead (Opens.cons_iff.1 hs).2 hrest)
  · exact Opens.append_of_notMem hbracket hrest

/-- **No source writes an inline flag.** In the expression of every source a question mark behind an
opening bracket has a colon behind it. -/
theorem Pattern.opensPlainly_compile (source : Text) :
    OpensPlainly (Pattern.compile source).expression := by
  have hspanned : OpensPlainly (expandSpans (freeColons (prepare source))) :=
    NeverOpens.expandSpans (NeverOpens.freeColons (neverOpens_prepare source))
  apply OpensPlainly.escapeBraces
  apply OpensPlainly.groups
  apply OpensPlainly.expandAliases
  apply OpensPlainly.nameFirst
  exact hspanned

namespace Pattern

/-- **Letter case.** Whatever a source says, two paths that differ only in the letter case of ASCII are
either both matched by its expression or both not, and what is captured differs in nothing else. No group
of the expression can open with a flag that asks for another treatment of letter case. -/
theorem captures_caseless [Limits] (source : Text) {s t : Text} (h : s.small = t.small) :
    (∀ e, (compile source).expr? = .ok e →
      ((e.captures? s).isSome ↔ (e.captures? t).isSome) ∧
        ∀ values others, e.captures? s = some values → e.captures? t = some others →
          values.map Text.small = others.map Text.small) ∧
      OpensPlainly (compile source).expression :=
  ⟨fun _ _ => Expr.captures?_of_small_eq h, opensPlainly_compile source⟩

/-- A source with a negated and nested class is matched alike in capital and in small letters. -/
theorem captures_caseless_class :
    Text.small "OLD/PaGe".toList = Text.small "old/page".toList ∧
      ∃ e values, (compile "<old|new>/([^k-m[x-z]]+)".toList).expr? = .ok e ∧
        e.captures? "OLD/PaGe".toList = some ["PaGe".toList] ∧
        e.captures? "old/page".toList = some values ∧ values.map Text.small = ["page".toList] := by
  have hsame : Text.small "OLD/PaGe".toList = Text.small "old/page".toList := by decide
  refine ⟨hsame, ?_⟩
  have hmatched : ((compile "<old|new>/([^k-m[x-z]]+)".toList).expr?.toOption.bind fun e =>
      e.captures? "OLD/PaGe".toList) = some ["PaGe".toList] := by decide +kernel
  obtain ⟨e, hexpr, hcapital⟩ := Option.bind_eq_some_iff.1 hmatched
  have hexpr : (compile "<old|new>/([^k-m[x-z]]+)".toList).expr? = .ok e := by
    rcases hread : (compile "<old|new>/([^k-m[x-z]]+)".toList).expr? with _ | e'
    · rw [hread] at hexpr
      cases hexpr
    · rw [hread] at hexpr
      rw [Option.some.inj hexpr]
  obtain ⟨hboth, hvalues⟩ := (captures_caseless "<old|new>/([^k-m[x-z]]+)".toList hsame).1 e hexpr
  have hsmall := hboth.1 (Option.isSome_of_eq_some hcapital)
  obtain ⟨values, hvalues'⟩ := Option.isSome_iff_exists.1 hsmall
  exact ⟨e, values, hexpr, hcapital, hvalues', (hvalues _ values hcapital hvalues').symm⟩

end Pattern

end Detour
