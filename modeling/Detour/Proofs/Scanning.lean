import Detour.Expr.Token
import Mathlib.Data.List.Basic

/-!
# Constructs read by themselves

A construct of a written expression that is well formed ends where it ends, whatever is written behind
it. So an expression that is put together from texts without malformed constructs is read text by text.

* `Token.form_append`: a well-formed construct is recognised with the same length when more text
  follows. Only a round bracket looks further, for a question mark.
* `Token.Within`: a construct lies within its text, and a long one does not end in a dollar sign.
* `Token.scan_append_of_formed` puts it together, and `Token.scan_enclosed` is what both say about
  the two signs that close an anchored expression.
-/

namespace Detour

/-- Behind the leading characters of a class that do not make up a whole text stands one that is not of
the class, and they are the same when more text follows. -/
theorem exists_behind_takeWhile {p : Char → Bool} {s : Text}
    (h : (s.takeWhile p).length < s.length) :
    ∃ lead c rest, s = lead ++ c :: rest ∧ p c = false ∧
      ∀ more, (lead ++ c :: rest ++ more).takeWhile p = lead := by
  induction s with
  | nil => simp at h
  | cons d s ih =>
    by_cases hd : p d
    · have hlen : (s.takeWhile p).length < s.length := by
        simpa [List.takeWhile_cons, hd] using h
      obtain ⟨lead, c, rest, rfl, hc, hmore⟩ := ih hlen
      refine ⟨d :: lead, c, rest, rfl, hc, fun more => ?_⟩
      rw [List.cons_append, List.cons_append, List.takeWhile_cons_of_pos hd, hmore]
    · exact ⟨[], d, s, rfl, by simpa using hd, fun more => List.takeWhile_cons_of_neg hd⟩

namespace Token

/-- A construct at the front of a text takes so many characters of it, and if these are more than two,
the last of them is no dollar sign. -/
structure Within (s : Text) (n : Nat) : Prop where
  /-- there is a character to take -/
  pos : 0 < n
  /-- there are that many characters -/
  le : n ≤ s.length
  /-- a long construct ends in another sign -/
  last : 2 < n → s[n - 1]? ≠ some '$'

/-- One or two characters of a text. -/
theorem Within.short {s : Text} {n : Nat} (hpos : 0 < n) (hle : n ≤ s.length) (htwo : n ≤ 2) :
    Within s n :=
  ⟨hpos, hle, fun h => absurd h (by omega)⟩

/-- What is written before a sign other than the dollar, with that sign. -/
theorem Within.upTo (lead : Text) {rest : Text} {c : Char} (hc : c ≠ '$') :
    Within (lead ++ c :: rest) (lead.length + 1) := by
  refine ⟨Nat.succ_pos _, by simp, fun _ h => hc ?_⟩
  rw [Nat.add_sub_cancel, List.getElem?_append_right (Nat.le_refl _), Nat.sub_self] at h
  exact Option.some.inj h

/-! ### Escapes -/

/-- Only digits in base sixteen give a code point. -/
theorem hex_of_ofCode {s : Text} (h : ofCode (hexNumber? s) ≠ bad) : s ≠ [] ∧ ∀ c ∈ s, isHex c := by
  by_cases hs : s.isEmpty || !s.all isHex
  · rw [hexNumber?, if_pos hs] at h
    exact absurd rfl h
  · simpa using hs

/-- A code point lies within its text and is the same when more text follows. -/
theorem code_append {width : Nat} {s : Text} {t : Token} {n : Nat} (h : code width s = (t, n))
    (ht : t ≠ bad) :
    (∃ lead c rest, s = lead ++ c :: rest ∧ c ≠ '$' ∧ n = lead.length + 1) ∧
      ∀ more, code width (s ++ more) = (t, n) := by
  by_cases hbrace : ∃ rest, s = '\x7b' :: rest
  · obtain ⟨rest, rfl⟩ := hbrace
    simp only [code] at h
    split at h
    · rename_i hlen
      obtain ⟨lead, c, behind, rfl, hc, hmore⟩ := exists_behind_takeWhile hlen
      have hself := hmore []
      rw [List.append_nil] at hself
      rw [hself] at h
      obtain ⟨rfl, rfl⟩ := Prod.mk.inj h
      refine ⟨⟨'\x7b' :: lead, c, behind, rfl, ?_, rfl⟩, fun more => ?_⟩
      · rintro rfl
        simp at hc
      · have hlonger : lead.length < (lead ++ c :: behind ++ more).length := by
          simp only [List.length_append, List.length_cons]
          omega
        simp only [List.cons_append, code, hmore, if_pos hlonger]
    · exact absurd (Prod.mk.inj h).1.symm ht
  · have hplain : ∀ {s : Text}, (¬ ∃ rest, s = '\x7b' :: rest) → code width s =
        if (s.take width).length = width then (ofCode (hexNumber? (s.take width)), width)
        else (bad, 1) := by
      intro s hs
      unfold code
      split
      · exact absurd ⟨_, rfl⟩ hs
      · rfl
    rw [hplain hbrace] at h
    split at h
    · rename_i hlen
      obtain ⟨rfl, rfl⟩ := Prod.mk.inj h
      obtain ⟨hne, hhex⟩ := hex_of_ofCode ht
      refine ⟨⟨(s.take width).dropLast, (s.take width).getLast hne, s.drop width, ?_, ?_, ?_⟩,
        fun more => ?_⟩
      · rw [← List.singleton_append, ← List.append_assoc, List.dropLast_concat_getLast,
          List.take_append_drop]
      · intro hlast
        have := hhex _ (List.getLast_mem hne)
        rw [hlast] at this
        exact absurd this (by decide)
      · have := List.length_pos_of_ne_nil hne
        rw [List.length_dropLast]
        omega
      · have hle : width ≤ s.length := by
          rw [List.length_take] at hlen
          omega
        have hbrace' : ¬ ∃ rest, s ++ more = '\x7b' :: rest := by
          rintro ⟨rest, hrest⟩
          cases s with
          | nil => simp at hne
          | cons c s => exact hbrace ⟨s, by rw [(List.cons.inj hrest).1]⟩
        rw [hplain hbrace', List.take_append_of_le_length hle, if_pos hlen]
    · exact absurd (Prod.mk.inj h).1.symm ht

/-- The escapes that read on behind their letter. -/
def isLongEscape (c : Char) : Bool := ['p', 'P', 'x', 'u', 'U'].contains c

/-- Other escapes take one letter, whatever follows. -/
theorem escaped_short {c : Char} (hc : isLongEscape c = false) (s : Text) :
    escaped (c :: s) = ((escaped [c]).1, 2) := by
  simp only [isLongEscape, List.contains_eq_mem, List.mem_cons, List.not_mem_nil, or_false,
    decide_eq_false_iff_not, not_or] at hc
  simp only [escaped]
  split <;> simp_all

/-- A category is one letter. -/
theorem ofCategory_append {negated : Bool} {s : Text} (h : ofCategory negated s ≠ bad) :
    (∃ c rest, s = c :: rest ∧ c ≠ '$') ∧
      ∀ more, ofCategory negated (s ++ more) = ofCategory negated s := by
  cases s with
  | nil => exact absurd rfl h
  | cons c s =>
    refine ⟨⟨c, s, rfl, ?_⟩, fun _ => rfl⟩
    rintro rfl
    exact h rfl

/-- An escape lies within its text and is the same when more text follows. -/
theorem escaped_append {s : Text} {t : Token} {n : Nat} (h : escaped s = (t, n)) (ht : t ≠ bad) :
    Within ('\\' :: s) n ∧ ∀ more, escaped (s ++ more) = (t, n) := by
  cases s with
  | nil => exact absurd (Prod.mk.inj h).1.symm ht
  | cons c s =>
    have category {negated : Bool} (hc : ∀ s, escaped (c :: s) = (ofCategory negated s, 3)) :
        Within ('\\' :: c :: s) n ∧ ∀ more, escaped (c :: s ++ more) = (t, n) := by
      rw [hc] at h
      obtain ⟨rfl, rfl⟩ := Prod.mk.inj h
      obtain ⟨⟨d, rest, rfl, hd⟩, hmore⟩ := ofCategory_append ht
      exact ⟨.upTo ['\\', c] hd, fun more => by rw [List.cons_append, hc, hmore]⟩
    have point {width : Nat} (hc : ∀ s, escaped (c :: s) = ((code width s).1, (code width s).2 + 2)) :
        Within ('\\' :: c :: s) n ∧ ∀ more, escaped (c :: s ++ more) = (t, n) := by
      rcases hcode : code width s with ⟨u, m⟩
      rw [hc, hcode] at h
      obtain ⟨rfl, rfl⟩ := Prod.mk.inj h
      obtain ⟨⟨lead, d, rest, rfl, hd, rfl⟩, hmore⟩ := code_append hcode ht
      refine ⟨.upTo ('\\' :: c :: lead) hd, fun more => ?_⟩
      rw [List.cons_append, hc, hmore]
    by_cases hc : isLongEscape c
    · simp only [isLongEscape, List.contains_eq_mem, List.mem_cons, List.not_mem_nil, or_false,
        decide_eq_true_eq] at hc
      rcases hc with rfl | rfl | rfl | rfl | rfl
      · exact category fun _ => rfl
      · exact category fun _ => rfl
      · exact point fun _ => rfl
      · exact point fun _ => rfl
      · exact point fun _ => rfl
    · have hshort := escaped_short (Bool.eq_false_iff.2 hc)
      rw [hshort s] at h
      obtain ⟨rfl, rfl⟩ := Prod.mk.inj h
      exact ⟨.short (by omega) (by simp) (by omega), fun more => hshort (s ++ more)⟩

/-! ### Sets in square brackets -/

namespace Bracket

/-- One character of a set leaves a part of the text behind it, and is the same when more text
follows. -/
theorem single_append {s rest : Text} {t : Token} (h : single s = (t, rest)) (ht : t ≠ bad) :
    rest <:+ s.tail ∧ ∀ more, single (s ++ more) = (t, rest ++ more) := by
  unfold single at h
  split at h
  · exact absurd (Prod.mk.inj h).1.symm ht
  · rename_i s
    rcases hescaped : escaped s with ⟨u, n⟩
    rw [hescaped] at h
    obtain ⟨rfl, rfl⟩ := Prod.mk.inj h
    obtain ⟨hwithin, hmore⟩ := escaped_append hescaped ht
    have hle : n - 1 ≤ s.length := by
      have := hwithin.le
      rw [List.length_cons] at this
      omega
    refine ⟨List.drop_suffix _ _, fun more => ?_⟩
    simp only [List.cons_append, single, hmore, List.drop_append_of_le_length hle]
  · rename_i c s hc
    obtain ⟨rfl, rfl⟩ := Prod.mk.inj h
    refine ⟨List.suffix_refl _, fun more => ?_⟩
    rw [List.cons_append]
    unfold single
    split
    · rename_i heq
      cases heq
    · rename_i heq
      exact absurd (List.cons.inj heq).1 hc
    · rename_i heq
      obtain ⟨rfl, rfl⟩ := List.cons.inj heq
      rfl

/-- The set that a character or a class is by itself. -/
def setOf? : Token → Option CharSet
  | literal c => some (.char c)
  | set a => some a
  | _ => none

/-- The range between two characters, with the text behind it. -/
def rangeOf? : Token → Token × Text → Option (CharSet × Text)
  | literal lo, (literal hi, rest) => if lo ≤ hi then some (.range lo hi, rest) else none
  | _, _ => none

/-- A range is between two characters, and what stands behind it has no part in it. -/
theorem rangeOf?_eq_some {first second : Token} {behind rest : Text} {chars : CharSet}
    (h : rangeOf? first (second, behind) = some (chars, rest)) :
    first ≠ bad ∧ second ≠ bad ∧ rest = behind ∧
      ∀ behind, rangeOf? first (second, behind) = some (chars, behind) := by
  cases first with
  | literal lo =>
    cases second with
    | literal hi =>
      simp only [rangeOf?] at h ⊢
      split at h
      · rename_i hle
        obtain ⟨rfl, rfl⟩ := Prod.mk.inj (Option.some.inj h)
        simp [hle]
      · cases h
    | _ => cases h
  | _ => cases h

/-- Whether a text goes on with a hyphen that makes a range of what stands before. -/
def opensRange : Text → Bool
  | '-' :: c :: _ => c != ']' && c != '-'
  | ['-'] => true
  | _ => false

/-- An item is a range, or else a character or a class. -/
theorem item?_eq {s rest : Text} {first : Token} (hfirst : single s = (first, rest)) :
    item? s = if opensRange rest then rangeOf? first (single rest.tail)
      else (setOf? first).map fun a => (a, rest) := by
  unfold item?
  simp only [hfirst]
  split
  · cases first <;> rfl
  · cases first <;> rfl
  · rename_i tail hbracket hhyphen
    have hrange : opensRange ('-' :: tail) = true := by
      rcases tail with _ | ⟨c, tail⟩
      · rfl
      · unfold opensRange
        split <;> simp_all
    rw [if_pos hrange]
    rfl
  · rename_i hbracket hhyphen hother
    have hrange : opensRange rest = false := by
      unfold opensRange
      split <;> simp_all
    rw [if_neg (by simp [hrange])]
    cases first <;> rfl

/-- A range does not begin or end when more text follows, if something is behind the hyphen. -/
theorem opensRange_append {s : Text} (more : Text) (h : s ≠ []) (hhyphen : s ≠ ['-']) :
    opensRange (s ++ more) = opensRange s := by
  match s with
  | [] => exact absurd rfl h
  | [c] =>
    have hc : c ≠ '-' := fun hc => hhyphen (by rw [hc])
    unfold opensRange
    split <;> split <;> simp_all
  | c :: d :: s =>
    unfold opensRange
    split <;> split <;> simp_all

/-- An item with something behind it is the same when more text follows, and leaves a part of the text
behind it. -/
theorem item?_append {s rest : Text} {chars : CharSet} (h : item? s = some (chars, rest))
    (hrest : rest ≠ []) :
    rest <:+ s.tail ∧ ∀ more, item? (s ++ more) = some (chars, rest ++ more) := by
  rcases hfirst : single s with ⟨first, behind⟩
  rw [item?_eq hfirst] at h
  split at h
  · rename_i hrange
    rcases hsecond : single behind.tail with ⟨second, tail⟩
    rw [hsecond] at h
    obtain ⟨hbad, hbad', rfl, hany⟩ := rangeOf?_eq_some h
    obtain ⟨hsuffix, hmore⟩ := single_append hfirst hbad
    obtain ⟨hsuffix', hmore'⟩ := single_append hsecond hbad'
    have htail : behind.tail ≠ [] := by
      intro hnil
      rw [hnil] at hsecond
      exact hbad' (Prod.mk.inj hsecond).1.symm
    have hbehind : behind ≠ [] ∧ behind ≠ ['-'] := by
      refine ⟨?_, ?_⟩ <;>
        · rintro rfl
          exact htail rfl
    refine ⟨hsuffix'.trans ((List.tail_suffix _).trans ((List.tail_suffix _).trans hsuffix)),
      fun more => ?_⟩
    rw [item?_eq (hmore more), opensRange_append more hbehind.1 hbehind.2, if_pos hrange,
      List.tail_append_of_ne_nil hbehind.1, hmore', hany]
  · rename_i hrange
    rw [Option.map_eq_some_iff] at h
    obtain ⟨a, ha, hpair⟩ := h
    obtain ⟨rfl, rfl⟩ := Prod.mk.inj hpair
    have hbad : first ≠ bad := by
      rintro rfl
      cases ha
    obtain ⟨hsuffix, hmore⟩ := single_append hfirst hbad
    have hhyphen : behind ≠ ['-'] := by
      rintro rfl
      exact hrange rfl
    refine ⟨hsuffix, fun more => ?_⟩
    rw [item?_eq (hmore more), opensRange_append more hrest hhyphen, if_neg hrange, ha]
    rfl

/-- The bracket that opens before a text, behind the sign that negates it. -/
def openedAs (negated : Bool) (s : Text) : Bracket × Text :=
  let hyphens := s.takeWhile (· == '-')
  let s := s.drop hyphens.length
  if hyphens.isEmpty then
    match s with
    | ']' :: rest => (⟨negated, none, .char ']'⟩, rest)
    | _ => (⟨negated, none, .nothing⟩, s)
  else (⟨negated, none, .char '-'⟩, s)

/-- Without the negating sign in front a bracket is not negated. -/
theorem opened_of_ne {c : Char} (hc : c ≠ '^') (s : Text) : opened (c :: s) = openedAs false (c :: s) := by
  unfold opened
  split
  rename_i negated rest heq
  split at heq
  · rename_i hcaret
    exact absurd (List.cons.inj hcaret).1 hc
  · obtain ⟨rfl, rfl⟩ := Prod.mk.inj heq
    rfl

/-- A bracket with something behind its beginning opens the same when more text follows. -/
theorem openedAs_append {negated : Bool} {s rest : Text} {b : Bracket}
    (h : openedAs negated s = (b, rest)) (hrest : rest ≠ []) :
    rest <:+ s ∧ ∀ more, openedAs negated (s ++ more) = (b, rest ++ more) := by
  cases s with
  | nil =>
    obtain ⟨-, rfl⟩ := Prod.mk.inj h
    exact absurd rfl hrest
  | cons c s =>
    by_cases hc : c = '-'
    · subst hc
      have hhyphens : ∀ t : Text, openedAs negated ('-' :: t) =
          (⟨negated, none, .char '-'⟩, ('-' :: t).drop (('-' :: t).takeWhile (· == '-')).length) := by
        intro t
        rfl
      have hlen : (('-' :: s).takeWhile (· == '-')).length < ('-' :: s).length := by
        by_contra hle
        rw [hhyphens, List.drop_eq_nil_of_le (Nat.le_of_not_lt hle)] at h
        exact hrest (Prod.mk.inj h).2.symm
      obtain ⟨lead, c, behind, hs, hc, hmore⟩ := exists_behind_takeWhile hlen
      have hdrop : ∀ more, ('-' :: s ++ more).drop (('-' :: s ++ more).takeWhile (· == '-')).length =
          c :: (behind ++ more) := by
        intro more
        rw [hs, hmore, List.append_assoc, List.drop_left, List.cons_append]
      have hself := hdrop []
      rw [List.append_nil, List.append_nil] at hself
      rw [hhyphens, hself] at h
      obtain ⟨rfl, rfl⟩ := Prod.mk.inj h
      refine ⟨hself ▸ List.drop_suffix _ _, fun more => ?_⟩
      rw [List.cons_append, hhyphens, ← List.cons_append, hdrop]
      rfl
    · have hplain : ∀ t : Text, openedAs negated (c :: t) =
          if c = ']' then (⟨negated, none, .char ']'⟩, t) else (⟨negated, none, .nothing⟩, c :: t) := by
        intro t
        have hnone : (c :: t).takeWhile (· == '-') = [] :=
          List.takeWhile_cons_of_neg (by simpa using hc)
        unfold openedAs
        simp only [hnone, List.length_nil, List.drop_zero, List.isEmpty_nil, if_true]
        split
        · rename_i heq
          obtain ⟨rfl, rfl⟩ := List.cons.inj heq
          rw [if_pos rfl]
        · rename_i hbracket
          rw [if_neg]
          rintro rfl
          exact hbracket t rfl
      rw [hplain] at h
      simp only [List.cons_append]
      split at h
      · rename_i hbracket
        obtain ⟨rfl, rfl⟩ := Prod.mk.inj h
        exact ⟨List.suffix_cons _ _, fun more => by rw [hplain, if_pos hbracket]⟩
      · rename_i hbracket
        obtain ⟨rfl, rfl⟩ := Prod.mk.inj h
        exact ⟨List.suffix_refl _, fun more => by rw [hplain, if_neg hbracket]; rfl⟩

/-- A bracket with something behind its beginning opens the same when more text follows. -/
theorem opened_append {s rest : Text} {b : Bracket} (h : opened s = (b, rest)) (hrest : rest ≠ []) :
    rest <:+ s ∧ ∀ more, opened (s ++ more) = (b, rest ++ more) := by
  cases s with
  | nil =>
    obtain ⟨-, rfl⟩ := Prod.mk.inj h
    exact absurd rfl hrest
  | cons c s =>
    by_cases hc : c = '^'
    · subst hc
      change openedAs true s = (b, rest) at h
      obtain ⟨hsuffix, hmore⟩ := openedAs_append h hrest
      exact ⟨hsuffix.trans (List.suffix_cons _ _), hmore⟩
    · rw [opened_of_ne hc] at h
      obtain ⟨hsuffix, hmore⟩ := openedAs_append h hrest
      refine ⟨hsuffix, fun more => ?_⟩
      rw [List.cons_append, opened_of_ne hc]
      exact hmore more

/-- The set behind an item, where no bracket and no sign between two sets stands first. -/
theorem read?_item {fuel : Nat} {b : Bracket} {outer : List Bracket} {c d : Char} {s : Text}
    (hopen : c ≠ '[') (hclose : c ≠ ']') (hsign : c = d → c ∉ ['&', '-', '~']) :
    read? (fuel + 1) b outer (c :: d :: s) =
      match item? (c :: d :: s) with
      | some (chars, rest) => read? fuel (b.insert chars) outer rest
      | none => none := by
  rw [read?]
  all_goals first | rfl | grind

/-- A set is read the same when more text follows. Behind it stands what stands behind its closing
bracket. -/
theorem read?_append {fuel : Nat} {b : Bracket} {outer : List Bracket} {s rest : Text} {a : CharSet}
    (h : read? fuel b outer s = some (a, rest)) :
    ']' :: rest <:+ s ∧
      ∀ more extra, read? (fuel + extra) b outer (s ++ more) = some (a, rest ++ more) := by
  induction fuel generalizing b outer s with
  | zero => cases h
  | succ fuel ih =>
    have hnil : ∀ {b : Bracket} {outer : List Bracket}, read? fuel b outer [] ≠ some (a, rest) := by
      intro b outer hread
      cases fuel <;> cases hread
    have hsucc : ∀ extra, fuel + 1 + extra = fuel + extra + 1 := fun extra => by omega
    have sign {c : Char} {tail : Text} {next : Bracket}
        (hc : ∀ fuel tail, read? (fuel + 1) b outer (c :: c :: tail) = read? fuel next outer tail)
        (hread : read? fuel next outer tail = some (a, rest)) :
        ']' :: rest <:+ c :: c :: tail ∧ ∀ more extra,
          read? (fuel + 1 + extra) b outer (c :: c :: tail ++ more) = some (a, rest ++ more) := by
      obtain ⟨hsuffix, hmore⟩ := ih hread
      refine ⟨hsuffix.trans ((List.suffix_cons _ _).trans (List.suffix_cons _ _)),
        fun more extra => ?_⟩
      rw [hsucc, List.cons_append, List.cons_append, hc, hmore]
    unfold read? at h
    split at h
    · cases h
    · -- a bracket inside of the set
      rename_i tail
      rcases hopened : opened tail with ⟨inner, behind⟩
      rw [hopened] at h
      have hbehind : behind ≠ [] := by
        rintro rfl
        exact hnil h
      obtain ⟨hsuffix, hmore⟩ := opened_append hopened hbehind
      obtain ⟨hsuffix', hmore'⟩ := ih h
      refine ⟨hsuffix'.trans (hsuffix.trans (List.suffix_cons _ _)), fun more extra => ?_⟩
      rw [hsucc, List.cons_append, read?, hmore]
      exact hmore' more extra
    · rename_i tail
      split at h
      · obtain ⟨rfl, rfl⟩ := Prod.mk.inj (Option.some.inj h)
        exact ⟨List.suffix_refl _, fun more extra => by rw [hsucc]; rfl⟩
      · obtain ⟨hsuffix, hmore⟩ := ih h
        exact ⟨hsuffix.trans (List.suffix_cons _ _), fun more extra => by
          rw [hsucc, ← hmore]; rfl⟩
    · exact sign (fun _ _ => rfl) h
    · exact sign (fun _ _ => rfl) h
    · exact sign (fun _ _ => rfl) h
    · rename_i hempty hopen hclose hboth hexcept honeOf
      split at h
      · rename_i chars behind hitem
        have hbehind : behind ≠ [] := by
          rintro rfl
          exact hnil h
        obtain ⟨hsuffix, hmore⟩ := item?_append hitem hbehind
        obtain ⟨hsuffix', hmore'⟩ := ih h
        refine ⟨hsuffix'.trans (hsuffix.trans (List.tail_suffix _)), fun more extra => ?_⟩
        match s with
        | [] => exact absurd rfl hempty
        | [c] => exact absurd (List.suffix_nil.1 hsuffix) hbehind
        | c :: d :: s =>
          have hitem' := hmore more
          rw [List.cons_append, List.cons_append] at hitem'
          rw [hsucc, List.cons_append, List.cons_append, read?_item, hitem']
          · exact hmore' more extra
          · rintro rfl
            exact hopen _ rfl
          · rintro rfl
            exact hclose _ rfl
          · rintro rfl hc
            simp only [List.mem_cons, List.not_mem_nil, or_false] at hc
            rcases hc with rfl | rfl | rfl
            · exact hboth _ rfl
            · exact hexcept _ rfl
            · exact honeOf _ rfl
      · cases h

end Bracket

/-- A set in square brackets ends at its closing bracket. -/
theorem bracketed_append {s : Text} {t : Token} {n : Nat} (h : bracketed s = (t, n)) (ht : t ≠ bad) :
    Within ('[' :: s) (n + 1) ∧ ∀ more, bracketed (s ++ more) = (t, n) := by
  rcases hopened : Bracket.opened s with ⟨b, behind⟩
  simp only [bracketed, hopened] at h
  split at h
  · rename_i a rest hread
    obtain ⟨rfl, rfl⟩ := Prod.mk.inj h
    have hbehind : behind ≠ [] := by
      rintro rfl
      cases hread
    obtain ⟨hsuffix, hmore⟩ := Bracket.opened_append hopened hbehind
    obtain ⟨hsuffix', hmore'⟩ := Bracket.read?_append hread
    obtain ⟨lead, rfl⟩ := hsuffix'.trans hsuffix
    refine ⟨?_, fun more => ?_⟩
    · have hlen : (lead ++ ']' :: rest).length - rest.length + 1 = ('[' :: lead).length + 1 := by
        simp only [List.length_append, List.length_cons]
        omega
      rw [hlen]
      exact .upTo ('[' :: lead) (by decide)
    · have hfuel : (lead ++ ']' :: rest ++ more).length + 1 =
          (lead ++ ']' :: rest).length + 1 + more.length := by
        rw [List.length_append]
        omega
      simp only [bracketed, hmore, hfuel, hmore']
      rw [List.length_append, @List.length_append _ rest, Nat.add_sub_add_right]
  · exact absurd (Prod.mk.inj h).1.symm ht

/-! ### Counts in braces -/

/-- A count ends at its closing brace. -/
theorem counted_append {s : Text} {t : Token} {n : Nat} (h : counted s = (t, n)) (ht : t ≠ bad) :
    Within ('\x7b' :: s) n ∧ ∀ more, counted (s ++ more) = (t, n) := by
  have hlow : (s.takeWhile Char.isDigit).length < s.length := by
    by_contra hle
    simp only [counted, List.drop_eq_nil_of_le (Nat.le_of_not_lt hle)] at h
    split at h <;> exact absurd (Prod.mk.inj h).1.symm ht
  obtain ⟨low, c, rest, rfl, hc, hmore⟩ := exists_behind_takeWhile hlow
  have hdrop : ∀ more, (low ++ c :: rest ++ more).drop low.length = c :: (rest ++ more) := by
    intro more
    rw [List.append_assoc, List.drop_left, List.cons_append]
  have hself := hmore []
  have hself' := hdrop []
  simp only [List.append_nil] at hself hself'
  simp only [counted, hself, hself'] at h
  simp only [counted, hmore, hdrop]
  split at h
  · exact absurd (Prod.mk.inj h).1.symm ht
  · rename_i hfirst
    simp only [if_neg hfirst]
    split at h
    · rename_i heq
      obtain ⟨rfl, rfl⟩ := List.cons.inj heq
      obtain ⟨rfl, rfl⟩ := Prod.mk.inj h
      exact ⟨.upTo ('\x7b' :: low) (by decide), fun _ => rfl⟩
    · rename_i heq
      obtain ⟨rfl, rfl⟩ := List.cons.inj heq
      have hhigh : (rest.takeWhile Char.isDigit).length < rest.length := by
        by_contra hle
        simp only [List.drop_eq_nil_of_le (Nat.le_of_not_lt hle)] at h
        exact absurd (Prod.mk.inj h).1.symm ht
      obtain ⟨high, d, rest, rfl, hd, hmore'⟩ := exists_behind_takeWhile hhigh
      have hdrop' : ∀ more, (high ++ d :: rest ++ more).drop high.length = d :: (rest ++ more) := by
        intro more
        rw [List.append_assoc, List.drop_left, List.cons_append]
      have hself := hmore' []
      have hself' := hdrop' []
      simp only [List.append_nil] at hself hself'
      simp only [hself, hself'] at h
      simp only [hmore', hdrop']
      split at h
      · rename_i heq
        obtain ⟨rfl, rfl⟩ := List.cons.inj heq
        have hwithin : Within ('\x7b' :: (low ++ ',' :: (high ++ '\x7d' :: rest)))
            (low.length + high.length + 3) := by
          have : Within ('\x7b' :: (low ++ ',' :: high) ++ '\x7d' :: rest) _ := .upTo _ (by decide)
          simp only [List.length_cons, List.length_append, List.cons_append, List.append_assoc] at this
          rwa [show low.length + high.length + 3 = low.length + (high.length + 1) + 1 + 1 by omega]
        split at h
        · rename_i hempty
          rw [List.isEmpty_iff] at hempty
          subst hempty
          obtain ⟨rfl, rfl⟩ := Prod.mk.inj h
          exact ⟨hwithin, fun _ => rfl⟩
        · rename_i hfull
          split at h
          · exact absurd (Prod.mk.inj h).1.symm ht
          · rename_i hlimit
            obtain ⟨rfl, rfl⟩ := Prod.mk.inj h
            refine ⟨hwithin, fun _ => ?_⟩
            rw [if_neg hfull, if_neg hlimit]
            rfl
      · exact absurd (Prod.mk.inj h).1.symm ht
    · exact absurd (Prod.mk.inj h).1.symm ht

/-! ### All constructs -/

/-- A well-formed construct ends where it ends, whatever follows; only a bracket that captures must
not be followed by a question mark. -/
theorem form_append {s : Text} {t : Token} {n : Nat} (h : form s = some (t, n)) (ht : t ≠ bad) :
    Within s n ∧ ∀ more, (t = opening true → more.head? ≠ some '?') →
      form (s ++ more) = some (t, n) := by
  have one {c : Char} {s : Text} (hform : ∀ s, form (c :: s) = some (t, n)) (hn : n = 1) :
      Within (c :: s) n ∧ ∀ more, (t = opening true → more.head? ≠ some '?') →
        form (c :: s ++ more) = some (t, n) :=
    ⟨.short (by omega) (by simp; omega) (by omega), fun more _ => hform (s ++ more)⟩
  cases s with
  | nil => cases h
  | cons c s =>
    simp only [form] at h
    split at h
    · obtain ⟨hwithin, hmore⟩ := escaped_append (Option.some.inj h) ht
      exact ⟨hwithin, fun more _ => congrArg some (hmore more)⟩
    · rcases hset : bracketed s with ⟨u, m⟩
      rw [hset] at h
      obtain ⟨rfl, rfl⟩ := Prod.mk.inj (Option.some.inj h)
      obtain ⟨hwithin, hmore⟩ := bracketed_append hset ht
      refine ⟨hwithin, fun more _ => ?_⟩
      simp only [List.cons_append, form, hmore]
    · obtain ⟨hwithin, hmore⟩ := counted_append (Option.some.inj h) ht
      exact ⟨hwithin, fun more _ => congrArg some (hmore more)⟩
    · split at h
      · rename_i rest
        obtain ⟨rfl, rfl⟩ := Prod.mk.inj (Option.some.inj h)
        exact ⟨.upTo ['(', '?'] (by decide), fun more _ => rfl⟩
      · exact absurd (Prod.mk.inj (Option.some.inj h)).1.symm ht
      · rename_i hcolon hquestion
        obtain ⟨rfl, rfl⟩ := Prod.mk.inj (Option.some.inj h)
        refine ⟨.short (by omega) (by simp) (by omega), fun more hmore => ?_⟩
        have hhead : (s ++ more).head? ≠ some '?' := by
          cases s with
          | nil => exact hmore rfl
          | cons d s =>
            intro hd
            exact hquestion s (by rw [Option.some.inj hd])
        simp only [List.cons_append, form]
        split
        · rename_i heq
          exact absurd (congrArg List.head? heq) hhead
        · rename_i heq
          exact absurd (congrArg List.head? heq) hhead
        · rfl
    all_goals first
      | obtain ⟨rfl, rfl⟩ := Prod.mk.inj (Option.some.inj h)
        exact one (fun _ => rfl) rfl
      | cases h

/-- A character that begins no construct begins none when more text follows. -/
theorem form_append_eq_none {c : Char} {s : Text} (h : form (c :: s) = none) (more : Text) :
    form (c :: s ++ more) = none := by
  simp only [List.cons_append, form] at h ⊢
  split at h
  all_goals first
    | rfl
    | cases h
    | split at h <;> cases h

/-! ### Whole texts -/

/-- A construct at the front is one token. -/
theorem scan_append {t : Token} {lead rest : Text} (h : lead ≠ [])
    (hf : form (lead ++ rest) = some (t, lead.length)) : scan (lead ++ rest) = t :: scan rest := by
  rw [scan, Text.pieces_append h hf]
  rfl

/-- A character that begins no construct is a literal. -/
theorem scan_literal {c : Char} {rest : Text} (h : form (c :: rest) = none) :
    scan (c :: rest) = literal c :: scan rest := by
  rw [scan, Text.pieces_cons h]
  rfl

/-- The first token of a text is a literal, or a construct that is read first. -/
theorem scan_cases (c : Char) (s : Text) :
    (form (c :: s) = none ∧ scan (c :: s) = literal c :: scan s) ∨
      ∃ t, t ∈ scan (c :: s) ∧ (t = bad ∨ ∃ lead rest, c :: s = lead ++ rest ∧ lead ≠ [] ∧
        form (c :: s) = some (t, lead.length) ∧ scan (c :: s) = t :: scan rest) := by
  rcases hform : form (c :: s) with _ | ⟨t, n⟩
  · exact .inl ⟨rfl, scan_literal hform⟩
  · have hmem : t ∈ scan (c :: s) := by
      simp [scan, Text.pieces, Text.piecesFrom, hform]
    refine .inr ⟨t, hmem, ?_⟩
    by_cases ht : t = bad
    · exact .inl ht
    · have hwithin := (form_append hform ht).1
      have hlen : ((c :: s).take n).length = n := List.length_take_of_le hwithin.le
      have hne : (c :: s).take n ≠ [] := by
        intro hnil
        rw [hnil] at hlen
        exact absurd hwithin.pos (by simp [← hlen])
      have hscan : scan ((c :: s).take n ++ (c :: s).drop n) = t :: scan ((c :: s).drop n) :=
        scan_append hne (by rw [List.take_append_drop, hlen, hform])
      rw [List.take_append_drop] at hscan
      exact .inr ⟨_, _, (List.take_append_drop n _).symm, hne, by rw [hlen], hscan⟩

/-- A text whose constructs are well formed is read by itself, whatever is written behind it, unless
that begins with a question mark. -/
theorem scan_append_of_formed {s rest : Text} (h : bad ∉ scan s) (hrest : rest.head? ≠ some '?') :
    scan (s ++ rest) = scan s ++ scan rest := by
  induction hlen : s.length using Nat.strongRecOn generalizing s with
  | _ len ih =>
    subst hlen
    cases s with
    | nil => rfl
    | cons c s =>
      rcases scan_cases c s with ⟨hform, hscan⟩ | ⟨t, hmem, rfl | ⟨lead, tail, hs, hne, hform, hscan⟩⟩
      · have hform' : form (c :: (s ++ rest)) = none := form_append_eq_none hform rest
        rw [hscan] at h ⊢
        rw [List.cons_append, scan_literal hform', List.cons_append,
          ih s.length (by simp) (fun hbad => h (List.mem_cons_of_mem _ hbad)) rfl]
      · exact absurd hmem h
      · have ht : t ≠ bad := fun ht => h (ht ▸ hmem)
        rw [hscan] at h ⊢
        have hshort : tail.length < (c :: s).length := by
          have := List.length_pos_of_ne_nil hne
          rw [hs, List.length_append]
          omega
        have hform' := (form_append hform ht).2 rest fun _ => hrest
        rw [hs, List.append_assoc] at hform' ⊢
        rw [scan_append hne hform', ih _ hshort (fun hbad => h (List.mem_cons_of_mem _ hbad)) rfl,
          List.cons_append]

/-- A well-formed text in front of a closing bracket and a dollar sign leaves the dollar sign alone. -/
theorem scan_enclosed {s : Text} (h : bad ∉ scan (s ++ [')', '$'])) :
    ∃ ts, scan (s ++ [')', '$']) = ts ++ [edge .stop] := by
  induction hlen : s.length using Nat.strongRecOn generalizing s with
  | _ len ih =>
    subst hlen
    cases s with
    | nil => exact ⟨[closing], rfl⟩
    | cons c s =>
      -- what stands behind the first token is shorter, or the end itself
      have behind {t : Token} (tail : Text) (h : bad ∉ t :: scan (tail ++ [')', '$']))
          (hshort : tail.length < (c :: s).length) :
          ∃ ts, t :: scan (tail ++ [')', '$']) = ts ++ [edge .stop] := by
        obtain ⟨ts, hts⟩ := ih _ hshort (fun hbad => h (List.mem_cons_of_mem _ hbad)) rfl
        exact ⟨t :: ts, by rw [hts, List.cons_append]⟩
      rw [List.cons_append] at h ⊢
      rcases scan_cases c (s ++ [')', '$']) with
        ⟨hform, hscan⟩ | ⟨t, hmem, rfl | ⟨lead, tail, hs, hne, hform, hscan⟩⟩
      · rw [hscan] at h ⊢
        exact behind s h (by simp)
      · exact absurd hmem h
      · have ht : t ≠ bad := fun ht => h (ht ▸ hmem)
        have hlast := (form_append hform ht).1.last
        rw [hscan] at h ⊢
        rw [← List.cons_append] at hs hlast
        rcases List.append_eq_append_iff.1 hs with ⟨mid, rfl, hmid⟩ | ⟨mid, hmid, rfl⟩
        · -- the construct ends in front of the two signs, at the bracket, or at the dollar sign
          match mid, hmid with
          | [], hmid =>
            rw [← List.nil_append tail, ← hmid] at h ⊢
            exact behind [] h (by simp)
          | [a], hmid =>
            obtain ⟨-, rfl⟩ := List.cons.inj hmid
            exact ⟨[t], rfl⟩
          | [a, b], hmid =>
            obtain ⟨-, hmid⟩ := List.cons.inj hmid
            obtain ⟨rfl, rfl⟩ := List.cons.inj hmid
            have hlong : 2 < (c :: s ++ [a, '$']).length := by simp
            exact absurd (by simp) (hlast hlong)
          | a :: b :: d :: mid, hmid => simp at hmid
        · refine behind _ h ?_
          have := List.length_pos_of_ne_nil hne
          rw [hmid, List.length_append]
          omega

end Token
end Detour
