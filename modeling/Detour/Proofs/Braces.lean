import Detour.Proofs.Ink
import Detour.Proofs.Source
import Mathlib.Algebra.Ring.Parity
import Mathlib.Data.List.DropRight

/-!
# Braces in expressions

Before an expression is read, backslashes are put before the braces that would mean nothing in it. Which
ones these are is said here by places in the text: `Wildcard.Escapes` tells whether a character is escaped
by what stands before it, and `Wildcard.IsCount` what a count of rounds is.

* `Wildcard.part_induction` takes a text part by part: an escaped character, a count, a stray brace or any
  other sign. Each part has its equation, such as `Wildcard.escapeBraces_count`.
* `Wildcard.escapeBraces_split`: where nothing is escaped and no count goes on, a text may be cut.
* `Wildcard.Guarded`: every brace that comes out is escaped or belongs to a count that went in, and
  `Wildcard.Guarded.append` adds one part to it.
* `Wildcard.escapeBraces_guarded` puts them together.
-/

namespace Detour

namespace Wildcard

variable {b c : Char} {s w front back : Text}

/-! ### Escapes and counts -/

/-- A brace, opening or closing. -/
def IsBrace (c : Char) : Prop := c = '\x7b' ∨ c = '\x7d'

/-- Whether a text escapes the character behind it: it ends in an odd number of backslashes. -/
def Escapes (before : Text) : Prop := Odd (before.rtakeWhile (· == '\\')).length

instance (before : Text) : Decidable (Escapes before) :=
  inferInstanceAs (Decidable (Odd (before.rtakeWhile (· == '\\')).length))

/-- A count of rounds: a number in braces, perhaps with a comma and another number behind it. -/
def IsCount (w : Text) : Prop :=
  ∃ low more, w = '\x7b' :: (low ++ (more ++ ['\x7d'])) ∧ low ≠ [] ∧ (∀ c ∈ low, c.isDigit) ∧
    (more = [] ∨ ∃ high, more = ',' :: high ∧ ∀ c ∈ high, c.isDigit)

/-- A text that ends in another character escapes nothing. -/
theorem not_escapes_of_getLast? (h : s.getLast? = some c) (hc : c ≠ '\\') : ¬ Escapes s := by
  obtain ⟨t, rfl⟩ := List.getLast?_eq_some_iff.1 h
  rw [Escapes, List.rtakeWhile_concat_neg _ _ _ (by simpa using hc)]
  decide

/-- Behind a text that escapes nothing, only what follows it counts. -/
theorem escapes_append {p : Text} (h : ¬ Escapes p) (back : Text) : Escapes (p ++ back) ↔ Escapes back := by
  rw [Escapes, List.rtakeWhile, List.length_reverse, Nat.not_odd_iff_even] at h
  rw [Escapes, Escapes, List.rtakeWhile, List.rtakeWhile, List.length_reverse, List.length_reverse,
    List.reverse_append, List.takeWhile_append]
  split
  · rename_i hall
    rw [List.length_append, Nat.odd_add, hall]
    exact ⟨fun hiff => hiff.2 h, fun hodd => ⟨fun _ => h, fun _ => hodd⟩⟩
  · rfl

/-- An escaped character escapes nothing, be it a backslash. -/
theorem escapes_pair (c : Char) (s : Text) : Escapes ('\\' :: c :: s) ↔ Escapes s := by
  refine escapes_append (p := ['\\', c]) ?_ s
  by_cases hc : c = '\\'
  · subst hc
    decide
  · exact not_escapes_of_getLast? rfl hc

/-- Nor does any other sign. -/
theorem escapes_sign (hc : c ≠ '\\') (s : Text) : Escapes (c :: s) ↔ Escapes s :=
  escapes_append (p := [c]) (not_escapes_of_getLast? rfl hc) s

/-- A brace is no backslash. -/
theorem IsBrace.ne (h : IsBrace c) : c ≠ '\\' := by
  obtain rfl | rfl := h <;> decide

/-- Between the braces of a count are digits and commas. -/
theorem IsCount.exists_body (h : IsCount w) :
    ∃ body, w = '\x7b' :: (body ++ ['\x7d']) ∧ ∀ c ∈ body, c.isDigit ∨ c = ',' := by
  obtain ⟨low, more, rfl, -, hlow, hmore⟩ := h
  refine ⟨low ++ more, by rw [List.append_assoc], fun c hc => ?_⟩
  rcases List.mem_append.1 hc with hc | hc
  · exact .inl (hlow c hc)
  · obtain rfl | ⟨high, rfl, hhigh⟩ := hmore
    · exact absurd hc List.not_mem_nil
    · exact (List.mem_cons.1 hc).symm.imp_left (hhigh c)

/-- A count escapes nothing. -/
theorem IsCount.not_escapes (h : IsCount w) : ¬ Escapes w := by
  obtain ⟨body, rfl, -⟩ := h.exists_body
  exact not_escapes_of_getLast? (List.getLast?_concat (l := '\x7b' :: body)) (by decide)

/-- Its braces are the first and the last character of a count. -/
theorem IsCount.ends (h : IsCount w) {before after : Text} (hw : w = before ++ b :: after)
    (hb : IsBrace b) : before = [] ∨ before ++ [b] = w := by
  obtain ⟨body, rfl, hbody⟩ := h.exists_body
  cases before with
  | nil => exact .inl rfl
  | cons d before =>
    obtain ⟨rfl, hrest⟩ : '\x7b' = d ∧ body ++ ['\x7d'] = before ++ b :: after := List.cons.inj hw
    rcases List.eq_nil_or_concat after with rfl | ⟨after, z, rfl⟩
    · exact .inr (congrArg ('\x7b' :: ·) hrest.symm)
    · have hsplit : before ++ b :: after.concat z = (before ++ b :: after) ++ [z] := by simp
      have hinner : body = before ++ b :: after := (List.append_inj' (hrest.trans hsplit) rfl).1
      rcases hbody b (by simp [hinner]) with hdigit | rfl
      · obtain rfl | rfl := hb <;> exact absurd hdigit (by decide)
      · obtain hb | hb := hb <;> exact absurd hb (by decide)

/-- A count is recognised behind its opening brace, whatever follows. -/
theorem countLength?_of_isCount {t : Text} (h : IsCount ('\x7b' :: t)) (s : Text) :
    countLength? (t ++ s) = some t.length := by
  obtain ⟨low, more, ht, hne, hlow, hmore⟩ := h
  obtain rfl := (List.cons.inj ht).2
  have hlowest {u : Text} (hu : ∀ c, u.head? = some c → c.isDigit = false) :
      (low ++ u).takeWhile Char.isDigit = low := takeWhile_append_of_head hlow hu
  obtain rfl | ⟨high, rfl, hhigh⟩ := hmore
  · have htake := hlowest (u := '\x7d' :: s) (by simp)
    simp [countLength?, htake, hne]
  · have htake := hlowest (u := ',' :: (high ++ '\x7d' :: s)) (by simp)
    have hhighest : (high ++ '\x7d' :: s).takeWhile Char.isDigit = high :=
      takeWhile_append_of_head hhigh (by simp)
    simp [countLength?, htake, hhighest, hne]
    omega

/-- What is recognised behind an opening brace is a count. -/
theorem exists_isCount {n : Nat} (h : countLength? s = some n) :
    ∃ t rest, s = t ++ rest ∧ t.length = n ∧ IsCount ('\x7b' :: t) := by
  have hdigits (u : Text) : ∀ c ∈ u.takeWhile Char.isDigit, c.isDigit := fun _ hc =>
    List.mem_takeWhile_imp hc
  unfold countLength? at h
  simp only at h
  split at h
  · cases h
  · rename_i hlow
    rw [List.isEmpty_iff] at hlow
    split at h
    · rename_i rest hrest
      refine ⟨s.takeWhile Char.isDigit ++ ['\x7d'], rest, ?_, ?_, _, [], rfl, hlow, hdigits s, .inl rfl⟩
      · rw [List.append_assoc]
        exact eq_takeWhile_append hrest
      · rw [List.length_append]
        exact Option.some.inj h
    · rename_i rest hrest
      obtain ⟨hclose, h⟩ := Option.ite_none_right_eq_some.1 h
      obtain ⟨behind, hbehind⟩ := List.head?_eq_some_iff.1 (beq_iff_eq.1 hclose)
      refine ⟨s.takeWhile Char.isDigit ++ (',' :: rest.takeWhile Char.isDigit ++ ['\x7d']), behind, ?_, ?_,
        _, _, rfl, hlow, hdigits s, .inr ⟨_, rfl, hdigits rest⟩⟩
      · have hhigh := eq_takeWhile_append hbehind
        rw [List.append_assoc, List.append_assoc, List.cons_append, List.singleton_append, ← hhigh]
        exact eq_takeWhile_append hrest
      · rw [← Option.some.inj h]
        simp
        omega
    · cases h

/-! ### Part by part -/

/-- An escaped character is copied. -/
theorem escapeBraces_escape (c : Char) (s : Text) :
    escapeBraces ('\\' :: c :: s) = '\\' :: c :: escapeBraces s := by
  have hform : braceForm (['\\', c] ++ s) = some (['\\', c], ['\\', c].length) := rfl
  exact Text.rewrite_append id (by simp) hform

/-- A count is copied. -/
theorem escapeBraces_count (h : IsCount w) (s : Text) : escapeBraces (w ++ s) = w ++ escapeBraces s := by
  obtain ⟨body, rfl, -⟩ := h.exists_body
  refine Text.rewrite_append id (by simp) ?_
  have htake : (body ++ ['\x7d'] ++ s).take (body ++ ['\x7d']).length = body ++ ['\x7d'] := List.take_left
  simp only [List.cons_append, braceForm, countLength?_of_isCount h, htake]
  rfl

/-- A stray brace is escaped. -/
theorem escapeBraces_stray (hb : IsBrace b) (h : ∀ w, IsCount w → ¬ w <+: b :: s) :
    escapeBraces (b :: s) = '\\' :: b :: escapeBraces s := by
  have hform : braceForm (b :: s) = some (['\\', b], 1) := by
    obtain rfl | rfl := hb
    · cases hcount : countLength? s with
      | none => rw [braceForm, hcount]
      | some n =>
        obtain ⟨t, rest, rfl, -, ht⟩ := exists_isCount hcount
        exact absurd ⟨rest, rfl⟩ (h _ ht)
    · rfl
  exact Text.rewrite_hit id hform

/-- Any other sign is copied. -/
theorem escapeBraces_sign (hc : c ≠ '\\') (hbrace : ¬ IsBrace c) (s : Text) :
    escapeBraces (c :: s) = c :: escapeBraces s := by
  refine Text.rewrite_cons id ?_
  rw [IsBrace, not_or] at hbrace
  unfold braceForm
  split <;> simp_all

/-- A text part by part: an escaped character, a count, a stray brace, or any other sign; at the end there
may be a backslash with nothing behind it. -/
theorem part_induction {P : Text → Prop} (nil : P []) (last : P ['\\'])
    (escape : ∀ c s, P s → P ('\\' :: c :: s))
    (count : ∀ w s, IsCount w → P s → P (w ++ s))
    (stray : ∀ b s, IsBrace b → (∀ w, IsCount w → ¬ w <+: b :: s) → P s → P (b :: s))
    (sign : ∀ c s, c ≠ '\\' → ¬ IsBrace c → P s → P (c :: s)) (s : Text) : P s := by
  induction hlength : s.length using Nat.strongRecOn generalizing s with
  | _ n ih =>
    subst hlength
    cases s with
    | nil => exact nil
    | cons c s =>
      by_cases hc : c = '\\'
      · subst hc
        cases s with
        | nil => exact last
        | cons c s => exact escape c s (ih s.length (Nat.lt_succ_of_lt (Nat.lt_succ_self _)) s rfl)
      by_cases hbrace : IsBrace c
      · by_cases hcount : ∃ w, IsCount w ∧ w <+: c :: s
        · obtain ⟨w, hw, rest, hrest⟩ := hcount
          rw [← hrest]
          have hshort : rest.length < (c :: s).length := by
            obtain ⟨body, rfl, -⟩ := hw.exists_body
            rw [← hrest, List.length_append, List.length_cons]
            omega
          exact count w rest hw (ih _ hshort rest rfl)
        · exact stray c s hbrace (fun w hw hprefix => hcount ⟨w, hw, hprefix⟩) (ih s.length (by simp) s rfl)
      · exact sign c s hc hbrace (ih s.length (by simp) s rfl)

/-! ### Cuts -/

/-- **Where nothing is escaped and no count goes on, a text may be cut.** -/
theorem escapeBraces_split (hfront : ¬ Escapes front)
    (hback : ∀ c, back.head? = some c → ¬ (c.isDigit ∨ c = ',' ∨ c = '\x7d')) :
    escapeBraces (front ++ back) = escapeBraces front ++ escapeBraces back := by
  induction front using part_induction with
  | nil => rfl
  | last => exact absurd (by decide) hfront
  | escape c s ih =>
    rw [escapes_pair] at hfront
    rw [List.cons_append, List.cons_append, escapeBraces_escape, escapeBraces_escape, ih hfront]
    rfl
  | count w s hw ih =>
    rw [escapes_append hw.not_escapes] at hfront
    rw [List.append_assoc, escapeBraces_count hw, escapeBraces_count hw, ih hfront, List.append_assoc]
  | stray b s hb hcount ih =>
    rw [escapes_sign hb.ne] at hfront
    have hmore : ∀ w, IsCount w → ¬ w <+: b :: (s ++ back) := by
      rintro w hw ⟨rest, hrest⟩
      rw [← List.cons_append] at hrest
      rcases List.append_eq_append_iff.1 hrest with ⟨mid, hmid, -⟩ | ⟨mid, hmid, rfl⟩
      · exact hcount w hw ⟨mid, hmid.symm⟩
      cases mid with
      | nil => exact hcount w hw ⟨[], by rw [hmid, List.append_nil, List.append_nil]⟩
      | cons d mid =>
        -- the count would go on behind the cut
        obtain ⟨body, rfl, hbody⟩ := hw.exists_body
        have hd : d ∈ body ++ ['\x7d'] := by
          rw [(List.cons.inj hmid).2]
          simp
        rcases List.mem_append.1 hd with hd | hd
        · exact hback d rfl ((hbody d hd).imp_right .inl)
        · exact hback d rfl (.inr (.inr (List.mem_singleton.1 hd)))
    rw [List.cons_append, escapeBraces_stray hb hmore, escapeBraces_stray hb hcount, ih hfront]
    rfl
  | sign c s hc hbrace ih =>
    rw [escapes_sign hc] at hfront
    rw [List.cons_append, escapeBraces_sign hc hbrace, escapeBraces_sign hc hbrace, ih hfront]
    rfl

/-! ### Braces that come out -/

/-- Whether a brace behind some text belongs to a count that is in `s`, at the same place of it. -/
def InCount (s before : Text) (b : Char) : Prop :=
  ∃ front w back, s = front ++ (w ++ back) ∧ IsCount w ∧
    escapeBraces s = escapeBraces front ++ (w ++ escapeBraces back) ∧
    (before = escapeBraces front ∨ before ++ [b] = escapeBraces front ++ w)

/-- Whether every brace that comes out is escaped or belongs to a count. -/
def Guarded (s : Text) : Prop :=
  ∀ before b after, escapeBraces s = before ++ b :: after → IsBrace b → Escapes before ∨ InCount s before b

/-- **One part more.** The part `p` comes out as `q` whatever follows, and its own braces are escaped or are
the ends of it if it is a count. -/
theorem Guarded.append {p q : Text} (hs : Guarded s) (hq : ¬ Escapes q)
    (hpart : ∀ t, t <+: s → escapeBraces (p ++ t) = q ++ escapeBraces t)
    (hown : ∀ before b after, q = before ++ b :: after → IsBrace b →
      Escapes before ∨ p = q ∧ IsCount q ∧ (before = [] ∨ before ++ [b] = q)) :
    Guarded (p ++ s) := by
  intro before b after hout hb
  have hbehind {mid : Text} (hmid : escapeBraces s = mid ++ b :: after) :
      Escapes (q ++ mid) ∨ InCount (p ++ s) (q ++ mid) b := by
    rcases hs mid b after hmid hb with hescapes | ⟨front, w, back, rfl, hw, hcut, hplace⟩
    · exact .inl ((escapes_append hq mid).2 hescapes)
    · refine .inr ⟨p ++ front, w, back, by rw [List.append_assoc], hw, ?_, ?_⟩
      · rw [hpart _ List.prefix_rfl, hpart _ (List.prefix_append front _), hcut, List.append_assoc]
      · rw [hpart _ (List.prefix_append front _), List.append_assoc, List.append_assoc,
          List.append_cancel_left_eq, List.append_cancel_left_eq]
        exact hplace
  rw [hpart s List.prefix_rfl] at hout
  rcases List.append_eq_append_iff.1 hout with ⟨mid, rfl, hmid⟩ | ⟨mid, hmid, hrest⟩
  · exact hbehind hmid
  cases mid with
  | nil =>
    rw [List.append_nil] at hmid
    subst hmid
    have hnext := @hbehind [] hrest.symm
    rwa [List.append_nil] at hnext
  | cons d mid =>
    obtain ⟨rfl, -⟩ := List.cons.inj hrest
    refine (hown before b mid hmid hb).imp_right ?_
    rintro ⟨rfl, hcount, hplace⟩
    exact ⟨[], p, s, rfl, hcount, hpart s List.prefix_rfl, hplace⟩

/-- In an escaped character only the character itself may be a brace. -/
theorem escapes_of_pair {before after : Text} (h : ['\\', c] = before ++ b :: after) (hb : IsBrace b) :
    Escapes before := by
  match before with
  | [] => exact absurd (List.cons.inj h).1.symm hb.ne
  | [d] =>
    rw [← (List.cons.inj h).1]
    decide
  | _ :: _ :: before => simp at h

/-- **Every brace that comes out is escaped or belongs to a count that went in.** -/
theorem guarded (s : Text) : Guarded s := by
  have hpair (c : Char) : ¬ Escapes ['\\', c] := by
    rw [escapes_pair]
    decide
  induction s using part_induction with
  | nil =>
    intro before b after hout _
    have hnil : escapeBraces [] = [] := rfl
    rw [hnil] at hout
    exact absurd hout (by simp)
  | last =>
    intro before b after hout hb
    have hmem : b ∈ ['\\'] := by
      have hkept : escapeBraces ['\\'] = ['\\'] := rfl
      rw [← hkept, hout]
      simp
    exact absurd (List.mem_singleton.1 hmem) hb.ne
  | escape c s ih =>
    exact ih.append (p := ['\\', c]) (hpair c) (fun t _ => escapeBraces_escape c t)
      fun before b after hsplit hb => .inl (escapes_of_pair hsplit hb)
  | count w s hw ih =>
    exact ih.append hw.not_escapes (fun t _ => escapeBraces_count hw t)
      fun before b after hsplit hb => .inr ⟨rfl, hw, hw.ends hsplit hb⟩
  | stray b s hb hcount ih =>
    refine ih.append (p := [b]) (hpair b) (fun t ht => escapeBraces_stray hb fun w hw hlead => ?_)
      fun before d after hsplit hd => .inl (escapes_of_pair hsplit hd)
    exact hcount w hw (hlead.trans (List.cons_prefix_cons.2 ⟨rfl, ht⟩))
  | sign c s hc hbrace ih =>
    refine ih.append (p := [c]) (q := [c]) (not_escapes_of_getLast? rfl hc)
      (fun t _ => escapeBraces_sign hc hbrace t) fun before b after hsplit hb => ?_
    have hmem : b ∈ [c] := by
      rw [hsplit]
      simp
    exact absurd (List.mem_singleton.1 hmem ▸ hb) hbrace

/-! ### Backslashes that are put in -/

/-- Whether what comes out is the text with backslashes put in, each before a brace of the text. Without
them it is the text again. -/
def Restored (s : Text) : Prop := ∃ t : Inked, t.letters = escapeBraces s ∧ t.own = s ∧
  ∀ pre g post, t = pre ++ g :: post → g.2.isSome →
    g.1 = '\\' ∧ ∃ b, IsBrace b ∧ post.head? = some (b, none)

/-- A part that is copied changes nothing in that. -/
theorem Restored.append (h : Restored s) {p : Text} (hout : escapeBraces (p ++ s) = p ++ escapeBraces s) :
    Restored (p ++ s) := by
  obtain ⟨t, htext, hown, hput⟩ := h
  refine ⟨Inked.bare p ++ t, by simp [htext, hout], by simp [hown], fun pre g post hsplit hg => ?_⟩
  obtain ⟨mid, -, hmid⟩ := Inked.exists_of_bare_append hsplit hg
  exact hput mid g post hmid hg

/-- **What is put in is backslashes before braces.** -/
theorem restored (s : Text) : Restored s := by
  have hnil : Restored [] := ⟨[], rfl, rfl, by simp⟩
  induction s using part_induction with
  | nil => exact hnil
  | last => exact hnil.append (p := ['\\']) rfl
  | escape c s ih => exact ih.append (p := ['\\', c]) (escapeBraces_escape c s)
  | count w s hw ih => exact ih.append (escapeBraces_count hw s)
  | stray b s hb hcount ih =>
    obtain ⟨t, htext, hown, hput⟩ := ih
    refine ⟨Inked.mark 0 ['\\'] ++ (Inked.bare [b] ++ t), ?_, by simp [hown], ?_⟩
    · simp [htext, escapeBraces_stray hb hcount]
    · rintro (_ | ⟨d, pre⟩) g post hsplit hg
      · obtain ⟨rfl, rfl⟩ := List.cons.inj hsplit
        exact ⟨rfl, b, hb, rfl⟩
      · obtain ⟨rfl, hrest⟩ := List.cons.inj hsplit
        obtain ⟨mid, -, hmid⟩ := Inked.exists_of_bare_append hrest hg
        exact hput mid g post hmid hg
  | sign c s hc hbrace ih => exact ih.append (p := [c]) (escapeBraces_sign hc hbrace s)

/-- **Once is enough.** -/
theorem escapeBraces_escapeBraces (s : Text) : escapeBraces (escapeBraces s) = escapeBraces s := by
  induction s using part_induction with
  | nil => rfl
  | last => rfl
  | escape c s ih => rw [escapeBraces_escape, escapeBraces_escape, ih]
  | count w s hw ih => rw [escapeBraces_count hw, escapeBraces_count hw, ih]
  | stray b s hb hcount ih => rw [escapeBraces_stray hb hcount, escapeBraces_escape, ih]
  | sign c s hc hbrace ih => rw [escapeBraces_sign hc hbrace, escapeBraces_sign hc hbrace, ih]

/-- **Stray braces are escaped, and nothing else is changed.** In what comes out, every brace is escaped or
belongs to a count that went in. Without the backslashes that were put in, each before a brace, it is the
text that went in. An escaped character of that text stays with its backslash, and so do a lone backslash at
the end and every count that is not escaped. A second time nothing is changed. -/
theorem escapeBraces_guarded (s : Text) :
    Guarded s ∧ Restored s ∧
    (∀ front c back, s = front ++ '\\' :: c :: back → ¬ Escapes front →
      escapeBraces s = escapeBraces front ++ '\\' :: c :: escapeBraces back) ∧
    (∀ front, s = front ++ ['\\'] → ¬ Escapes front → escapeBraces s = escapeBraces front ++ ['\\']) ∧
    (∀ front w back, s = front ++ (w ++ back) → IsCount w → ¬ Escapes front →
      escapeBraces s = escapeBraces front ++ (w ++ escapeBraces back)) ∧
    escapeBraces (escapeBraces s) = escapeBraces s := by
  have hslash (back : Text) : ∀ c, ('\\' :: back).head? = some c → ¬ (c.isDigit ∨ c = ',' ∨ c = '\x7d') := by
    rintro _ ⟨⟩
    decide
  refine ⟨guarded s, restored s, ?_, ?_, ?_, escapeBraces_escapeBraces s⟩
  · rintro front c back rfl hfront
    rw [escapeBraces_split hfront (hslash _), escapeBraces_escape]
  · rintro front rfl hfront
    rw [escapeBraces_split hfront (hslash _)]
    rfl
  · rintro front w back rfl hw hfront
    have hopen : ∀ c, (w ++ back).head? = some c → ¬ (c.isDigit ∨ c = ',' ∨ c = '\x7d') := by
      obtain ⟨body, rfl, -⟩ := hw.exists_body
      rintro _ ⟨⟩
      decide
    rw [escapeBraces_split hfront hopen, escapeBraces_count hw]

example : escapeBraces "a\x7b2\x7d\x7bid\x7d\\".toList = "a\x7b2\x7d\\\x7bid\\\x7d\\".toList := by
  decide

end Wildcard

end Detour
