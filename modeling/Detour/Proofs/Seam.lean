import Detour.Proofs.Reference

/-!
# Texts that are put into one another

When constructs of a text give way to other texts, a word that occurs in none of the texts may be
made up of parts of them where one is put into another. The word here is that in the mark of the
entry script.

* `Unmarked`: the word does not occur, in whatever letter case.
* `Seams` says which beginnings of the word may end where one text is put into another, and which
  letters may follow. `Seams.Allows` is a text on its way to a URL and `Seams.Admits` one that may be
  put in; `Seams.Allows.replace` puts one in for one construct.
* `Patched`: a text in which constructs gave way to texts. `Text.patched_rewrite` is one pass, and
  `Patched.allows` what it keeps.
* `Enclosed`: what the forms of destinations find begins and ends with a sign.
-/

namespace Detour

open Template

/-- The word in the mark of the entry script. -/
def markWord : Text := "jumplink".toList

/-- A text in which the word of the mark does not occur, in whatever letter case. -/
def Unmarked (s : Text) : Prop := ¬ markWord <:+: s.map fold

instance (s : Text) : Decidable (Unmarked s) := inferInstanceAs (Decidable (¬ _))

namespace Unmarked

variable {s t : Text}

/-- A part of an unmarked text is unmarked. -/
theorem of_infix (h : Unmarked t) (hs : s <:+: t) : Unmarked s :=
  fun hword => h (hword.trans (hs.map fold))

/-- Unmarked texts with a character between them that is not in the word are unmarked. -/
theorem append_cons (hs : Unmarked s) {c : Char} (hc : fold c ∉ markWord) (ht : Unmarked t) :
    Unmarked (s ++ c :: t) := by
  intro hword
  rw [List.map_append, List.map_cons, List.infix_append_iff_ne_nil, List.infix_cons_iff] at hword
  rcases hword with h | (h | h) | ⟨front, back, _, hback, hsplit, _, hpre⟩
  · exact hs h
  · obtain ⟨hletter, _⟩ := List.cons_prefix_cons.1 h
    exact hc (hletter ▸ List.mem_cons_self)
  · exact ht h
  · obtain ⟨d, back, rfl⟩ := List.exists_cons_of_ne_nil hback
    obtain ⟨rfl, _⟩ := List.cons_prefix_cons.1 hpre
    exact hc (hsplit ▸ List.mem_append_right front List.mem_cons_self)

/-- An unmarked text stays so when characters are taken off its end. -/
theorem trimEnd (h : Unmarked s) (p : Char → Bool) : Unmarked (Text.trimEnd p s) :=
  h.of_infix (Text.isPrefix_trimEnd p s).isInfix

/-- An unmarked text stays so when characters are taken off its front. -/
theorem trimStart (h : Unmarked s) (p : Char → Bool) : Unmarked (Text.trimStart p s) :=
  h.of_infix (List.dropWhile_suffix p).isInfix

/-- A text behind another with a slash between them. -/
theorem trim_slash_trim (hs : Unmarked s) (ht : Unmarked t) (p : Char → Bool) :
    Unmarked (Text.trimEnd p s ++ ['/'] ++ Text.trimStart p t) := by
  rw [List.append_assoc]
  exact (hs.trimEnd p).append_cons (by decide) (ht.trimStart p)

end Unmarked

/-! ### Seams -/

/-- The signs that the constructs of destinations and slots begin with. -/
def openers : List Char := ['\x7b', '(', '[', '\x01']

/-- The signs that the constructs of destinations and slots end with. -/
def closers : List Char := ['\x7d', ')', ']', '\x01']

/-- No sign has another letter case. -/
theorem fold_of_mem_openers {c : Char} (h : c ∈ openers) : fold c = c := by
  have hall : openers.all fun c => fold c == c := by decide
  exact eq_of_beq (List.all_eq_true.1 hall c h)

/-- No sign has another letter case. -/
theorem fold_of_mem_closers {c : Char} (h : c ∈ closers) : fold c = c := by
  have hall : closers.all fun c => fold c == c := by decide
  exact eq_of_beq (List.all_eq_true.1 hall c h)

/-- A part of a text stands right before where a construct may begin. -/
def StandsBefore (part s : Text) : Prop := ∃ o ∈ openers, part ++ [o] <:+: s.map fold

/-- A letter stands right behind where a construct may end. -/
def StandsBehind (c : Char) (s : Text) : Prop := ∃ o ∈ closers, [o, c] <:+: s.map fold

instance (part s : Text) : Decidable (StandsBefore part s) :=
  List.decidableBEx (fun o => part ++ [o] <:+: s.map fold) openers

instance (c : Char) (s : Text) : Decidable (StandsBehind c s) :=
  List.decidableBEx (fun o => [o, c] <:+: s.map fold) closers

/-- What may meet where one text is put into another: beginnings of the word that may end there, and
letters that may follow, of which none continues one of the beginnings. -/
structure Seams where
  /-- the beginnings of the word -/
  ends : Text → Prop
  /-- the letters behind -/
  begins : Char → Prop
  /-- no letter continues a beginning -/
  apart : ∀ part c, part ≠ [] → part ++ [c] <+: markWord → ends part → ¬ begins c

namespace Seams

/-- An unmarked text of which every construct stands between what may meet at a seam. -/
structure Allows (e : Seams) (s : Text) : Prop where
  /-- the word does not occur -/
  unmarked : Unmarked s
  /-- a beginning of the word before a construct is one of those that may end there -/
  before : ∀ part, part ≠ [] → part <+: markWord → StandsBefore part s → e.ends part
  /-- a letter behind a construct is one of those that may follow there -/
  behind : ∀ c ∈ markWord, StandsBehind c s → e.begins c

/-- A text that may be put in: its ends are seams too. -/
structure Admits (e : Seams) (v : Text) : Prop extends e.Allows v where
  /-- a beginning of the word at the end -/
  last : ∀ part, part ≠ [] → part <+: markWord → part <:+ v.map fold → e.ends part
  /-- a letter at the front -/
  first : ∀ c ∈ markWord, [c] <+: v.map fold → e.begins c

variable {e : Seams} {s t v : Text}

/-- A part of an allowed text is allowed. -/
theorem Allows.of_infix (h : e.Allows t) (hs : s <:+: t) : e.Allows s where
  unmarked := h.unmarked.of_infix hs
  before part hne hpart hbefore := by
    obtain ⟨o, ho, hwithin⟩ := hbefore
    exact h.before part hne hpart ⟨o, ho, hwithin.trans (hs.map fold)⟩
  behind c hc hbehind := by
    obtain ⟨o, ho, hwithin⟩ := hbehind
    exact h.behind c hc ⟨o, ho, hwithin.trans (hs.map fold)⟩

/-- **Two texts next to each other** are allowed if no beginning of the word at the end of the first
goes on in the second, and what they have next to a construct of the other may meet at a seam. -/
theorem Allows.append (hs : e.Allows s) (ht : e.Allows t)
    (hmeet : ∀ part c, part ≠ [] → part ++ [c] <+: markWord → part <:+ s.map fold →
      ¬ [c] <+: t.map fold)
    (hbefore : ∀ part, part ≠ [] → part <+: markWord → part <:+ s.map fold →
      ∀ o ∈ openers, [o] <+: t.map fold → e.ends part)
    (hbehind : ∀ c ∈ markWord, [c] <+: t.map fold → ∀ o ∈ closers, [o] <:+ s.map fold →
      e.begins c) :
    e.Allows (s ++ t) := by
  -- no beginning of the word lies in both texts
  have hacross : ∀ front back, front ≠ [] → back ≠ [] → front ++ back <+: markWord →
      front <:+ s.map fold → ¬ back <+: t.map fold := by
    intro front back hfront hback hword hsuffix hpre
    obtain ⟨c, rest, rfl⟩ := List.exists_cons_of_ne_nil hback
    have hnext : front ++ [c] <+: front ++ c :: rest :=
      (List.prefix_append_right_inj front).2 ⟨rest, rfl⟩
    exact hmeet front c hfront (hnext.trans hword) hsuffix
      ((show [c] <+: c :: rest from ⟨rest, rfl⟩).trans hpre)
  refine ⟨fun hword => ?_, fun part hne hpart hseam => ?_, fun c hc hseam => ?_⟩
  · rw [List.map_append, List.infix_append_iff_ne_nil] at hword
    rcases hword with h | h | ⟨front, back, hfront, hback, hsplit, hsuffix, hpre⟩
    · exact hs.unmarked h
    · exact ht.unmarked h
    · exact hacross front back hfront hback (hsplit ▸ List.prefix_rfl) hsuffix hpre
  · obtain ⟨o, ho, hwithin⟩ := hseam
    rw [List.map_append, List.infix_append_iff_ne_nil] at hwithin
    rcases hwithin with h | h | ⟨front, back, hfront, hback, hsplit, hsuffix, hpre⟩
    · exact hs.before part hne hpart ⟨o, ho, h⟩
    · exact ht.before part hne hpart ⟨o, ho, h⟩
    · obtain ⟨back, b, rfl⟩ := (List.eq_nil_or_concat back).resolve_left hback
      rw [List.concat_eq_append] at hsplit hpre
      rw [← List.append_assoc] at hsplit
      obtain ⟨rfl, hsign⟩ := List.append_inj' hsplit rfl
      obtain rfl := List.cons.inj hsign |>.1
      cases back with
      | nil =>
        rw [List.append_nil] at hpart ⊢
        exact hbefore front hfront hpart hsuffix o ho hpre
      | cons d back =>
        -- the beginning itself would lie in both texts
        exact absurd ((List.prefix_append _ [o]).trans hpre)
          (hacross front (d :: back) hfront (List.cons_ne_nil d back) hpart hsuffix)
  · obtain ⟨o, ho, hwithin⟩ := hseam
    rw [List.map_append, List.infix_append_iff_ne_nil] at hwithin
    rcases hwithin with h | h | ⟨front, back, hfront, hback, hsplit, hsuffix, hpre⟩
    · exact hs.behind c hc ⟨o, ho, h⟩
    · exact ht.behind c hc ⟨o, ho, h⟩
    · obtain ⟨a, front, rfl⟩ := List.exists_cons_of_ne_nil hfront
      obtain ⟨rfl, hrest⟩ := List.cons.inj hsplit
      obtain ⟨rfl, rfl⟩ : front = [] ∧ back = [c] := by
        rcases List.append_eq_singleton_iff.1 hrest.symm with h | ⟨_, h⟩
        · exact h
        · exact absurd h hback
      exact hbehind c hc hpre o ho hsuffix

/-- A text without letters of the word may be put in. -/
theorem admits_of_notMem (h : ∀ c ∈ v, fold c ∉ markWord) : e.Admits v := by
  have hnone : ∀ c ∈ markWord, c ∉ v.map fold := by
    intro c hc hmem
    obtain ⟨d, hd, rfl⟩ := List.mem_map.1 hmem
    exact h d hd hc
  -- a beginning of the word has a letter of it
  have hpart : ∀ part, part ≠ [] → part <+: markWord → ¬ part ⊆ v.map fold := by
    intro part hne hpre hsubset
    obtain ⟨c, rest, rfl⟩ := List.exists_cons_of_ne_nil hne
    exact hnone c (hpre.subset List.mem_cons_self) (hsubset List.mem_cons_self)
  refine ⟨⟨fun hword => ?_, fun part hne hpre hseam => ?_, fun c hc hseam => ?_⟩,
    fun part hne hpre hlast => ?_, fun c hc hfirst => ?_⟩
  · exact hpart markWord (by decide) List.prefix_rfl hword.subset
  · obtain ⟨o, _, hwithin⟩ := hseam
    exact absurd (fun d hd => hwithin.subset (List.mem_append_left [o] hd)) (hpart part hne hpre)
  · obtain ⟨o, _, hwithin⟩ := hseam
    exact absurd (hwithin.subset (by simp)) (hnone c hc)
  · exact absurd hlast.subset (hpart part hne hpre)
  · exact absurd (hfirst.subset List.mem_cons_self) (hnone c hc)

/-- A slash may be put in. -/
theorem admits_slash : e.Admits ['/'] := by
  refine admits_of_notMem fun c hc => ?_
  rw [List.mem_singleton.1 hc]
  decide

/-- A slash may follow an allowed text. -/
theorem Allows.append_slash (h : e.Allows s) : e.Allows (s ++ ['/']) := by
  have hhead : ∀ {c : Char}, [c] <+: ['/'].map fold → c = '/' := fun h =>
    (List.cons_prefix_cons.1 h).1
  refine h.append admits_slash.toAllows (fun part c _ hword _ hc => ?_) (fun _ _ _ _ o ho hc => ?_)
    fun c hc hpre => ?_
  · have hmem : c ∈ markWord := hword.subset (by simp)
    rw [hhead hc] at hmem
    exact absurd hmem (by decide)
  · rw [hhead hc] at ho
    exact absurd ho (by decide)
  · rw [hhead hpre] at hc
    exact absurd hc (by decide)

/-- A text with signs at its ends and none inside may be put in if it is unmarked. -/
theorem admits_of_signs {a b : Char} {mid : Text} (hv : Unmarked (a :: (mid ++ [b])))
    (ha : fold a ∉ markWord) (hb : fold b ∉ markWord) (hopen : fold b ∉ openers)
    (hclose : fold a ∉ closers) (hmid : ∀ c ∈ mid, fold c ∉ openers ∧ fold c ∉ closers) :
    e.Admits (a :: (mid ++ [b])) := by
  have hfolded : (a :: (mid ++ [b])).map fold = (fold a :: mid.map fold) ++ [fold b] := by simp
  have hinside : ∀ o ∈ mid.map fold, o ∉ openers ∧ o ∉ closers := by
    intro o ho
    obtain ⟨c, hc, rfl⟩ := List.mem_map.1 ho
    exact hmid c hc
  refine ⟨⟨hv, fun part hne _ hseam => ?_, fun c _ hseam => ?_⟩, fun part hne hpre hlast => ?_,
    fun c hc hfirst => ?_⟩
  · -- a sign behind a part is not the first one
    obtain ⟨o, ho, hwithin⟩ := hseam
    have htail : o ∈ mid.map fold ++ [fold b] := by
      rw [hfolded, List.cons_append, List.infix_cons_iff] at hwithin
      rcases hwithin with h | h
      · obtain ⟨d, part, rfl⟩ := List.exists_cons_of_ne_nil hne
        exact (List.cons_prefix_cons.1 h).2.subset (by simp)
      · exact h.subset (by simp)
    rcases List.mem_append.1 htail with h | h
    · exact absurd ho (hinside o h).1
    · exact absurd (List.mem_singleton.1 h ▸ ho) hopen
  · -- a sign before a letter is not the last one
    obtain ⟨o, ho, hwithin⟩ := hseam
    have hinit : o ∈ fold a :: mid.map fold := by
      rw [hfolded, List.infix_concat_iff] at hwithin
      rcases hwithin with h | h
      · obtain ⟨t, ht, hsuffix⟩ := (List.suffix_concat_iff.1 h).resolve_left (by simp)
        obtain ⟨rfl, _⟩ := List.append_inj' (show [o] ++ [c] = t ++ [fold b] from ht) rfl
        exact hsuffix.subset List.mem_cons_self
      · exact h.subset List.mem_cons_self
    rcases List.mem_cons.1 hinit with rfl | h
    · exact absurd ho hclose
    · exact absurd ho (hinside o h).2
  · rw [hfolded] at hlast
    obtain ⟨t, rfl, _⟩ := (List.suffix_concat_iff.1 hlast).resolve_left hne
    exact absurd (hpre.subset (by simp)) hb
  · obtain ⟨rfl, _⟩ := List.cons_prefix_cons.1 hfirst
    exact absurd hc ha

end Seams

/-! ### Texts with constructs replaced -/

/-- A text begins with a sign that constructs begin with and ends with one that they end with. -/
def Enclosed (s : Text) : Prop := ∃ o ∈ openers, ∃ c ∈ closers, ∃ mid, s = o :: (mid ++ [c])

/-- The second text is the first with constructs in it replaced by texts that may be put in. -/
inductive Patched (e : Seams) : Text → Text → Prop where
  /-- nothing is left -/
  | nil : Patched e [] []
  /-- a character is kept -/
  | keep {s t : Text} (c : Char) : Patched e s t → Patched e (c :: s) (c :: t)
  /-- a construct gives way to a text -/
  | put {s t part v : Text} : Enclosed part → e.Admits v → Patched e s t →
      Patched e (part ++ s) (v ++ t)

section Patches

variable {e : Seams} {s t : Text}

/-- **One construct.** A text that may be put in can stand in the place of a construct. -/
theorem Seams.Allows.replace {part v : Text} (h : e.Allows (s ++ (part ++ t)))
    (hpart : Enclosed part) (hv : e.Admits v) : e.Allows (s ++ (v ++ t)) := by
  obtain ⟨o, ho, c, hc, mid, rfl⟩ := hpart
  have hs : e.Allows s := h.of_infix (List.prefix_append _ _).isInfix
  have ht : e.Allows t :=
    h.of_infix ((List.suffix_append _ t).trans (List.suffix_append s _)).isInfix
  have hfolded : fold o = o ∧ fold c = c := ⟨fold_of_mem_openers ho, fold_of_mem_closers hc⟩
  have hlast : ∀ front, front ≠ [] → front <+: markWord → front <:+ s.map fold → e.ends front := by
    intro front hne hpre hsuffix
    refine h.before front hne hpre ⟨o, ho, ?_⟩
    obtain ⟨lead, hlead⟩ := hsuffix
    refine ⟨lead, (mid ++ [c] ++ t).map fold, ?_⟩
    simp [← hlead, hfolded.1]
  have hfirst : ∀ d ∈ markWord, [d] <+: t.map fold → e.begins d := by
    intro d hd hpre
    refine h.behind d hd ⟨c, hc, ?_⟩
    obtain ⟨rest, hrest⟩ := hpre
    refine ⟨(s ++ o :: mid).map fold, rest, ?_⟩
    simp [← hrest, hfolded.2]
  have hbehind : e.Allows (v ++ t) :=
    hv.toAllows.append ht
      (fun front d hne hword hsuffix hd => e.apart front d hne hword
        (hv.last front hne ((List.prefix_append front [d]).trans hword) hsuffix)
        (hfirst d (hword.subset (by simp)) hd))
      (fun front hne hpre hsuffix _ _ _ => hv.last front hne hpre hsuffix)
      fun d hd hpre _ _ _ => hfirst d hd hpre
  have hfirst' : ∀ d ∈ markWord, [d] <+: (v ++ t).map fold → e.begins d := by
    intro d hd hpre
    cases v with
    | nil => exact hfirst d hd hpre
    | cons a v =>
      refine hv.first d hd ?_
      obtain ⟨rfl, _⟩ := List.cons_prefix_cons.1 hpre
      exact ⟨v.map fold, rfl⟩
  exact hs.append hbehind
    (fun front d hne hword hsuffix hd => e.apart front d hne hword
      (hlast front hne ((List.prefix_append front [d]).trans hword) hsuffix)
      (hfirst' d (hword.subset (by simp)) hd))
    (fun front hne hpre hsuffix _ _ _ => hlast front hne hpre hsuffix)
    fun d hd hpre _ _ _ => hfirst' d hd hpre

/-- Replacing constructs of an allowed text leaves it allowed. -/
theorem Patched.allows (h : Patched e s t) (hs : e.Allows s) : e.Allows t := by
  -- what stands before the characters that are gone over is done
  have hlead : ∀ lead, e.Allows (lead ++ s) → e.Allows (lead ++ t) := by
    clear hs
    induction h with
    | nil => exact fun _ h => h
    | keep c _ ih =>
      intro lead hlead
      have := ih (lead ++ [c]) (by simpa using hlead)
      simpa using this
    | @put s t part v hpart hv _ ih =>
      intro lead hlead
      have := ih (lead ++ v) (by simpa using hlead.replace hpart hv)
      simpa using this
  exact hlead [] hs

end Patches

/-! ### Constructs -/

namespace Template

variable {t : Text} {size : Nat}

/-- A construct ends with its last sign. -/
theorem enclosed_take {o c : Char} (mid rest : Text) (ho : o ∈ openers) (hc : c ∈ closers)
    (ht : t = o :: (mid ++ c :: rest)) (hsize : size = mid.length + 2) :
    Enclosed (t.take size) := by
  refine ⟨o, ho, c, hc, mid, ?_⟩
  have hsplit : t = (o :: (mid ++ [c])) ++ rest := by simp [ht]
  rw [hsplit, hsize]
  exact List.take_left' (by simp)

/-- A reference in round brackets, taken apart. -/
theorem bracketedForm_eq_some {m : Text} (h : bracketedForm t = some (m, size)) :
    ∃ mark name collection rest,
      t = '(' :: (('\x7b' :: (mark ++ (name ++ '\x7d' :: '|' :: collection))) ++ ')' :: rest) ∧
        size = mark.length + name.length + collection.length + 5 ∧
        m = '\x7b' :: ((name ++ '|' :: collection) ++ ['\x7d']) ∧
        Filled isBasicLetter name ∧ Filled isBasicLetter collection ∧ (mark = [] ∨ mark = ['!']) := by
  unfold bracketedForm at h
  split at h
  · rename_i s
    -- the exclamation mark, if there is one
    obtain ⟨mark, body, hs, hbody, hmark, hbang⟩ : ∃ mark body, s = mark ++ body ∧
        (if s.head? == some '!' then s.drop 1 else s) = body ∧
          (s.head? == some '!').toNat = mark.length ∧ (mark = [] ∨ mark = ['!']) := by
      cases hbang : s.head? == some '!' with
      | false => exact ⟨[], s, rfl, rfl, rfl, .inl rfl⟩
      | true =>
        obtain ⟨rest, rfl⟩ := List.head?_eq_some_iff.1 (eq_of_beq hbang)
        exact ⟨['!'], rest, rfl, rfl, rfl, .inr rfl⟩
    simp only [hbody, hmark] at h
    split at h
    · rename_i behind hbehind
      obtain ⟨hguard, h⟩ := Option.ite_none_left_eq_some.1 h
      simp only [Bool.or_eq_true, not_or, List.isEmpty_iff] at hguard
      obtain ⟨collection, rest, hcollection, htake, hletters⟩ := exists_eq_takeWhile_append hguard.2
      obtain ⟨rfl, rfl⟩ := Prod.mk.inj (Option.some.inj h)
      have hname := eq_takeWhile_append hbehind
      refine ⟨mark, body.takeWhile isBasicLetter, collection, rest, ?_, by rw [htake], ?_,
        ⟨hguard.1.1, List.all_eq_true.1 List.all_takeWhile⟩, ⟨?_, hletters⟩, hbang⟩
      · rw [hs]
        nth_rewrite 1 [hname]
        rw [hcollection]
        simp
      · simp [htake]
      · rw [← htake]
        exact hguard.1.2
    · exact absurd h (by simp)
  · exact absurd h (by simp)

/-- What a mapping reference in braces is. -/
theorem mappingForm_eq_some {name m : Text} (h : mappingForm name t = some (m, size)) :
    ∃ lead rest, t = '\x7b' :: ((lead ++ '|' :: m) ++ '\x7d' :: rest) ∧
      size = (lead ++ '|' :: m).length + 2 ∧ Alike name lead ∧ Filled isBasicLetter m := by
  unfold mappingForm at h
  split at h
  · rename_i s
    split at h
    · rename_i behind hbehind
      obtain ⟨lead, hlead, halike⟩ := afterFolded?_eq_some_iff.1 hbehind
      obtain ⟨hguard, h⟩ := Option.ite_none_left_eq_some.1 h
      simp only [Bool.or_eq_true, not_or, List.isEmpty_iff] at hguard
      obtain ⟨collection, rest, hcollection, htake, hletters⟩ := exists_eq_takeWhile_append hguard.2
      obtain ⟨rfl, rfl⟩ := Prod.mk.inj (Option.some.inj h)
      have hlength : name.length = lead.length := by simpa using congrArg List.length halike
      rw [htake] at hguard ⊢
      refine ⟨lead, rest, ?_, ?_, halike, hguard.1, hletters⟩
      · rw [hlead, hcollection]
        simp
      · rw [hlength]
        simp
        omega
    · exact absurd h (by simp)
  · exact absurd h (by simp)

/-- A mapping reference is a construct. -/
theorem enclosed_of_mappingForm {name m : Text} (h : mappingForm name t = some (m, size)) :
    Enclosed (t.take size) := by
  obtain ⟨lead, rest, ht, hsize, -⟩ := mappingForm_eq_some h
  exact enclosed_take (lead ++ '|' :: m) rest (by decide : '\x7b' ∈ openers)
    (by decide : '\x7d' ∈ closers) ht hsize

/-- A marker is a construct. -/
theorem enclosed_of_markerForm {m : Text × Text} (h : Collections.markerForm t = some (m, size)) :
    Enclosed (t.take size) := by
  unfold Collections.markerForm at h
  split at h
  · rename_i s
    simp only at h
    split at h
    · rename_i behind hbehind
      obtain ⟨hguard, h⟩ := Option.ite_none_left_eq_some.1 h
      simp only [Bool.or_eq_true, not_or] at hguard
      obtain ⟨name, rest, hname, htake, _⟩ := exists_eq_takeWhile_append hguard.2
      obtain ⟨_, rfl⟩ := Prod.mk.inj (Option.some.inj h)
      refine enclosed_take (s.takeWhile Collections.isKeyChar ++ '|' :: name) rest
        (by decide : '(' ∈ openers) (by decide : ')' ∈ closers) ?_ ?_
      · nth_rewrite 1 [eq_takeWhile_append hbehind]
        rw [hname]
        simp
      · rw [htake]
        simp
        omega
    · exact absurd h (by simp)
  · exact absurd h (by simp)

/-- A selector is a construct. -/
theorem enclosed_of_selectorForm {m : Text} (h : selectorForm t = some (m, size)) :
    Enclosed (t.take size) := by
  unfold selectorForm at h
  split at h
  · rename_i s
    simp only at h
    split at h
    · rename_i rest hbehind
      obtain ⟨_, h⟩ := Option.ite_none_left_eq_some.1 h
      obtain ⟨_, rfl⟩ := Prod.mk.inj (Option.some.inj h)
      refine enclosed_take ('[' :: (s.takeWhile isSelectorChar ++ [']'])) rest
        (by decide : '[' ∈ openers) (by decide : ']' ∈ closers) ?_ (by simp)
      nth_rewrite 1 [eq_takeWhile_append hbehind]
      simp
    · exact absurd h (by simp)
  · exact absurd h (by simp)

/-- A word with signs at its ends is a construct wherever it occurs. -/
theorem enclosed_of_wordForm {word : Text} (hword : Enclosed word) {m : Unit}
    (h : Text.wordForm word t = some (m, size)) : Enclosed (t.take size) := by
  obtain ⟨hstarts, h⟩ := Option.ite_none_right_eq_some.1 h
  obtain ⟨_, rfl⟩ := Prod.mk.inj (Option.some.inj h)
  obtain ⟨rest, rfl⟩ := Text.startsWith_iff.1 hstarts
  rwa [List.take_left]

end Template

/-! ### Passes -/

namespace Text

variable {β : Type} {form : Form β} {e : Seams} {s : Text}

/-- A pass over a text patches it if the form finds constructs and what is written for them may be put
in. -/
theorem patched_pieces (out : Nat → List (Piece β) → Text) (n : Nat)
    (hform : ∀ t m size, form t = some (m, size) → Enclosed (t.take size))
    (hnil : ∀ n, out n [] = []) (hplain : ∀ n c ps, out n (.plain c :: ps) = c :: out n ps)
    (hhit : ∀ n, ∀ m ∈ hits (pieces form s), ∃ v, e.Admits v ∧
      ∀ ps, out n (.hit m :: ps) = v ++ out (n + 1) ps) :
    Patched e s (out n (pieces form s)) := by
  have hfrom : ∀ skip n, (∀ n, ∀ m ∈ hits (piecesFrom form skip s), ∃ v, e.Admits v ∧
      ∀ ps, out n (.hit m :: ps) = v ++ out (n + 1) ps) →
        Patched e (s.drop skip) (out n (piecesFrom form skip s)) := by
    clear hhit
    induction s with
    | nil =>
      intro skip n _
      rw [List.drop_nil, piecesFrom, hnil]
      exact .nil
    | cons c s ih =>
      intro skip n hhit
      cases skip with
      | succ skip => exact ih skip n hhit
      | zero =>
        cases hfound : form (c :: s) with
        | none =>
          simp only [piecesFrom, hfound] at hhit ⊢
          rw [hplain]
          exact .keep c (ih 0 n hhit)
        | some found =>
          obtain ⟨m, size⟩ := found
          simp only [piecesFrom, hfound] at hhit ⊢
          obtain ⟨v, hv, hout⟩ := hhit n m List.mem_cons_self
          have hpart : Enclosed ((c :: s).take size) := hform _ m size hfound
          have hrest := ih (size - 1) (n + 1) fun n m hm => hhit n m (List.mem_cons_of_mem _ hm)
          have hsplit : c :: s = (c :: s).take size ++ s.drop (size - 1) := by
            cases size with
            | zero =>
              obtain ⟨o, _, d, _, mid, hempty⟩ := hpart
              exact absurd hempty (by simp)
            | succ size => simp
          rw [hout, List.drop_zero, hsplit]
          exact .put hpart hv hrest
  exact hfrom 0 n hhit

/-- The texts that a rewriting puts in, from left to right. -/
def puts (form : Form β) (write : β → Text) (s : Text) : List Text :=
  (hits (pieces form s)).map write

/-- A rewriting of constructs patches a text. -/
theorem patched_rewrite {write : β → Text}
    (hform : ∀ t m size, form t = some (m, size) → Enclosed (t.take size))
    (h : ∀ v ∈ puts form write s, e.Admits v) : Patched e s (rewrite form write s) :=
  patched_pieces (fun _ => render write) 0 hform (fun _ => rfl) (fun _ _ _ => rfl)
    fun _ m hm => ⟨write m, h _ (List.mem_map_of_mem hm), fun _ => rfl⟩

/-- Replacing a construct wherever it occurs patches a text. -/
theorem patched_replaceAll {word new : Text} (hword : Enclosed word)
    (h : ∀ v ∈ puts (wordForm word) (fun _ => new) s, e.Admits v) :
    Patched e s (replaceAll word new s) := by
  rw [replaceAll_eq_rewrite]
  exact patched_rewrite (fun _ _ _ => enclosed_of_wordForm hword) h

end Text

/-! ### What the passes put in -/

section Written

variable {e : Seams} {s : Text}

/-- Signs and digits do not fold to letters of the word. -/
theorem fold_notMem_of_lt {c : Char} (h : c.toNat < 65) : fold c ∉ markWord := by
  have hall : ∀ n : Fin 65, fold (Char.ofNat n) ∉ markWord := by decide
  have := hall ⟨c.toNat, h⟩
  rwa [Char.ofNat_toNat] at this

/-- A slot may be put in. -/
theorem admits_slot (n : Nat) : e.Admits (slot n) := by
  refine Seams.admits_of_notMem fun c hc => ?_
  rcases mem_slot hc with rfl | h
  · decide
  · refine fold_notMem_of_lt ?_
    simp only [Char.isDigit, Bool.and_eq_true, decide_eq_true_eq, UInt32.le_iff_toNat_le] at h
    have hhi : c.toNat ≤ 57 := h.2
    omega

/-- A slot is a construct. -/
theorem enclosed_slot (n : Nat) : Enclosed (slot n) :=
  ⟨'\x01', by decide, '\x01', by decide, writeNat n, rfl⟩

/-- Leaving slots for mapping references patches a text. -/
theorem patched_writeSlots {name : Text} (n : Nat) :
    Patched e s (writeSlots n (Text.pieces (mappingForm name) s)) :=
  Text.patched_pieces writeSlots n (fun _ _ _ => enclosed_of_mappingForm) (fun _ => rfl)
    (fun _ _ _ => rfl) fun n _ _ => ⟨slot n, admits_slot n, fun _ => rfl⟩

/-- Letters are no signs. -/
theorem fold_notMem_of_isBasicLetter {c : Char} (h : isBasicLetter c) :
    fold c ∉ openers ∧ fold c ∉ closers := by
  have hsigns : (openers ++ closers).all fun o => !('a' ≤ o && o ≤ 'z') := by decide
  have hnone : fold c ∉ openers ++ closers := by
    intro hmem
    have := List.all_eq_true.1 hsigns _ hmem
    rw [show ('a' ≤ fold c && fold c ≤ 'z') = true from h] at this
    exact absurd this (by decide)
  exact ⟨fun ho => hnone (List.mem_append_left _ ho), fun ho => hnone (List.mem_append_right _ ho)⟩

/-- A reference in braces may be put in if its words are unmarked. -/
theorem admits_braced {name collection : Text} (hname : ∀ c ∈ name, isBasicLetter c)
    (hcollection : ∀ c ∈ collection, isBasicLetter c) (hname' : Unmarked name)
    (hcollection' : Unmarked collection) :
    e.Admits ('\x7b' :: ((name ++ '|' :: collection) ++ ['\x7d'])) := by
  have hwords : Unmarked (name ++ '|' :: (collection ++ '\x7d' :: [])) :=
    hname'.append_cons (by decide) (hcollection'.append_cons (by decide) (by decide))
  have hbraced : Unmarked ([] ++ '\x7b' :: (name ++ '|' :: (collection ++ '\x7d' :: []))) :=
    Unmarked.append_cons (by decide) (by decide) hwords
  refine Seams.admits_of_signs (by simpa using hbraced) (by decide) (by decide) (by decide)
    (by decide) fun c hc => ?_
  rcases List.mem_append.1 hc with hc | hc
  · exact fold_notMem_of_isBasicLetter (hname c hc)
  · rcases List.mem_cons.1 hc with rfl | hc
    · decide
    · exact fold_notMem_of_isBasicLetter (hcollection c hc)

/-- Bringing mapping references into one form leaves a text allowed. -/
theorem Seams.Allows.unbracket (h : e.Allows s) : e.Allows (unbracket s) := by
  refine (Text.patched_rewrite (e := e) (fun t m size hform => ?_) fun v hv => ?_).allows h
  · obtain ⟨mark, name, collection, rest, ht, hsize, -⟩ := bracketedForm_eq_some hform
    refine enclosed_take _ rest (by decide) (by decide) ht ?_
    simp [hsize]
    omega
  · obtain ⟨m, hm, rfl⟩ := List.mem_map.1 hv
    obtain ⟨t, size, ht, hform⟩ := Text.exists_form_of_mem_hits hm
    obtain ⟨mark, name, collection, rest, htext, -, rfl, ⟨-, hname⟩, ⟨-, hcollection⟩, -⟩ :=
      bracketedForm_eq_some hform
    have hunmarked : Unmarked t := h.unmarked.of_infix ht.isInfix
    refine admits_braced hname hcollection (hunmarked.of_infix ?_) (hunmarked.of_infix ?_)
    · exact ⟨'(' :: '\x7b' :: mark, '\x7d' :: '|' :: (collection ++ ')' :: rest), by simp [htext]⟩
    · exact ⟨'(' :: '\x7b' :: (mark ++ (name ++ ['\x7d', '|'])), ')' :: rest, by simp [htext]⟩

/-- Settling the slash at the end leaves a URL allowed. -/
theorem Seams.Allows.settleSlash (h : e.Allows s) (template : Text) :
    e.Allows (settleSlash template s) := by
  have htrim : e.Allows (Text.trimEnd (· == '/') s) := h.of_infix (Text.isPrefix_trimEnd _ s).isInfix
  rw [Template.settleSlash]
  split
  · exact htrim.append_slash
  · rwa [List.append_nil]

end Written

end Detour
