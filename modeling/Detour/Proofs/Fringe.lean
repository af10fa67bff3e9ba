import Detour.Proofs.Casing

/-!
# Hyphens at the ends of cleaned values

Hyphens are taken off both ends of a spelled value before the characters that may not stand in a cleaned
value are left out. So a hyphen comes to stand at an end if only such characters stood between it and that
end.

* `Cleaning.LosesFront`: the texts of which this holds in front.
* `Cleaning.head?_filter_trimBoth` reads it off the finished text, and `Cleaning.losesFront_between` says
  that writing numbers apart does not change it.
* `Cleaning.Lasts`: the parts that do not go as a whole. A text of such parts does not lose its front,
  `Cleaning.not_losesFront_flatten`.
* `Cleaner.head?_finish` and `Cleaner.getLast?_finish` put the stages together; `Cleaner.hyphen_apply`
  states both ends for cleaned values.
-/

namespace Detour

namespace Cleaning

variable {p q : Char → Bool} {s t lead : Text}

/-! ### Texts that lose their front -/

/-- A text of which the front is left out: behind hyphens there are only characters that may not stand in a
cleaned value, up to a hyphen that is not among those at the end. -/
def LosesFront (s : Text) : Prop :=
  ∃ hyphens lead rest, s = hyphens ++ lead ++ '-' :: rest ∧ (∀ c ∈ hyphens, c = '-') ∧ lead ≠ [] ∧
    (∀ c ∈ lead, isAllowed c = false) ∧ ∃ c ∈ rest, c ≠ '-'

/-- **A hyphen is left in front** of a text exactly if the text loses its front. -/
theorem head?_filter_trimBoth (s : Text) :
    ((Text.trimBoth (· == '-') s).filter isAllowed).head? = some '-' ↔ LosesFront s := by
  rw [List.head?_filter, List.find?_eq_some_iff_append]
  constructor
  · obtain ⟨front, back, hs, hfront, -, hfirst, hlast⟩ := Text.exists_trimBoth (· == '-') s
    rintro ⟨-, lead, rest, hsplit, hlead⟩
    rw [hsplit] at hs hfirst hlast
    refine ⟨front, lead, rest ++ back, ?_, fun c hc => beq_iff_eq.1 (hfront c hc), ?_,
      fun c hc => by simpa using hlead c hc, ?_⟩
    · rw [hs]
      simp
    · rintro rfl
      exact absurd (hfirst '-' rfl) (by decide)
    · -- what is left does not end with the hyphen
      have hend : (lead ++ '-' :: rest).getLast? = some (('-' :: rest).getLast (List.cons_ne_nil _ _)) := by
        rw [List.getLast?_append_of_ne_nil _ (List.cons_ne_nil _ _),
          List.getLast?_eq_some_getLast (List.cons_ne_nil _ _)]
      have hne : ('-' :: rest).getLast (List.cons_ne_nil _ _) ≠ '-' := beq_eq_false_iff_ne.1 (hlast _ hend)
      have hmem := (List.mem_cons.1 (List.getLast_mem (List.cons_ne_nil '-' rest))).resolve_left hne
      exact ⟨_, List.mem_append_left _ hmem, hne⟩
  · rintro ⟨hyphens, lead, rest, rfl, hhyphens, hne, hlead, c, hc, hother⟩
    have hrest : rest = rest.rdropWhile (· == '-') ++ rest.rtakeWhile (· == '-') :=
      List.rdropWhile_append_rtakeWhile.symm
    have hkept : rest.rdropWhile (· == '-') ≠ [] := fun hnil => by
      have hall := List.rdropWhile_eq_nil_iff.1 hnil c hc
      exact hother (beq_iff_eq.1 hall)
    have htrim : Text.trimBoth (· == '-') (hyphens ++ lead ++ '-' :: rest) =
        lead ++ '-' :: rest.rdropWhile (· == '-') := by
      have hsplit : hyphens ++ lead ++ '-' :: rest = hyphens ++
          (lead ++ '-' :: rest.rdropWhile (· == '-')) ++ rest.rtakeWhile (· == '-') := by
        conv_lhs => rw [hrest]
        simp
      rw [hsplit]
      refine Text.trimBoth_append (fun d hd => beq_iff_eq.2 (hhyphens d hd)) (fun d hd => ?_)
        (fun d hd => ?_) fun d hd => ?_
      · exact List.mem_rtakeWhile_imp (p := fun c => c == '-') hd
      · have hmem : d ∈ lead := by
          rw [List.head?_append_of_ne_nil _ hne] at hd
          exact List.mem_of_head? hd
        rw [beq_eq_false_iff_ne]
        rintro rfl
        exact absurd (hlead '-' hmem) (by decide)
      · have hlast := List.rdropWhile_last_not (· == '-') rest hkept
        rw [List.getLast?_append_of_ne_nil _ (List.cons_ne_nil _ _), List.getLast?_cons_of_ne_nil hkept,
          List.getLast?_eq_some_getLast hkept, Option.some_inj] at hd
        rw [← hd]
        simpa using hlast
    exact ⟨by decide, lead, _, htrim, fun d hd => by simp [hlead d hd]⟩

/-- Behind characters that get no hyphen, neighbours are written apart as they are without them. -/
theorem between_eq_append_iff (h : ∀ c ∈ lead, p c = false) :
    between p q s = lead ++ t ↔ ∃ rest, s = lead ++ rest ∧ between p q rest = t := by
  have hbetween : ∀ c, p c = false → ∀ s, between p q (c :: s) = c :: between p q s := fun c hc s => by
    rw [between_cons, rung, hc]
    rfl
  induction lead generalizing s with
  | nil => simp
  | cons c lead ih =>
    have hc : p c = false := h c List.mem_cons_self
    have hrest : ∀ d ∈ lead, p d = false := fun d hd => h d (List.mem_cons_of_mem c hd)
    cases s with
    | nil => simp [between]
    | cons d s =>
      constructor
      · intro hsame
        obtain rfl : d = c := by
          rw [between_cons] at hsame
          exact (List.cons.inj hsame).1
        rw [hbetween d hc] at hsame
        obtain ⟨rest, rfl, ht⟩ := (ih hrest).1 (List.cons.inj hsame).2
        exact ⟨rest, rfl, ht⟩
      · rintro ⟨rest, hs, ht⟩
        rw [hs, List.cons_append, hbetween c hc]
        exact congrArg _ ((ih hrest).2 ⟨rest, rfl, ht⟩)

/-- Writing neighbours apart does not lose the front. -/
theorem losesFront_between (hhyphen : p '-' = false) (hp : ∀ c, isAllowed c = false → p c = false)
    (q : Char → Bool) (s : Text) : LosesFront (between p q s) ↔ LosesFront s := by
  have hnone : ∀ {hyphens lead : Text}, (∀ c ∈ hyphens, c = '-') → (∀ c ∈ lead, isAllowed c = false) →
      ∀ c ∈ hyphens ++ lead ++ ['-'], p c = false := by
    intro hyphens lead hhyphens hlead c hc
    rw [List.mem_append, List.mem_append, List.mem_singleton] at hc
    rcases hc with (hc | hc) | rfl
    · rwa [hhyphens c hc]
    · exact hp c (hlead c hc)
    · exact hhyphen
  constructor
  · rintro ⟨hyphens, lead, rest, hs, hhyphens, hne, hlead, c, hc, hother⟩
    rw [← List.singleton_append, ← List.append_assoc, between_eq_append_iff (hnone hhyphens hlead)] at hs
    obtain ⟨rest, rfl, rfl⟩ := hs
    exact ⟨hyphens, lead, rest, by simp, hhyphens, hne, hlead, c, (mem_between hc).resolve_right hother,
      hother⟩
  · rintro ⟨hyphens, lead, rest, rfl, hhyphens, hne, hlead, c, hc, hother⟩
    refine ⟨hyphens, lead, between p q rest, ?_, hhyphens, hne, hlead, c, mem_between_of_mem hc, hother⟩
    have hsplit : ∀ t : Text, hyphens ++ lead ++ '-' :: t = hyphens ++ lead ++ ['-'] ++ t := fun t => by
      simp
    rw [hsplit rest, hsplit (between p q rest), between_eq_append_iff (hnone hhyphens hlead)]
    exact ⟨rest, rfl, rfl⟩

/-- Letters and digits may stand in a cleaned value. -/
theorem not_alphanum_of_not_allowed {c : Char} (h : isAllowed c = false) :
    c.isAlpha = false ∧ c.isDigit = false := by
  simp only [isAllowed, Char.isAlphanum, Bool.or_eq_false_iff] at h
  exact h.1.1.1

/-- Writing numbers apart does not lose the front either, -/
theorem losesFront_numbersApart (s : Text) : LosesFront (numbersApart s) ↔ LosesFront s := by
  rw [numbersApart, losesFront_between (by decide) fun c hc => (not_alphanum_of_not_allowed hc).2,
    losesFront_between (by decide) fun c hc => (not_alphanum_of_not_allowed hc).1]

/-- nor does it if the text is read from its end. -/
theorem losesFront_reverse_numbersApart (s : Text) :
    LosesFront (numbersApart s).reverse ↔ LosesFront s.reverse := by
  rw [numbersApart, reverse_between, reverse_between,
    losesFront_between (by decide) fun c hc => (not_alphanum_of_not_allowed hc).1,
    losesFront_between (by decide) fun c hc => (not_alphanum_of_not_allowed hc).2]

/-! ### Spellings that last -/

/-- A part of a text that does not go as a whole: a lone hyphen, or a part without hyphens that is empty
or has something that may stand in a cleaned value. -/
def Lasts (w : Text) : Prop := w = ['-'] ∨ '-' ∉ w ∧ (w = [] ∨ w.any isAllowed)

instance (w : Text) : Decidable (Lasts w) := inferInstanceAs (Decidable (_ ∨ _))

/-- Read from its end, such a part is one as well. -/
theorem Lasts.reverse {w : Text} (h : Lasts w) : Lasts w.reverse := by
  rcases h with rfl | ⟨hhyphen, rfl | hany⟩
  · exact .inl rfl
  · exact .inr ⟨hhyphen, .inl rfl⟩
  · exact .inr ⟨fun hc => hhyphen (List.mem_reverse.1 hc), .inr (by rwa [List.any_reverse])⟩

/-- A hyphen in front goes before anything else does. -/
theorem LosesFront.tail (h : LosesFront ('-' :: s)) : LosesFront s := by
  obtain ⟨hyphens, lead, rest, hs, hhyphens, hne, hlead, hrest⟩ := h
  cases hyphens with
  | nil =>
    obtain ⟨c, lead, rfl⟩ := List.exists_cons_of_ne_nil hne
    obtain rfl : '-' = c := (List.cons.inj hs).1
    exact absurd (hlead '-' List.mem_cons_self) (by decide)
  | cons c hyphens =>
    exact ⟨hyphens, lead, rest, (List.cons.inj hs).2, fun d hd => hhyphens d (List.mem_cons_of_mem c hd),
      hne, hlead, hrest⟩

/-- A part in front with something that may stand, and without hyphens, does not go. -/
theorem not_losesFront_append {w : Text} (hhyphen : '-' ∉ w) (h : w.any isAllowed) (t : Text) :
    ¬ LosesFront (w ++ t) := by
  rintro ⟨hyphens, lead, rest, hs, hhyphens, -, hlead, -⟩
  obtain ⟨c, hc, hallowed⟩ := List.any_eq_true.1 h
  have hsplit : w ++ t = hyphens ++ lead ++ ['-'] ++ rest := by
    rw [hs]
    simp
  rcases List.append_eq_append_iff.1 hsplit with ⟨mid, hgone, -⟩ | ⟨mid, rfl, -⟩
  · -- what may stand is not among what goes
    have hmem : c ∈ hyphens ++ lead ++ ['-'] := by
      rw [hgone]
      exact List.mem_append_left mid hc
    have hne : c ≠ '-' := fun heq => hhyphen (heq ▸ hc)
    rw [List.mem_append, List.mem_append, List.mem_singleton] at hmem
    rcases hmem with (hmem | hmem) | hmem
    · exact hne (hhyphens c hmem)
    · rw [hlead c hmem] at hallowed
      exact absurd hallowed (by decide)
    · exact hne hmem
  · exact hhyphen (by simp)

/-- **A text of parts that last** does not lose its front. -/
theorem not_losesFront_flatten {ws : List Text} (h : ∀ w ∈ ws, Lasts w) : ¬ LosesFront ws.flatten := by
  induction ws with
  | nil =>
    rintro ⟨hyphens, lead, rest, hs, -⟩
    exact absurd hs.symm (by simp)
  | cons w ws ih =>
    have hrest := ih fun v hv => h v (List.mem_cons_of_mem w hv)
    rw [List.flatten_cons]
    rcases h w List.mem_cons_self with rfl | ⟨hhyphen, rfl | hallowed⟩
    · exact fun hloses => hrest hloses.tail
    · exact hrest
    · exact not_losesFront_append hhyphen hallowed _

/-- A spelling is fitted to what follows by dropping a space, if anything. -/
theorem fit_cases (here : Text) (next : Option Text) : Transliteration.fit here next = here ∨
    ∃ init, here = init ++ [' '] ∧ Transliteration.fit here next = init := by
  unfold Transliteration.fit
  extract_lets closes
  split
  · rename_i hcut
    rw [Bool.and_eq_true, Bool.and_eq_true, beq_iff_eq] at hcut
    obtain ⟨init, rfl⟩ := List.getLast?_eq_some_iff.1 hcut.1.2
    exact .inr ⟨init, rfl, List.dropLast_concat⟩
  · exact .inl rfl

/-- So a spelling that lasts does so where it is fitted. -/
theorem Lasts.fit {w : Text} (h : Lasts w) (next : Option Text) : Lasts (Transliteration.fit w next) := by
  rcases fit_cases w next with hfit | ⟨init, rfl, hfit⟩
  · rwa [hfit]
  rw [hfit]
  rcases h with hlone | ⟨hhyphen, hnil | hany⟩
  · exact absurd hlone (by cases init <;> simp)
  · exact absurd hnil (by simp)
  · have hblank : isAllowed ' ' = false := by decide
    have hinit : init.any isAllowed := by simpa [hblank] using hany
    exact .inr ⟨fun hc => hhyphen (List.mem_append_left _ hc), .inr hinit⟩

/-- A text is spelled in parts that last if all of its characters are. -/
theorem exists_parts_of_spell {dictionary : Dictionary} (h : ∀ c ∈ s, Lasts (dictionary.spelling c)) :
    ∃ ws : List Text, dictionary.spell s = ws.flatten ∧ ∀ w ∈ ws, Lasts w := by
  induction s with
  | nil => exact ⟨[], rfl, fun w hw => absurd hw List.not_mem_nil⟩
  | cons c s ih =>
    obtain ⟨ws, hspell, hws⟩ := ih fun d hd => h d (List.mem_cons_of_mem c hd)
    refine ⟨_ :: ws, congrArg (_ ++ ·) hspell, List.forall_mem_cons.2 ⟨?_, hws⟩⟩
    exact (h c List.mem_cons_self).fit _

end Cleaning

namespace Cleaner

open Cleaning

variable (k : Cleaner)

/-! ### Both ends of cleaned values -/

/-- **A hyphen stands in front** of a finished text exactly if the text loses its front. -/
theorem head?_finish (s : Text) : (k.finish s).head? = some '-' ↔ LosesFront s := by
  rw [finish, head?_filter_trimBoth]
  split
  · exact losesFront_numbersApart s
  · exact Iff.rfl

/-- **A hyphen stands at the end** of a finished text exactly if the text, read from its end, loses its
front. -/
theorem getLast?_finish (s : Text) : (k.finish s).getLast? = some '-' ↔ LosesFront s.reverse := by
  rw [finish, ← List.head?_reverse, ← List.filter_reverse, ← Text.trimBoth_reverse, head?_filter_trimBoth]
  split
  · exact losesFront_reverse_numbersApart s
  · exact Iff.rfl

/-- A cleaned value has hyphens at the ends where the finished text has them. -/
theorem ends_apply (hk : k.mode ≠ .off) (value : Text) :
    ((k.apply value).head? = some '-' ↔ (k.finish (k.spelled value)).head? = some '-') ∧
      ((k.apply value).getLast? = some '-' ↔ (k.finish (k.spelled value)).getLast? = some '-') := by
  cases hmode : k.mode with
  | off => exact absurd hmode hk
  | semiClean =>
    rw [apply_semiClean hmode]
    exact ⟨Iff.rfl, Iff.rfl⟩
  | fullClean =>
    rw [apply_fullClean hmode, Text.small, List.head?_map, List.getLast?_map]
    exact ⟨map_toLower_eq_some_iff (by decide) _, map_toLower_eq_some_iff (by decide) _⟩

/-- **Hyphens at the ends of cleaned values.** A cleaned value begins with a hyphen exactly if its spelled
form loses its front, and it ends with one exactly if this holds of the form read from its end. Neither
happens if every letter of the value is spelled with nothing at all or with something that may stand in a
cleaned value, and without hyphens. -/
theorem hyphen_apply {k : Cleaner} (hk : k.mode ≠ .off) (value : Text) :
    ((k.apply value).head? = some '-' ↔ LosesFront (k.spelled value)) ∧
      ((k.apply value).getLast? = some '-' ↔ LosesFront (k.spelled value).reverse) ∧
      ((∀ c ∈ k.gapped value, Lasts (k.dictionary.spelling c)) →
        (k.apply value).head? ≠ some '-' ∧ (k.apply value).getLast? ≠ some '-') := by
  obtain ⟨hhead, hlast⟩ := k.ends_apply hk value
  rw [head?_finish] at hhead
  rw [getLast?_finish] at hlast
  refine ⟨hhead, hlast, fun hspelling => ?_⟩
  obtain ⟨ws, hspelled, hws⟩ := exists_parts_of_spell hspelling
  have hreverse : (k.spelled value).reverse = (ws.reverse.map List.reverse).flatten := by
    rw [spelled, hspelled, List.reverse_flatten, List.map_reverse]
  have hback : ∀ w ∈ ws.reverse.map List.reverse, Lasts w := fun w hw => by
    obtain ⟨v, hv, rfl⟩ := List.mem_map.1 hw
    exact (hws v (List.mem_reverse.1 hv)).reverse
  refine ⟨hhead.not.2 ?_, hlast.not.2 ?_⟩
  · rw [spelled, hspelled]
    exact not_losesFront_flatten hws
  · rw [hreverse]
    exact not_losesFront_flatten hback

/-- A value between hyphens, with a letter that is spelled with a space and one that has an accent. -/
theorem hyphen_apply_accented :
    let k : Cleaner := ⟨.fullClean, true⟩
    let value : Text := ['-', '\u65e5', '-', '\u00c9', '2', '-', '-']
    k.mode ≠ .off ∧ (∀ c ∈ k.gapped value, Lasts (k.dictionary.spelling c)) ∧
      (k.apply value).head? ≠ some '-' ∧ (k.apply value).getLast? ≠ some '-' ∧
      k.apply value = "ri-e-2".toList := by
  intro k value
  have hk : k.mode ≠ .off := by decide
  have hall : (k.gapped value).all fun c => Lasts (k.dictionary.spelling c) := by decide +kernel
  have hlasts : ∀ c ∈ k.gapped value, Lasts (k.dictionary.spelling c) := fun c hc =>
    of_decide_eq_true (List.all_eq_true.1 hall c hc)
  exact ⟨hk, hlasts, ((hyphen_apply hk value).2.2 hlasts).1, ((hyphen_apply hk value).2.2 hlasts).2,
    by decide +kernel⟩

/-- A letter that is spelled as an apostrophe leaves the hyphen behind it in front. -/
theorem hyphen_apply_apostrophe :
    let k : Cleaner := ⟨.fullClean, false⟩
    let value : Text := ['\u044c', '-', 'a']
    k.apply value = "-a".toList ∧ (k.apply value).head? = some '-' := by
  decide +kernel

end Cleaner

end Detour
