import Detour.Proofs.Referral
import Detour.Proofs.Seam

/-!
# The slash at the end of a URL

The slashes at the end of a destination are settled in the middle of its expansion: captured values have
been put in by then, the values of markers and of mapping references have not. What comes behind the
settling keeps the settled slash in its place, so that the URL is a body with or without a slash behind.

* `Text.SparesLast` says that a form finds nothing that ends with a character; then a rewriting keeps
  that character at the end.
* `EndsLike` says that a URL ends like its template, and `endsLike_settled_iff` that this is a matter of
  the body alone.
* `Expander.endsLike_expand` says when the body does not end with a slash; `Expander.expand_slash_mapped`
  is a mapped value that ends with one.
-/

namespace Detour

open Template

/-! ### Characters at the end of a text -/

namespace Text

variable {β : Type} {form : Form β} {write : β → Text} {c : Char} {s : Text}

/-- No construct ends with a character: a construct is found, or not, whether or not the character follows
at the end of the text. -/
structure SparesLast (form : Form β) (c : Char) : Prop where
  /-- the character makes no difference -/
  append : ∀ s, form (s ++ [c]) = form s
  /-- a construct has a character -/
  pos : ∀ {s m size}, form s = some (m, size) → 0 < size
  /-- a construct is a part of the text -/
  le_length : ∀ {s m size}, form s = some (m, size) → size ≤ s.length

/-- A character that no construct ends with is a piece of its own at the end. -/
theorem pieces_append_last (h : SparesLast form c) (s : Text) :
    pieces form (s ++ [c]) = pieces form s ++ [.plain c] := by
  induction s using walk_induction form with
  | nil =>
    have hempty : form [] = none := by
      rw [Option.eq_none_iff_forall_ne_some]
      rintro ⟨m, size⟩ hsome
      exact absurd (h.pos hsome) (h.le_length hsome).not_gt
    exact pieces_cons ((h.append []).trans hempty)
  | plain a s hnone ih =>
    have hsame : form (a :: (s ++ [c])) = none := (h.append (a :: s)).trans hnone
    rw [List.cons_append, pieces_cons hsame, pieces_cons hnone, ih]
    rfl
  | hit a s m size hfound ih =>
    have hsame : form (a :: (s ++ [c])) = some (m, size) := (h.append (a :: s)).trans hfound
    -- the construct ends within the text, so that the character stays behind it
    have hsize : size - 1 ≤ s.length := Nat.sub_le_of_le_add (h.le_length hfound)
    rw [List.cons_append, pieces_hit hsame, pieces_hit hfound, List.drop_append_of_le_length hsize, ih]
    rfl

/-- A character that no construct ends with is kept at the end by every rewriting. -/
theorem rewrite_append_last (h : SparesLast form c) (write : β → Text) (s : Text) :
    rewrite form write (s ++ [c]) = rewrite form write s ++ [c] := by
  rw [rewrite, pieces_append_last h, render_append]
  rfl

/-- A word is found whether or not a character follows that it does not end with. -/
theorem sparesLast_wordForm {word : Text} (hword : word ≠ []) (hc : word.getLast? ≠ some c) :
    SparesLast (wordForm word) c where
  append s := by
    have hsame : startsWith word (s ++ [c]) = startsWith word s := by
      rw [Bool.eq_iff_iff, startsWith_iff, startsWith_iff, List.prefix_concat_iff]
      refine or_iff_right fun hlast => hc ?_
      rw [hlast, List.getLast?_concat]
    rw [wordForm, wordForm, hsame]
  pos h := by
    obtain ⟨-, h⟩ := Option.ite_none_right_eq_some.1 h
    obtain ⟨-, rfl⟩ := Prod.mk.inj (Option.some.inj h)
    exact List.length_pos_iff.2 hword
  le_length h := by
    obtain ⟨hfront, h⟩ := Option.ite_none_right_eq_some.1 h
    obtain ⟨-, rfl⟩ := Prod.mk.inj (Option.some.inj h)
    exact (startsWith_iff.1 hfront).length_le

/-- A text is not rewritten to nothing if nothing is ever put in that is empty. -/
theorem eq_nil_of_rewrite (hput : ∀ m ∈ hits (pieces form s), write m ≠ [])
    (h : rewrite form write s = []) : s = [] := by
  cases s with
  | nil => rfl
  | cons a s =>
    exfalso
    rcases hfound : form (a :: s) with _ | ⟨m, size⟩
    · rw [rewrite_cons write hfound] at h
      exact absurd h (List.cons_ne_nil _ _)
    · rw [rewrite_hit write hfound] at h
      rw [pieces_hit hfound] at hput
      exact hput m List.mem_cons_self (List.append_eq_nil_iff.1 h).1

/-- The last character of a part at the end is that of the text. -/
theorem getLast?_of_suffix {part : Text} (h : part <:+ s) (hc : part.getLast? = some c) :
    s.getLast? = some c := by
  obtain ⟨lead, rfl⟩ := h
  rw [List.getLast?_append, hc, Option.some_or]

/-- A rewriting ends with a character only if the text does, or a text that is put in, or if a text that
is put in is empty. -/
theorem getLast?_of_rewrite (hput : ∀ m ∈ hits (pieces form s), write m ≠ [] ∧
    (write m).getLast? ≠ some c) (h : (rewrite form write s).getLast? = some c) :
    s.getLast? = some c := by
  induction s using walk_induction form with
  | nil => exact h
  | plain a s hnone ih =>
    rw [pieces_cons hnone] at hput
    rw [rewrite_cons write hnone, List.getLast?_cons] at h
    rcases hlast : (rewrite form write s).getLast? with _ | d
    · obtain rfl : s = [] :=
        eq_nil_of_rewrite (fun m hm => (hput m hm).1) (List.getLast?_eq_none_iff.1 hlast)
      rw [hlast] at h
      exact h
    · rw [hlast, Option.getD_some] at h
      exact getLast?_of_suffix (List.suffix_cons a s) (ih hput (hlast.trans h))
  | hit a s m size hfound ih =>
    rw [pieces_hit hfound] at hput
    rw [rewrite_hit write hfound, List.getLast?_append] at h
    rcases hlast : (rewrite form write (s.drop (size - 1))).getLast? with _ | d
    · rw [hlast] at h
      exact absurd h (hput m List.mem_cons_self).2
    · rw [hlast] at h
      have hrest := ih (fun m hm => hput m (List.mem_cons_of_mem _ hm)) (hlast.trans h)
      exact getLast?_of_suffix ((List.drop_suffix _ s).trans (List.suffix_cons a s)) hrest

/-- A text without pieces is empty. -/
theorem eq_nil_of_pieces (h : pieces form s = []) : s = [] := by
  have hempty : rewrite form (fun _ => ['/']) s = [] := by
    rw [rewrite, h]
    rfl
  exact eq_nil_of_rewrite (fun _ _ => List.cons_ne_nil _ _) hempty

/-- If the last piece of a text is a character, then that is its last character. -/
theorem getLast?_of_pieces (h : (pieces form s).getLast? = some (.plain c)) :
    s.getLast? = some c := by
  obtain ⟨front, hfront⟩ := List.getLast?_eq_some_iff.1 h
  obtain ⟨d, hd⟩ : ∃ d : Char, d ≠ c := by
    by_cases hc : c = 'a'
    · exact ⟨'b', by rw [hc]; decide⟩
    · exact ⟨'a', Ne.symm hc⟩
  -- any other character may be written for the constructs
  have hrewrite : (rewrite form (fun _ => [d]) s).getLast? = some c := by
    rw [rewrite, hfront, render_append]
    exact List.getLast?_concat
  refine getLast?_of_rewrite (fun _ _ => ⟨List.cons_ne_nil _ _, fun hlast => ?_⟩) hrewrite
  exact hd (Option.some.inj hlast)

/-- A text without constructs is written back as it is. -/
theorem render_pieces_of_hits (write : β → Text) (h : hits (pieces form s) = []) :
    render write (pieces form s) = s := by
  induction s using walk_induction form with
  | nil => rfl
  | plain a s hnone ih =>
    rw [pieces_cons hnone] at h ⊢
    exact congrArg (a :: ·) (ih h)
  | hit a s m size hfound _ =>
    rw [pieces_hit hfound] at h
    exact absurd h (List.cons_ne_nil _ _)

end Text

/-! ### Markers and slots -/

namespace Collections

/-- What a marker is. -/
theorem markerForm_eq_some_iff {s key name : Text} {size : Nat} :
    markerForm s = some ((key, name), size) ↔
      (∃ rest, s = '(' :: (key ++ '|' :: (name ++ ')' :: rest))) ∧ (∀ c ∈ key, isKeyChar c) ∧
        (∀ c ∈ name, isBasicLetter c) ∧ key ≠ [] ∧ name ≠ [] ∧ size = key.length + name.length + 3 := by
  refine ⟨fun h => ?_, ?_⟩
  · unfold markerForm at h
    split at h
    · rename_i s
      simp only at h
      split at h
      · rename_i behind hbehind
        obtain ⟨hguard, h⟩ := Option.ite_none_left_eq_some.1 h
        simp only [Bool.or_eq_true, not_or, List.isEmpty_iff] at hguard
        obtain ⟨⟨hkey, hname⟩, hclose⟩ := hguard
        obtain ⟨found, rest, hfound, htake, hletters⟩ := exists_eq_takeWhile_append hclose
        obtain ⟨hmeaning, rfl⟩ := Prod.mk.inj (Option.some.inj h)
        obtain ⟨rfl, rfl⟩ := Prod.mk.inj hmeaning
        have hkeys : ∀ c ∈ s.takeWhile isKeyChar, isKeyChar c := List.all_eq_true.1 List.all_takeWhile
        rw [htake] at hname ⊢
        refine ⟨⟨rest, ?_⟩, hkeys, hletters, hkey, hname, rfl⟩
        nth_rewrite 1 [eq_takeWhile_append hbehind]
        rw [hfound]
      · exact absurd h (by simp)
    · exact absurd h (by simp)
  · rintro ⟨⟨rest, rfl⟩, hkeys, hletters, hkey, hname, rfl⟩
    have hfirst : (key ++ '|' :: (name ++ ')' :: rest)).takeWhile isKeyChar = key := by
      refine takeWhile_append_of_head hkeys fun c hc => ?_
      obtain rfl := Option.some.inj hc
      decide +kernel
    have hsecond : (name ++ ')' :: rest).takeWhile isBasicLetter = name := by
      refine takeWhile_append_of_head hletters fun c hc => ?_
      obtain rfl := Option.some.inj hc
      decide +kernel
    simp [markerForm, hfirst, hsecond, hkey, hname]

/-- A marker ends with a bracket. -/
theorem sparesLast_markerForm {c : Char} (hc : c ≠ ')') : Text.SparesLast markerForm c where
  append s := by
    refine Option.ext fun ⟨⟨key, name⟩, size⟩ => ?_
    rw [markerForm_eq_some_iff, markerForm_eq_some_iff]
    refine and_congr_left fun _ => ⟨?_, ?_⟩
    · rintro ⟨rest, hrest⟩
      rcases List.eq_nil_or_concat rest with rfl | ⟨front, d, rfl⟩
      · -- the marker would end with the character
        have hsplit : s ++ [c] = '(' :: (key ++ '|' :: name) ++ [')'] := by
          rw [hrest]
          simp
        exact absurd (List.cons.inj (List.append_inj' hsplit rfl).2).1 hc
      · refine ⟨front, ?_⟩
        have hsplit : s ++ [c] = '(' :: (key ++ '|' :: (name ++ ')' :: front)) ++ [d] := by
          rw [hrest]
          simp
        exact (List.append_inj' hsplit rfl).1
    · rintro ⟨rest, rfl⟩
      exact ⟨rest ++ [c], by simp⟩
  pos h := by
    obtain ⟨-, -, -, -, -, rfl⟩ := markerForm_eq_some_iff.1 h
    exact Nat.succ_pos _
  le_length h := by
    obtain ⟨⟨rest, rfl⟩, -, -, -, -, rfl⟩ := markerForm_eq_some_iff.1 h
    simp
    omega

/-- A character other than the bracket of a marker is kept at the end when markers are looked up. -/
theorem apply_append_last {c : Char} (hc : c ≠ ')') (cs : Collections) (s : Text) :
    cs.apply (s ++ [c]) = cs.apply s ++ [c] :=
  Text.rewrite_append_last (sparesLast_markerForm hc) _ s

end Collections

namespace Template

open Spot

/-- A slot ends with its sign. -/
theorem getLast?_slot (n : Nat) : (slot n).getLast? = some '\x01' := List.getLast?_concat

/-- A character other than the sign of a slot is kept at the end when slots are filled. -/
theorem fillSlots_append_last {c : Char} (hc : c ≠ '\x01') {n : Nat} {values : List Text} (s : Text) :
    fillSlots n values (s ++ [c]) = fillSlots n values s ++ [c] := by
  induction values generalizing n s with
  | nil => rfl
  | cons value values ih =>
    have hspares : Text.SparesLast (Text.wordForm (slot n)) c := by
      refine Text.sparesLast_wordForm (List.cons_ne_nil _ _) ?_
      rw [getLast?_slot]
      exact fun h => hc (Option.some.inj h).symm
    have hone : Text.replaceAll (slot n) value (s ++ [c]) =
        Text.replaceAll (slot n) value s ++ [c] := by
      rw [Text.replaceAll_eq_rewrite, Text.replaceAll_eq_rewrite, Text.rewrite_append_last hspares]
    rw [fillSlots, fillSlots, hone, ih]

/-- Filling slots does not bring a character to the end if no value is empty or ends with it. -/
theorem getLast?_of_fillSlots {c : Char} {n : Nat} {values : List Text} {s : Text}
    (hvalues : ∀ v ∈ values, v ≠ [] ∧ v.getLast? ≠ some c)
    (h : (fillSlots n values s).getLast? = some c) : s.getLast? = some c := by
  induction values generalizing n s with
  | nil => exact h
  | cons value values ih =>
    have hone := ih (fun v hv => hvalues v (List.mem_cons_of_mem _ hv)) h
    rw [Text.replaceAll_eq_rewrite] at hone
    exact Text.getLast?_of_rewrite (fun _ _ => hvalues value List.mem_cons_self) hone

/-- A text without the sign of slots has none to fill. -/
theorem fillSlots_of_notMem {n : Nat} {values : List Text} {s : Text} (h : '\x01' ∉ s) :
    fillSlots n values s = s := by
  induction values generalizing n with
  | nil => rfl
  | cons value values ih =>
    have hone : Text.replaceAll (slot n) value s = s :=
      Text.replaceAll_of_notMem value (List.mem_cons_self : '\x01' ∈ slot n) h
    rw [fillSlots, hone, ih]

/-- A slot of another number is kept where it is the only one. -/
theorem replaceAll_slot_last {k n : Nat} {new lead : Text} (hlead : '\x01' ∉ lead) (h : k ≠ n) :
    Text.replaceAll (slot k) new (lead ++ slot n) = lead ++ slot n := by
  have hopen := startsWith_slot_of_ne h []
  have hdigits : Text.replaceAll (slot k) new (writeNat n ++ ['\x01']) =
      writeNat n ++ Text.replaceAll (slot k) new ['\x01'] :=
    Text.replaceAll_lead new _ (sign_notMem_writeNat n)
  have hsign : Text.startsWith (slot k) ['\x01'] = false := by
    rw [Bool.eq_false_iff, ne_eq, Text.startsWith_iff]
    intro hprefix
    have hlength := hprefix.length_le
    rw [slot, List.length_append, List.length_append] at hlength
    exact absurd hlength (by simp)
  have hslot : Text.replaceAll (slot k) new (slot n) = slot n := by
    rw [slot_append] at hopen
    rw [← List.append_nil (slot n), slot_append, Text.replaceAll_cons new hopen, hdigits,
      Text.replaceAll_cons new hsign]
    rfl
  exact (Text.replaceAll_lead new _ hlead).trans (congrArg (lead ++ ·) hslot)

/-- The only slot of a text, at its end, is filled with its value. -/
theorem fillSlots_slot_last {n k : Nat} {values : List Text} {lead v : Text} (hlead : '\x01' ∉ lead)
    (hv : '\x01' ∉ v) (h : values[k]? = some v) :
    fillSlots n values (lead ++ slot (n + k)) = lead ++ v := by
  induction values generalizing n k with
  | nil => exact absurd h (by simp)
  | cons value values ih =>
    cases k with
    | zero =>
      obtain rfl : value = v := Option.some.inj h
      have hfill : Text.replaceAll (slot n) value (slot n) = value :=
        (congrArg _ (List.append_nil _).symm).trans
          ((Text.replaceAll_append value [] (List.cons_ne_nil _ _)).trans (List.append_nil _))
      have hone : Text.replaceAll (slot n) value (lead ++ slot n) = lead ++ value :=
        (Text.replaceAll_lead value _ hlead).trans (congrArg (lead ++ ·) hfill)
      change fillSlots (n + 1) values (Text.replaceAll (slot n) value (lead ++ slot n)) = _
      rw [hone]
      refine fillSlots_of_notMem fun hmem => ?_
      rcases List.mem_append.1 hmem with hmem | hmem
      · exact hlead hmem
      · exact hv hmem
    | succ k =>
      have hkept : Text.replaceAll (slot n) value (lead ++ slot (n + (k + 1))) =
          lead ++ slot (n + (k + 1)) := replaceAll_slot_last hlead (by omega)
      rw [fillSlots, hkept, show n + (k + 1) = n + 1 + k by omega]
      exact ih h

end Template

/-! ### The end of a URL -/

/-- A URL ends like its template: in exactly one slash if the template ends in a slash, and in none
otherwise. -/
def EndsLike (template url : Text) : Prop :=
  if template.getLast? = some '/' then ∃ rest, url = rest ++ ['/'] ∧ rest.getLast? ≠ some '/'
  else url.getLast? ≠ some '/'

/-- A body with the slash of its template behind ends like the template if it does not end with a slash
itself. -/
theorem endsLike_settled_iff {template body : Text} :
    EndsLike template (body ++ if template.getLast? == some '/' then ['/'] else []) ↔
      body.getLast? ≠ some '/' := by
  by_cases hslash : template.getLast? = some '/'
  · rw [EndsLike, if_pos hslash, if_pos (by rw [hslash]; rfl)]
    refine ⟨?_, fun hbody => ⟨body, rfl, hbody⟩⟩
    rintro ⟨rest, heq, hrest⟩
    rwa [(List.append_inj' heq rfl).1]
  · rw [EndsLike, if_neg hslash, if_neg (by simpa using hslash), List.append_nil]

/-- A text without its slashes at the end does not end with one. -/
theorem getLast?_trimEnd_slash (s : Text) : (Text.trimEnd (· == '/') s).getLast? ≠ some '/' := by
  intro h
  rw [Text.trimEnd, List.getLast?_reverse] at h
  have := List.head?_dropWhile_not (· == '/') s.reverse
  rw [h] at this
  exact absurd this (by simp)

namespace Expander

open Spot

variable {x : Expander}

/-- The text of a draft without its slashes at the end, with markers looked up and slots filled. -/
def body (x : Expander) (d : Draft) : Text :=
  fillSlots 0 d.mapped (x.collections.apply (Text.trimEnd (· == '/') d.text))

/-- The slash that is settled stays behind everything that is put in later. -/
theorem finish_eq (template : Text) (d : Draft) :
    x.finish template d = x.body d ++ if template.getLast? == some '/' then ['/'] else [] := by
  rw [finish, settleSlash, body]
  split
  · rw [Collections.apply_append_last (by decide), fillSlots_append_last (by decide)]
  · rw [List.append_nil, List.append_nil]

/-- A text that ends neither with a marker nor with a slot keeps its last character. -/
theorem getLast?_body_of_text {d : Draft}
    (hmarker : ∀ m, (Text.pieces Collections.markerForm (Text.trimEnd (· == '/') d.text)).getLast? ≠
      some (.hit m))
    (hslot : (Text.trimEnd (· == '/') d.text).getLast? ≠ some '\x01') :
    (x.body d).getLast? = (Text.trimEnd (· == '/') d.text).getLast? := by
  rw [body]
  rcases hlast : (Text.pieces Collections.markerForm (Text.trimEnd (· == '/') d.text)).getLast?
      with _ | ⟨c⟩ | ⟨m⟩
  · have hempty : Text.trimEnd (· == '/') d.text = [] :=
      Text.eq_nil_of_pieces (List.getLast?_eq_none_iff.1 hlast)
    rw [hempty, show x.collections.apply [] = [] from rfl, fillSlots_of_notMem List.not_mem_nil]
  · have hc := Text.getLast?_of_pieces hlast
    rw [hc, ne_eq, Option.some_inj] at hslot
    obtain ⟨front, hfront⟩ := List.getLast?_eq_some_iff.1 hlast
    rw [Collections.apply, Text.rewrite, hfront, Text.render_append]
    exact (congrArg List.getLast? (fillSlots_append_last hslot _)).trans
      (List.getLast?_concat.trans hc.symm)
  · exact absurd hlast (hmarker m)

/-- A text that ends with a marker ends with its value. -/
theorem getLast?_body_of_marker {d : Draft} {key name : Text} {c : Char}
    (h : (Text.pieces Collections.markerForm (Text.trimEnd (· == '/') d.text)).getLast? =
      some (.hit (key, name)))
    (hvalue : (x.collections.mapOrSelf name key).getLast? = some c) (hslot : c ≠ '\x01') :
    (x.body d).getLast? = some c := by
  obtain ⟨front, hfront⟩ := List.getLast?_eq_some_iff.1 h
  obtain ⟨most, hmost⟩ := List.getLast?_eq_some_iff.1 hvalue
  have happly : ∃ lead, x.collections.apply (Text.trimEnd (· == '/') d.text) = lead ++ [c] := by
    rw [Collections.apply, Text.rewrite, hfront, Text.render_append]
    exact ⟨_, (congrArg (_ ++ ·) ((List.append_nil _).trans hmost)).trans
      (List.append_assoc _ _ _).symm⟩
  obtain ⟨lead, hlead⟩ := happly
  rw [body, hlead, fillSlots_append_last hslot, List.getLast?_concat]

/-- A text that ends with its only mapping reference ends with the mapped value. -/
theorem body_of_slot {d : Draft} {lead v : Text} {k : Nat}
    (h : Text.trimEnd (· == '/') d.text = lead ++ slot k) (hlead : '\x01' ∉ x.collections.apply lead)
    (hk : d.mapped[k]? = some v) (hv : '\x01' ∉ v) : x.body d = x.collections.apply lead ++ v := by
  have happly : ∀ word : Text, ')' ∉ word →
      x.collections.apply (lead ++ word) = x.collections.apply lead ++ word := by
    intro word hword
    induction word using List.reverseRecOn with
    | nil => simp
    | append_singleton word c ih =>
      rw [List.mem_append, not_or] at hword
      have hc : c ≠ ')' := fun hc => hword.2 (by simp [hc])
      rw [← List.append_assoc, Collections.apply_append_last hc, ih hword.1, List.append_assoc]
  have hslot : ')' ∉ slot k := notMem_slot (by decide) (by decide)
  rw [body, h, happly _ hslot]
  simpa using fillSlots_slot_last (n := 0) hlead hv hk

/-- A body does not end with a slash if no value that is looked up is empty or ends with one. -/
theorem getLast?_body_of_values {d : Draft}
    (hvalues : ∀ v ∈ Text.puts Collections.markerForm
        (fun (key, name) => x.collections.mapOrSelf name key) (Text.trimEnd (· == '/') d.text) ++
          d.mapped, v ≠ [] ∧ v.getLast? ≠ some '/') :
    (x.body d).getLast? ≠ some '/' := by
  intro h
  have happlied := getLast?_of_fillSlots (fun v hv => hvalues v (List.mem_append_right _ hv)) h
  refine getLast?_trimEnd_slash d.text (Text.getLast?_of_rewrite (fun m hm => ?_) happlied)
  exact hvalues _ (List.mem_append_left _ (List.mem_map_of_mem hm))

/-- Without a site and selectors the URL of an expansion is the finished draft. -/
theorem url_of_expand {destination : Text} {wildcards : List Wildcard} {values : List Text}
    {e : Expansion} (he : x.expand destination wildcards values = .ok e)
    (hsite : (Text.trim x.site).isEmpty)
    (hselectors : Text.hits (Text.pieces selectorForm (x.finish e.template
      (x.substituteAll (wildcards.zip values) ⟨unbracket e.template, []⟩))) = []) :
    e.url = x.finish e.template
      (x.substituteAll (wildcards.zip values) ⟨unbracket e.template, []⟩) := by
  rw [expand] at he
  split at he
  · exact absurd he (by simp)
  · simp only at he
    split at he
    · exact absurd he (by simp)
    · rename_i url hselect
      obtain rfl := Except.ok.inj he
      simp only at hselectors ⊢
      rw [select_eq] at hselect
      simp only [hselectors, List.find?_nil, Text.render_pieces_of_hits _ hselectors] at hselect
      obtain rfl := Except.ok.inj hselect
      exact absolutize_of_blank hsite _

/-- **The slash at the end.** Without a site and selectors, the URL of an expansion is a body with a slash
behind it if the template ends in one; it ends like the template exactly if the body does not end with a
slash. That is so where literal text or a captured value stands at the end. Where a marker or the only
mapping reference stands there, it depends on the value that is looked up; it is so as well where no such
value is empty or ends with a slash. -/
theorem endsLike_expand (x : Expander) {destination : Text} {wildcards : List Wildcard}
    {values : List Text} {e : Expansion} (he : x.expand destination wildcards values = .ok e)
    (hsite : (Text.trim x.site).isEmpty)
    (hselectors : Text.hits (Text.pieces selectorForm (x.finish e.template
      (x.substituteAll (wildcards.zip values) ⟨unbracket e.template, []⟩))) = []) :
    let d := x.substituteAll (wildcards.zip values) ⟨unbracket e.template, []⟩
    let trimmed := Text.trimEnd (· == '/') d.text
    e.url = x.body d ++ (if e.template.getLast? == some '/' then ['/'] else []) ∧
      (EndsLike e.template e.url ↔ (x.body d).getLast? ≠ some '/') ∧
      ((∀ m, (Text.pieces Collections.markerForm trimmed).getLast? ≠ some (.hit m)) →
        trimmed.getLast? ≠ some '\x01' → EndsLike e.template e.url) ∧
      (∀ key name c, (Text.pieces Collections.markerForm trimmed).getLast? = some (.hit (key, name)) →
        (x.collections.mapOrSelf name key).getLast? = some c → c ≠ '\x01' →
          (EndsLike e.template e.url ↔ c ≠ '/')) ∧
      (∀ lead k v, trimmed = lead ++ slot k → '\x01' ∉ x.collections.apply lead →
        d.mapped[k]? = some v → '\x01' ∉ v →
          (EndsLike e.template e.url ↔ (x.collections.apply lead ++ v).getLast? ≠ some '/')) ∧
      ((∀ v ∈ Text.puts Collections.markerForm
          (fun (key, name) => x.collections.mapOrSelf name key) trimmed ++ d.mapped,
            v ≠ [] ∧ v.getLast? ≠ some '/') → EndsLike e.template e.url) := by
  intro d trimmed
  have hurl := (url_of_expand he hsite hselectors).trans (finish_eq e.template d)
  have hiff : EndsLike e.template e.url ↔ (x.body d).getLast? ≠ some '/' := by
    rw [hurl]
    exact endsLike_settled_iff
  refine ⟨hurl, hiff, ?_, ?_, ?_, ?_⟩
  · intro hmarker hslot
    refine hiff.2 ?_
    rw [getLast?_body_of_text hmarker hslot]
    exact getLast?_trimEnd_slash d.text
  · intro key name c hlast hvalue hslot
    rw [hiff, getLast?_body_of_marker hlast hvalue hslot, ne_eq, Option.some_inj]
  · intro lead k v htrimmed hlead hk hv
    rw [hiff, body_of_slot htrimmed hlead hk hv]
  · intro hvalues
    exact hiff.2 (getLast?_body_of_values hvalues)

/-- An expander with a collection in which one value ends with a slash. -/
def sloper : Expander := ⟨⟨.fullClean, false⟩, [⟨['c'], "p=q/\nr=s".toList⟩], .empty, []⟩

/-- A mapped value without a slash ends like the template. -/
theorem endsLike_expand_mapped :
    ∃ e, sloper.expand "/x/\x7bb|c\x7d//".toList [⟨['b'], .all, false⟩] ["r".toList] = .ok e ∧
      e.url = "/x/s/".toList ∧ EndsLike e.template e.url := by
  have he : sloper.expand "/x/\x7bb|c\x7d//".toList [⟨['b'], .all, false⟩] ["r".toList] =
      .ok ⟨"/x/\x7bb|c\x7d//".toList, "/x/s/".toList, [⟨['b'], "r".toList, "r".toList⟩]⟩ := by
    decide +kernel
  obtain ⟨-, -, -, -, -, hvalues⟩ := endsLike_expand sloper he rfl (by decide +kernel)
  exact ⟨_, he, rfl, hvalues (by decide +kernel)⟩

/-- A mapped value, or the value of a marker, that ends with a slash brings it into the URL of a template
without one. -/
theorem expand_slash_mapped :
    (∃ e, sloper.expand "/x/\x7bb|c\x7d".toList [⟨['b'], .all, false⟩] ["p".toList] = .ok e ∧
      '[' ∉ e.url ∧ e.template = "/x/\x7bb|c\x7d".toList ∧ e.url = "/x/q/".toList ∧
      ¬ EndsLike e.template e.url) ∧
    ∃ e, sloper.expand "/x/(p|c)".toList [] [] = .ok e ∧
      '[' ∉ e.url ∧ e.template = "/x/(p|c)".toList ∧ e.url = "/x/q/".toList ∧
      ¬ EndsLike e.template e.url := by
  have hmapped : sloper.expand "/x/\x7bb|c\x7d".toList [⟨['b'], .all, false⟩] ["p".toList] =
      .ok ⟨"/x/\x7bb|c\x7d".toList, "/x/q/".toList, [⟨['b'], "p".toList, "p".toList⟩]⟩ := by
    decide +kernel
  have hmarker : sloper.expand "/x/(p|c)".toList [] [] =
      .ok ⟨"/x/(p|c)".toList, "/x/q/".toList, []⟩ := by decide +kernel
  refine ⟨⟨_, hmapped, by decide, rfl, rfl, ?_⟩, _, hmarker, by decide, rfl, rfl, ?_⟩
  · rw [EndsLike, if_neg (by decide)]
    decide
  · rw [EndsLike, if_neg (by decide)]
    decide

end Expander

end Detour
