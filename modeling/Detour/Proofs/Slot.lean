import Detour.Proofs.Reference

/-!
# Slots for mapped values

While captured values are put in, a numbered slot holds the place of every mapped value, and the
slots are filled in the order of their numbers when all else is done.

* `Spot` is what stands in the place of a mapping reference on the way; `Spot.take` puts slots in for
  one wildcard, and `Expander.slotted` for all of them.
* `Draft.Shows` ties a draft to spots: `Expander.shows_substitute` is one capture and
  `Expander.shows_substituteAll` all of them.
* `Expander.render_value_slotted`: the slots hold what the references stand for.
* A slot has the same sign at both ends, so the end of one slot and the start of another can be read
  as a slot with what is between them. `Spot.Parted` says that this never happens.
  `Spot.replaceAll_slot` fills one slot and `Spot.fillSlots_shown` all of them.
-/

namespace Detour

open Template Wildcard

/-! ### Spots -/

/-- What a wildcard reads at a reference: the mapped value, if the reference names the wildcard. -/
def Expander.read? (x : Expander) (w : Wildcard) (captured : Text) (r : Reference) :
    Option Text :=
  if w.name = r.name then some (x.collections.mapOrSelf r.collection captured) else none

/-- What stands in the place of a mapping reference while captured values are put in. -/
inductive Spot where
  /-- the reference, for which no value was captured yet -/
  | waiting (r : Reference)
  /-- the slot with a number, and the mapped value that it holds the place of -/
  | held (n : Nat) (value : Text)
deriving Repr, DecidableEq

namespace Spot

/-- How a spot is written once the slots up to a number are filled. -/
def shown (filled : Nat) : Spot → Text
  | waiting r => r.braced
  | held n value => if n < filled then value else slot n

/-- How a spot is written once all slots are filled. -/
def value : Spot → Text
  | waiting r => r.braced
  | held _ value => value

/-- The mapped value of a slot. -/
def held? : Spot → Option (Nat × Text)
  | waiting _ => none
  | held n value => some (n, value)

/-- What a spot is waiting for is read by `read?`. -/
def taken? (read? : Reference → Option Text) : Spot → Option Text
  | waiting r => read? r
  | held _ _ => none

/-- Slots, numbered from `n` on, in the place of the references that `read?` reads. -/
def take (read? : Reference → Option Text) : (n : Nat) → List (Piece Spot) → List (Piece Spot)
  | _, [] => []
  | n, .plain c :: ps => .plain c :: take read? n ps
  | n, .hit spot :: ps =>
    match taken? read? spot with
    | some value => .hit (held n value) :: take read? (n + 1) ps
    | none => .hit spot :: take read? n ps

/-- The number of slots. -/
def count (ps : List (Piece Spot)) : Nat := ((Text.hits ps).filterMap held?).length

/-- Plain characters are ordinary, references can be written, and mapped values are ordinary. -/
def Fits : Piece Spot → Prop
  | .plain c => isOrdinary c
  | .hit (waiting r) => r.IsWritable
  | .hit (held _ value) => Ordinary value

variable {ps : List (Piece Spot)} {read? : Reference → Option Text} {n : Nat} {w : Wildcard}
  {x : Expander} {captured : Text}

/-- Before any slot is filled, a slot is written with its number. -/
@[simp] theorem shown_held_zero (n : Nat) (value : Text) : shown 0 (held n value) = slot n := rfl

/-- The pieces that a wildcard finds at a spot. -/
def found (name : Text) : Piece Spot → List (Piece Text)
  | .plain c => [.plain c]
  | .hit (waiting r) => if name = r.name then [.hit r.collection] else r.braced.map .plain
  | .hit (held n _) => (slot n).map .plain

/-- A wildcard finds the references that it is named in. -/
theorem pieces_shown (hfits : ∀ p ∈ ps, Fits p) (htells : ∀ r, .hit (waiting r) ∈ ps → r.Tells w) :
    Text.pieces (mappingForm w.name) (Text.render (shown 0) ps) = ps.flatMap (found w.name) := by
  refine Text.render_of_append rfl (fun c hc rest => ?_) fun spot hspot rest => ?_
  · exact Text.pieces_cons (mappingForm_cons (ne_of_isOrdinary (by decide) (hfits _ hc)) rest)
  · cases spot with
    | waiting r =>
      have hr : r.IsWritable := hfits _ hspot
      have hform := Reference.mappingForm_braced hr (htells r hspot) rest
      by_cases hname : w.name = r.name
      · rw [if_pos hname] at hform
        simp only [found, if_pos hname]
        exact Text.pieces_append (List.cons_ne_nil _ _) hform
      · rw [if_neg hname] at hform
        simp only [found, if_neg hname]
        refine Text.pieces_lead rest hform fun c hc t => mappingForm_cons ?_ t
        rintro rfl
        rcases Reference.mem_tail_braced hr hc with h | h | h <;> exact absurd h (by decide)
    | held n value =>
      refine Text.pieces_plain rest fun c hc t => mappingForm_cons ?_ t
      rintro rfl
      exact notMem_slot (by decide) (by decide) hc

/-- Plain characters are written back before the slots. -/
theorem writeSlots_plain (lead : Text) (ps : List (Piece Text)) :
    writeSlots n (lead.map .plain ++ ps) = lead ++ writeSlots n ps := by
  induction lead with
  | nil => rfl
  | cons c lead ih => exact congrArg (c :: ·) ih

/-- Slots are put in the place of the references that a wildcard is named in. -/
theorem writeSlots_found :
    writeSlots n (ps.flatMap (found w.name)) =
      Text.render (shown 0) (take (x.read? w captured) n ps) := by
  induction ps generalizing n with
  | nil => rfl
  | cons p ps ih =>
    cases p with
    | plain c => exact congrArg (c :: ·) ih
    | hit spot =>
      cases spot with
      | waiting r =>
        by_cases hname : w.name = r.name
        · simp only [List.flatMap_cons, found, if_pos hname, take, taken?, Expander.read?,
            Text.render_cons_hit, shown_held_zero]
          exact congrArg (slot n ++ ·) ih
        · simp only [List.flatMap_cons, found, if_neg hname, take, taken?, Expander.read?,
            Text.render_cons_hit, writeSlots_plain]
          exact congrArg (r.braced ++ ·) ih
      | held m value =>
        simp only [List.flatMap_cons, found, take, taken?, Text.render_cons_hit, writeSlots_plain]
        exact congrArg (slot m ++ ·) ih

/-- The values of the slots that are put in, in order. -/
theorem hits_found :
    (Text.hits (ps.flatMap (found w.name))).map (fun name => x.collections.mapOrSelf name captured) =
      (Text.hits ps).filterMap (taken? (x.read? w captured)) := by
  induction ps with
  | nil => rfl
  | cons p ps ih =>
    cases p with
    | plain c => exact ih
    | hit spot =>
      cases spot with
      | waiting r =>
        by_cases hname : w.name = r.name
        · simp [found, hname, taken?, Expander.read?, ← ih]
        · simp [found, hname, taken?, Expander.read?, ← ih, Text.hits_plain_append]
      | held m value => simp [found, taken?, ih, Text.hits_plain_append, List.filterMap_cons]

/-- The slots that are put in are counted. -/
theorem count_take : count (take read? n ps) =
    count ps + ((Text.hits ps).filterMap (taken? read?)).length := by
  induction ps generalizing n with
  | nil => rfl
  | cons p ps ih =>
    cases p with
    | plain c => exact ih
    | hit spot =>
      have hnext := @ih (n + 1)
      have hsame := @ih n
      simp only [count] at hnext hsame ⊢
      cases spot with
      | waiting r =>
        cases hread : read? r with
        | some value =>
          simp only [take, taken?, hread, Text.hits_cons_hit, List.filterMap_cons, held?,
            List.length_cons]
          omega
        | none =>
          simp only [take, taken?, hread, Text.hits_cons_hit, List.filterMap_cons, held?]
          omega
      | held m value =>
        simp only [take, taken?, Text.hits_cons_hit, List.filterMap_cons, held?, List.length_cons]
        omega

/-- A piece was there before or is a slot that is put in. -/
theorem mem_take {p : Piece Spot} (h : p ∈ take read? n ps) :
    p ∈ ps ∨ ∃ i value, ((Text.hits ps).filterMap (taken? read?))[i]? = some value ∧
      p = .hit (held (n + i) value) := by
  induction ps generalizing n with
  | nil => exact .inl h
  | cons q ps ih =>
    cases q with
    | plain c =>
      rcases List.mem_cons.1 h with rfl | h
      · exact .inl List.mem_cons_self
      · exact (ih h).imp_left (List.mem_cons_of_mem _)
    | hit spot =>
      rw [take] at h
      rw [Text.hits_cons_hit, List.filterMap_cons]
      cases htaken : taken? read? spot with
      | some new =>
        rw [htaken] at h
        rcases List.mem_cons.1 h with rfl | h
        · exact .inr ⟨0, new, rfl, rfl⟩
        · rcases ih h with h | ⟨i, value, hvalue, rfl⟩
          · exact .inl (List.mem_cons_of_mem _ h)
          · exact .inr ⟨i + 1, value, hvalue, by rw [Nat.add_right_comm, Nat.add_assoc]⟩
      | none =>
        rw [htaken] at h
        rcases List.mem_cons.1 h with rfl | h
        · exact .inl List.mem_cons_self
        · exact (ih h).imp_left (List.mem_cons_of_mem _)

/-- A reference that is left waiting was waiting before. -/
theorem waiting_of_mem_take {r : Reference} (h : .hit (waiting r) ∈ take read? n ps) :
    .hit (waiting r) ∈ ps := by
  rcases mem_take h with h | ⟨i, value, _, h⟩
  · exact h
  · exact absurd h (by simp)

/-- Slots with ordinary values keep what there is in form. -/
theorem fits_take (hfits : ∀ p ∈ ps, Fits p) (hread : ∀ r v, read? r = some v → Ordinary v) :
    ∀ p ∈ take read? n ps, Fits p := by
  intro p hp
  rcases mem_take hp with hp | ⟨i, value, hvalue, rfl⟩
  · exact hfits p hp
  · obtain ⟨spot, _, htaken⟩ := List.mem_filterMap.1 (List.mem_of_getElem? hvalue)
    cases spot with
    | waiting r => exact hread r value htaken
    | held m v => exact absurd htaken (by simp [taken?])

/-- A plain character at the end stays there. -/
theorem take_append_plain (c : Char) :
    take read? n (ps ++ [.plain c]) = take read? n ps ++ [.plain c] := by
  induction ps generalizing n with
  | nil => rfl
  | cons p ps ih =>
    cases p with
    | plain d => exact congrArg (_ :: ·) ih
    | hit spot =>
      rw [List.cons_append, take, take]
      split
      · exact congrArg (_ :: ·) ih
      · exact congrArg (_ :: ·) ih

end Spot

/-! ### Drafts -/

/-- A draft shows spots: its text is that of the spots, and it has the values of their slots. -/
structure Draft.Shows (d : Draft) (ps : List (Piece Spot)) : Prop where
  /-- the text -/
  text : d.text = Text.render (Spot.shown 0) ps
  /-- every slot has a value and every value a slot -/
  length : d.mapped.length = Spot.count ps
  /-- the value of a slot -/
  mapped : ∀ n value, .hit (.held n value) ∈ ps → d.mapped[n]? = some value

namespace Expander

open Spot

variable {x : Expander} {d : Draft} {ps : List (Piece Spot)} {w : Wildcard} {captured : Text}

/-- No placeholder is found at a spot. -/
theorem replaceAll_shown {word new : Text} (hfits : ∀ p ∈ ps, Fits p)
    (hword : ∀ r, .hit (waiting r) ∈ ps → ∀ rest,
      Text.startsWith ('\x7b' :: word) (r.braced ++ rest) = false) :
    Text.replaceAll ('\x7b' :: word) new (Text.render (shown 0) ps) = Text.render (shown 0) ps := by
  refine Text.render_of_render rfl (fun c hc rest => ?_) fun spot hspot rest => ?_
  · exact Text.replaceAll_cons new (Text.startsWith_cons_of_ne _ _
      (Ne.symm (ne_of_isOrdinary (by decide) (hfits _ hc))))
  · cases spot with
    | waiting r =>
      have hr : r.IsWritable := hfits _ hspot
      have hfront : Text.startsWith ('\x7b' :: word) ('\x7b' :: (r.braced.tail ++ rest)) = false :=
        hword r hspot rest
      have hbehind : '\x7b' ∉ r.braced.tail := by
        intro h
        rcases Reference.mem_tail_braced hr h with h | h | h <;> exact absurd h (by decide)
      change Text.replaceAll _ new ('\x7b' :: (r.braced.tail ++ rest)) = _
      rw [Text.replaceAll_cons new hfront, Text.replaceAll_lead new rest hbehind]
      rfl
    | held n value => exact Text.replaceAll_lead new rest (notMem_slot (by decide) (by decide))

/-- **One capture.** What a draft shows when a captured value is put in is what it showed before,
with slots in the place of the references that the wildcard is named in. -/
theorem shows_substitute (h : d.Shows ps) (hfits : ∀ p ∈ ps, Fits p)
    (htells : ∀ r, .hit (waiting r) ∈ ps → r.Tells w) :
    (x.substitute w captured d).Shows (take (x.read? w captured) (count ps) ps) := by
  have hwritable : ∀ r, .hit (waiting r) ∈ ps → r.IsWritable := fun r hr => hfits _ hr
  have hraw : Text.replaceAll (['\x7b', '!'] ++ w.name ++ ['\x7d']) captured d.text = d.text := by
    rw [h.text]
    exact replaceAll_shown hfits fun r hr rest =>
      (Reference.startsWith_placeholder_braced (hwritable r hr) (htells r hr) rest).1
  have hcleaned : Text.replaceAll (['\x7b'] ++ w.name ++ ['\x7d']) (x.inject w captured) d.text =
      d.text := by
    rw [h.text]
    exact replaceAll_shown hfits fun r hr rest =>
      (Reference.startsWith_placeholder_braced (hwritable r hr) (htells r hr) rest).2
  have hpieces : Text.pieces (mappingForm w.name) d.text = ps.flatMap (found w.name) := by
    rw [h.text, pieces_shown hfits htells]
  have hsubstitute : x.substitute w captured d =
      ⟨Text.render (shown 0) (take (x.read? w captured) (count ps) ps),
        d.mapped ++ (Text.hits ps).filterMap (taken? (x.read? w captured))⟩ := by
    rw [substitute, hraw, hcleaned, hpieces, h.length, writeSlots_found, hits_found]
  rw [hsubstitute]
  refine ⟨rfl, ?_, fun n value hmem => ?_⟩
  · rw [List.length_append, h.length, count_take]
  · rcases mem_take hmem with hmem | ⟨i, new, hnew, heq⟩
    · have hold := h.mapped n value hmem
      rw [List.getElem?_append_left (List.getElem?_eq_some_iff.1 hold).1, hold]
    · obtain ⟨rfl, rfl⟩ : n = count ps + i ∧ value = new := by simpa using heq
      rw [← h.length, List.getElem?_append_right (Nat.le_add_right _ _), Nat.add_sub_cancel_left]
      exact hnew

/-- The spots of a destination when all captured values are put in, one wildcard after the other. -/
def slotted (x : Expander) (captures : List (Wildcard × Text)) (ps : List (Piece Spot)) :
    List (Piece Spot) :=
  captures.foldl (fun ps (w, captured) => take (x.read? w captured) (count ps) ps) ps

/-- The text that a reference stands for: the mapped value of the first capture of its name. -/
def mapped (x : Expander) (captures : List (Wildcard × Text)) (r : Reference) : Text :=
  match captures.find? fun (w, _) => w.name = r.name with
  | some (_, captured) => x.collections.mapOrSelf r.collection captured
  | none => r.braced

variable {captures : List (Wildcard × Text)}

/-- **All captures.** What a draft shows when all captured values are put in. -/
theorem shows_substituteAll (h : d.Shows ps) (hfits : ∀ p ∈ ps, Fits p)
    (htells : ∀ c ∈ captures, ∀ r, .hit (waiting r) ∈ ps → r.Tells c.1)
    (hvalues : ∀ c ∈ captures, Ordinary c.2)
    (hcollections : ∀ name key v, x.collections.lookup name key = some v → Ordinary v) :
    (x.substituteAll captures d).Shows (x.slotted captures ps) ∧
      ∀ p ∈ x.slotted captures ps, Fits p := by
  induction captures generalizing d ps with
  | nil => exact ⟨h, hfits⟩
  | cons capture captures ih =>
    have hread : ∀ r v, x.read? capture.1 capture.2 r = some v → Ordinary v := by
      intro r v hv
      obtain ⟨_, hv⟩ := Option.ite_none_right_eq_some.1 hv
      obtain rfl := Option.some.inj hv
      rw [Collections.mapOrSelf]
      cases hlookup : x.collections.lookup r.collection capture.2 with
      | some v => exact hcollections _ _ v hlookup
      | none => exact hvalues capture List.mem_cons_self
    exact ih (shows_substitute h hfits (htells capture List.mem_cons_self))
      (fits_take hfits hread)
      (fun c hc r hr => htells c (List.mem_cons_of_mem _ hc) r (waiting_of_mem_take hr))
      fun c hc => hvalues c (List.mem_cons_of_mem _ hc)

/-- What a spot stands for when captured values are still to be put in. -/
def meant (x : Expander) (captures : List (Wildcard × Text)) : Spot → Text
  | waiting r => x.mapped captures r
  | held _ value => value

/-- Putting slots in does not change what the spots stand for. -/
theorem render_meant_take (n : Nat) :
    Text.render (x.meant captures) (take (x.read? w captured) n ps) =
      Text.render (x.meant ((w, captured) :: captures)) ps := by
  induction ps generalizing n with
  | nil => rfl
  | cons p ps ih =>
    cases p with
    | plain c => exact congrArg (c :: ·) (ih n)
    | hit spot =>
      cases spot with
      | waiting r =>
        by_cases hname : w.name = r.name
        · simp [take, taken?, read?, meant, mapped, hname, ih]
        · simp [take, taken?, read?, meant, mapped, hname, ih]
      | held m value => simp [take, taken?, meant, ih]

/-- The values of all slots are what the references stand for. -/
theorem render_value_slotted :
    Text.render value (x.slotted captures ps) = Text.render (x.meant captures) ps := by
  induction captures generalizing ps with
  | nil =>
    have hmeant : x.meant [] = value := by
      funext spot
      cases spot <;> rfl
    rw [hmeant]
    rfl
  | cons capture captures ih => exact ih.trans (render_meant_take _)

/-- A plain character at the end stays there. -/
theorem slotted_append_plain (c : Char) :
    x.slotted captures (ps ++ [.plain c]) = x.slotted captures ps ++ [.plain c] := by
  induction captures generalizing ps with
  | nil => rfl
  | cons capture captures ih =>
    have hcount : count (ps ++ [.plain c]) = count ps := by
      simp [count, Text.hits]
    change x.slotted captures (take _ (count (ps ++ [.plain c])) (ps ++ [.plain c])) = _
    rw [hcount, take_append_plain, ih]
    rfl

end Expander

/-! ### Filling the slots -/

namespace Spot

variable {ps : List (Piece Spot)} {k : Nat}

/-- No slot is read where one slot ends and another begins: when slot `k` is filled, and an open slot
with a later number has the next open slot behind it, then what is between them is not `k`. -/
def Parted (ps : List (Piece Spot)) : Prop :=
  ∀ k a u mid b v, .hit (held a u) :: (mid ++ [.hit (held b v)]) <:+: ps → k < a → k ≤ b →
    (∀ n w, .hit (held n w) ∈ mid → n < k) → Text.render value mid ≠ writeNat k

/-- The spots behind parted ones are parted. -/
theorem Parted.tail {p : Piece Spot} (h : Parted (p :: ps)) : Parted ps :=
  fun k a u mid b v hwithin => h k a u mid b v (hwithin.trans (List.suffix_cons p ps).isInfix)

/-- The digits of a number are not the sign of a slot. -/
theorem sign_notMem_writeNat (n : Nat) : '\x01' ∉ writeNat n :=
  fun h => absurd (Nat.isDigit_of_mem_toDigits (by decide) (by decide) h) (by decide)

/-- No digit, outside of references. -/
def isDigitless : Piece Spot → Bool
  | .plain c => !c.isDigit
  | .hit (waiting _) => true
  | .hit (held _ value) => value.all fun c => !c.isDigit

/-- Spots without digits are parted, as there is no number between two of them. -/
theorem parted_of_isDigitless (h : ∀ p ∈ ps, isDigitless p) : Parted ps := by
  intro k a u mid b v hwithin _ _ _ hnumber
  have hne : writeNat k ≠ [] := Nat.toDigits_ne_nil
  obtain ⟨c, digits, hdigits⟩ := List.exists_cons_of_ne_nil hne
  have hdigit : ∀ d ∈ Text.render value mid, d.isDigit := by
    rw [hnumber]
    exact fun d hd => Nat.isDigit_of_mem_toDigits (by decide) (by decide) hd
  have hc : c ∈ Text.render value mid := by
    rw [hnumber, hdigits]
    exact List.mem_cons_self
  obtain ⟨p, hp, hcp⟩ := List.mem_flatMap.1 hc
  have hless := h p (hwithin.subset (by simp [hp]))
  cases p with
  | plain d =>
    obtain rfl := List.mem_singleton.1 hcp
    rw [isDigitless, hdigit c hc] at hless
    exact absurd hless (by decide)
  | hit spot =>
    cases spot with
    | waiting r =>
      -- its brace would be a digit
      have hbrace := hdigit '\x7b' (List.mem_flatMap.2 ⟨_, hp, List.mem_cons_self⟩)
      exact absurd hbrace (by decide)
    | held n w =>
      have := List.all_eq_true.1 hless c hcp
      rw [hdigit c hc] at this
      exact absurd this (by decide)

/-- The sign of a slot is not in what has been filled in. -/
theorem sign_notMem_of_ordinary {s : Text} (h : Ordinary s) : '\x01' ∉ s :=
  fun hmem => absurd (h _ hmem) (by decide)

/-- What stands before a sign goes over a leading part without it. -/
theorem exists_append_of_prefix {a : Char} {front lead rest : Text} (hlead : a ∉ lead)
    (h : front ++ [a] <+: lead ++ rest) : ∃ more, front = lead ++ more ∧ more ++ [a] <+: rest := by
  induction lead generalizing front with
  | nil => exact ⟨front, rfl, h⟩
  | cons c lead ih =>
    cases front with
    | nil =>
      obtain ⟨rfl, _⟩ := List.cons_prefix_cons.1 h
      exact absurd List.mem_cons_self hlead
    | cons d front =>
      obtain ⟨rfl, hprefix⟩ := List.cons_prefix_cons.1 h
      obtain ⟨more, rfl, hmore⟩ := ih (fun hmem => hlead (List.mem_cons_of_mem d hmem)) hprefix
      exact ⟨more, rfl, hmore⟩

/-- What stands before a sign of a slot reaches to the next open slot. -/
theorem exists_held_of_prefix {front : Text} (hfits : ∀ p ∈ ps, Fits p) (hfront : '\x01' ∉ front)
    (h : front ++ ['\x01'] <+: Text.render (shown k) ps) :
    ∃ mid b v, mid ++ [.hit (held b v)] <+: ps ∧ k ≤ b ∧
      (∀ n w, .hit (held n w) ∈ mid → n < k) ∧ Text.render value mid = front := by
  induction ps generalizing front with
  | nil => exact absurd h.length_le (by simp [Text.render])
  | cons p ps ih =>
    have hrest : ∀ q ∈ ps, Fits q := fun q hq => hfits q (List.mem_cons_of_mem p hq)
    -- a piece in which the sign does not occur is gone over
    have hover : ∀ lead : Text, '\x01' ∉ lead → Text.render (shown k) (p :: ps) =
        lead ++ Text.render (shown k) ps → (∀ qs, Text.render value (p :: qs) =
          lead ++ Text.render value qs) → (∀ n w, p = .hit (held n w) → n < k) →
        ∃ mid b v, mid ++ [.hit (held b v)] <+: p :: ps ∧ k ≤ b ∧
          (∀ n w, .hit (held n w) ∈ mid → n < k) ∧ Text.render value mid = front := by
      intro lead hlead htext hvalue hslot
      rw [htext] at h
      obtain ⟨more, rfl, hmore⟩ := exists_append_of_prefix hlead h
      obtain ⟨mid, b, v, hmid, hb, hbelow, rfl⟩ :=
        ih hrest (fun hmem => hfront (List.mem_append_right _ hmem)) hmore
      refine ⟨p :: mid, b, v, List.cons_prefix_cons.2 ⟨rfl, hmid⟩, hb, fun n w hn => ?_, hvalue mid⟩
      rcases List.mem_cons.1 hn with hn | hn
      · exact hslot n w hn.symm
      · exact hbelow n w hn
    cases p with
    | plain c =>
      have hc : isOrdinary c := hfits _ List.mem_cons_self
      refine hover [c] ?_ rfl (fun _ => rfl) (by simp)
      rw [List.mem_singleton]
      exact (ne_of_isOrdinary (by decide) hc).symm
    | hit spot =>
      cases spot with
      | waiting r =>
        have hr : r.IsWritable := hfits _ List.mem_cons_self
        exact hover r.braced (Reference.notMem_braced hr (by decide) (by decide)) rfl
          (fun _ => rfl) (by simp)
      | held n v =>
        have hv : Ordinary v := hfits _ List.mem_cons_self
        by_cases hn : n < k
        · refine hover v (sign_notMem_of_ordinary hv) ?_ (fun _ => rfl) (by simpa using hn)
          rw [Text.render_cons_hit, shown, if_pos hn]
        · rw [Text.render_cons_hit, shown, if_neg hn] at h
          cases front with
          | nil => exact ⟨[], n, v, ⟨ps, rfl⟩, Nat.le_of_not_lt hn, by simp, rfl⟩
          | cons c front =>
            obtain ⟨rfl, _⟩ := List.cons_prefix_cons.1 h
            exact absurd List.mem_cons_self hfront

/-- A slot is written with its sign at both ends. -/
theorem slot_append (n : Nat) (rest : Text) :
    slot n ++ rest = '\x01' :: (writeNat n ++ '\x01' :: rest) := by
  simp [slot]

/-- Two slots that begin with the same sign have the same number. -/
theorem startsWith_slot_of_ne {n : Nat} (h : k ≠ n) (rest : Text) :
    Text.startsWith (slot k) (slot n ++ rest) = false := by
  rw [Bool.eq_false_iff, ne_eq, Text.startsWith_iff]
  intro hprefix
  rw [slot_append] at hprefix
  have hdigits : writeNat k ++ ['\x01'] <+: writeNat n ++ '\x01' :: rest :=
    (List.cons_prefix_cons.1 (show '\x01' :: (writeNat k ++ ['\x01']) <+: _ from hprefix)).2
  obtain ⟨more, hmore, hsign⟩ := exists_append_of_prefix (sign_notMem_writeNat n) hdigits
  cases more with
  | nil =>
    rw [List.append_nil] at hmore
    have hnumber := congrArg (fun ds => Nat.ofDigitChars 10 ds 0) hmore
    simp only [writeNat, Nat.ofDigitChars_ten_toDigits] at hnumber
    exact h hnumber
  | cons c more =>
    obtain ⟨rfl, _⟩ := List.cons_prefix_cons.1 hsign
    exact sign_notMem_writeNat k (by rw [hmore]; simp)

/-- **One slot.** Where nothing else is read as slot `k`, filling it leaves the later slots. -/
theorem replaceAll_slot {new : Text} (hfits : ∀ p ∈ ps, Fits p) (hparted : Parted ps)
    (hnew : ∀ u, .hit (held k u) ∈ ps → u = new) :
    Text.replaceAll (slot k) new (Text.render (shown k) ps) = Text.render (shown (k + 1)) ps := by
  induction ps with
  | nil => rfl
  | cons p ps ih =>
    have hrest : ∀ q ∈ ps, Fits q := fun q hq => hfits q (List.mem_cons_of_mem p hq)
    have ih := ih hrest hparted.tail fun u hu => hnew u (List.mem_cons_of_mem p hu)
    -- a piece in which the sign does not occur is kept
    have hkept : ∀ lead : Text, '\x01' ∉ lead →
        Text.replaceAll (slot k) new (lead ++ Text.render (shown k) ps) =
          lead ++ Text.render (shown (k + 1)) ps := by
      intro lead hlead
      rw [← ih]
      exact Text.replaceAll_lead new _ hlead
    cases p with
    | plain c =>
      have hc : isOrdinary c := hfits _ List.mem_cons_self
      refine hkept [c] ?_
      rw [List.mem_singleton]
      exact (ne_of_isOrdinary (by decide) hc).symm
    | hit spot =>
      rw [Text.render_cons_hit, Text.render_cons_hit]
      cases spot with
      | waiting r =>
        have hr : r.IsWritable := hfits _ List.mem_cons_self
        exact hkept r.braced (Reference.notMem_braced hr (by decide) (by decide))
      | held n v =>
        have hv : Ordinary v := hfits _ List.mem_cons_self
        simp only [shown]
        rcases Nat.lt_trichotomy n k with hlt | rfl | hgt
        · -- filled before
          rw [if_pos hlt, if_pos (by omega)]
          exact hkept v (sign_notMem_of_ordinary hv)
        · -- filled now
          rw [if_neg (Nat.lt_irrefl n), if_pos (Nat.lt_succ_self n), hnew v List.mem_cons_self,
            Text.replaceAll_append new _ (by simp [slot]), ih]
        · -- still open: it is no other slot, and none begins at its end
          rw [if_neg (by omega), if_neg (by omega)]
          have hopen := startsWith_slot_of_ne (Nat.ne_of_lt hgt) (Text.render (shown k) ps)
          have hend : Text.startsWith (slot k) ('\x01' :: Text.render (shown k) ps) = false := by
            rw [Bool.eq_false_iff, ne_eq, Text.startsWith_iff]
            intro hprefix
            obtain ⟨mid, b, u, hmid, hb, hbelow, hvalue⟩ :=
              exists_held_of_prefix hrest (sign_notMem_writeNat k) (List.cons_prefix_cons.1
                (show '\x01' :: (writeNat k ++ ['\x01']) <+: _ from hprefix)).2
            exact hparted k n v mid b u (List.cons_prefix_cons.2 ⟨rfl, hmid⟩).isInfix hgt hb hbelow
              hvalue
          have hdigits : Text.replaceAll (slot k) new
              (writeNat n ++ '\x01' :: Text.render (shown k) ps) =
                writeNat n ++ Text.replaceAll (slot k) new ('\x01' :: Text.render (shown k) ps) :=
            Text.replaceAll_lead new _ (sign_notMem_writeNat n)
          rw [slot_append] at hopen
          rw [slot_append, slot_append, Text.replaceAll_cons new hopen, ← ih,
            ← Text.replaceAll_cons new hend]
          exact congrArg ('\x01' :: ·) hdigits

/-- All slots from a number on are filled with their own values. -/
theorem fillSlots_shown {values : List Text} (hfits : ∀ p ∈ ps, Fits p) (hparted : Parted ps)
    (hvalues : ∀ n v, .hit (held n v) ∈ ps → k ≤ n → values[n - k]? = some v) :
    fillSlots k values (Text.render (shown k) ps) = Text.render value ps := by
  induction values generalizing k with
  | nil =>
    -- no slot has a number that is not below
    refine Text.render_of_render (f := id) rfl (fun _ _ _ => rfl) fun spot hspot rest => ?_
    cases spot with
    | waiting r => rfl
    | held n v =>
      have hn : n < k := by
        by_contra hn
        exact absurd (hvalues n v hspot (Nat.le_of_not_lt hn)) (by simp)
      simp [shown, hn, value]
  | cons new values ih =>
    have hnew : ∀ u, .hit (held k u) ∈ ps → u = new := by
      intro u hu
      have := hvalues k u hu (Nat.le_refl k)
      rw [Nat.sub_self] at this
      exact (Option.some.inj this).symm
    rw [fillSlots, replaceAll_slot hfits hparted hnew]
    refine ih fun n v hn hle => ?_
    have := hvalues n v hn (by omega)
    rwa [show n - k = (n - (k + 1)) + 1 by omega, List.getElem?_cons_succ] at this

end Spot

end Detour
