import Detour.Proofs.Anchoring
import Detour.Proofs.Capture
import Detour.Proofs.Groups
import Mathlib.Algebra.Order.BigOperators.Group.List
import Mathlib.Algebra.Order.Ring.Nat

/-!
# Which value is that of which wildcard

The values of a match are those of all groups of the expression, in the order in which the groups open.
A wildcard is one group, and what stands between the wildcards is read as it is written, so that it
may open groups of its own.

* `Wildcard.stretches` takes a source apart into its wildcards and its own texts between them.
* `Wildcard.IsWhole`: a text is well formed by itself, and repeats nothing zero times.
* `Pattern.scan_anchored_eq`: a source whose own texts are whole is read part by part.
* `Pattern.captures_aligned`: the value of a wildcard stands behind those of the groups that open
  before it, so that values and wildcards are aligned exactly if the texts between the wildcards
  open no groups; `Pattern.captures_misaligned` is a source with a group of its own.
-/

namespace Detour

namespace Wildcard

/-! ### The texts between the wildcards -/

/-- The text before the first wildcard, and every wildcard with the text behind it. -/
def stretches : List (Piece Wildcard) → Text × List (Wildcard × Text)
  | [] => ([], [])
  | .plain c :: ps => (c :: (stretches ps).1, (stretches ps).2)
  | .hit w :: ps => ([], (w, (stretches ps).1) :: (stretches ps).2)

/-- The wildcards of a source are those of its stretches. -/
theorem hits_eq_stretches (ps : List (Piece Wildcard)) :
    Text.hits ps = (stretches ps).2.map Prod.fst := by
  fun_induction stretches ps <;> simp_all [Text.hits]

/-- A source is written stretch by stretch. -/
theorem render_eq_stretches (ps : List (Piece Wildcard)) : Text.render group ps =
    (stretches ps).1 ++ (stretches ps).2.flatMap fun p => group p.1 ++ p.2 := by
  fun_induction stretches ps <;> simp_all [Text.render]

/-- What a text between wildcards is read as. -/
def ownTokens (t : Text) : List Token := Token.scan (escapeBraces t)

/-- How many groups a text between wildcards opens that capture. -/
def ownGroups (t : Text) : Nat := (ownTokens t).count (.opening true)

/-- A text between wildcards is well formed by itself and repeats nothing zero times. -/
structure IsWhole (t : Text) : Prop where
  /-- it does not end in a backslash that escapes what stands behind -/
  closed : .plain '\\' ∉ Text.pieces braceForm t
  /-- all its constructs are well formed -/
  formed : .bad ∉ ownTokens t
  /-- its repetitions allow a round -/
  rounds : ∀ u ∈ ownTokens t, u.allowsRound

instance (t : Text) : Decidable (IsWhole t) :=
  decidable_of_iff (.plain '\\' ∉ Text.pieces braceForm t ∧ .bad ∉ ownTokens t ∧
      ∀ u ∈ ownTokens t, u.allowsRound)
    ⟨fun ⟨hclosed, hformed, hrounds⟩ => ⟨hclosed, hformed, hrounds⟩,
      fun h => ⟨h.closed, h.formed, h.rounds⟩⟩

/-! ### Escaping braces text by text -/

/-- The leading characters of a class are the same in front of a character that is not of the class,
and so is what stands behind them. -/
theorem takeWhile_append_cons {p : Char → Bool} {c : Char} (hc : p c = false) (s rest : Text) :
    (s ++ c :: rest).takeWhile p = s.takeWhile p ∧
      (s ++ c :: rest).drop (s.takeWhile p).length = s.drop (s.takeWhile p).length ++ c :: rest := by
  refine ⟨?_, List.drop_append_of_le_length (List.takeWhile_prefix _).length_le⟩
  induction s with
  | nil => simp [hc]
  | cons d s ih => rw [List.cons_append, List.takeWhile_cons, List.takeWhile_cons, ih]

/-- A count of rounds does not go beyond a round bracket. -/
theorem countLength?_append (s rest : Text) : countLength? (s ++ '(' :: rest) = countLength? s := by
  have hdigit : '('.isDigit = false := rfl
  obtain ⟨hlow, hbehind⟩ := takeWhile_append_cons hdigit s rest
  simp only [countLength?, hlow, hbehind]
  cases s.drop (s.takeWhile Char.isDigit).length with
  | nil => rfl
  | cons c tail =>
    by_cases hcomma : c = ','
    · subst hcomma
      obtain ⟨hhigh, hbehind⟩ := takeWhile_append_cons hdigit tail rest
      simp only [List.cons_append, hhigh, hbehind]
      cases tail.drop (tail.takeWhile Char.isDigit).length <;> rfl
    · by_cases hbrace : c = '\x7d'
      · subst hbrace
        rfl
      · simp [hcomma, hbrace]

/-- A count of rounds lies within its text. -/
theorem countLength?_le {s : Text} {n : Nat} (h : countLength? s = some n) : n ≤ s.length := by
  have hlow := congrArg List.length
    (List.take_append_drop (s.takeWhile Char.isDigit).length s).symm
  rw [List.length_append, List.length_take_of_le (List.takeWhile_prefix _).length_le] at hlow
  simp only [countLength?] at h
  split at h
  · cases h
  · split at h
    · rename_i hdrop
      rw [hdrop, List.length_cons] at hlow
      have := Option.some.inj h
      omega
    · rename_i tail hdrop
      split at h
      · rename_i hclose
        have htail := congrArg List.length
          (List.take_append_drop (tail.takeWhile Char.isDigit).length tail).symm
        rw [List.length_append, List.length_take_of_le (List.takeWhile_prefix _).length_le] at htail
        have hbrace : 0 < (tail.drop (tail.takeWhile Char.isDigit).length).length := by
          refine List.length_pos_of_ne_nil fun hnil => ?_
          rw [hnil] at hclose
          cases hclose
        rw [hdrop, List.length_cons] at hlow
        have := Option.some.inj h
        omega
      · cases h
    · cases h

/-- A text that ends in no open escape has its braces escaped by itself in front of a round bracket. -/
theorem escapeBraces_append {t : Text} (h : .plain '\\' ∉ Text.pieces braceForm t) (rest : Text) :
    escapeBraces (t ++ '(' :: rest) = escapeBraces t ++ escapeBraces ('(' :: rest) := by
  induction hlen : t.length using Nat.strongRecOn generalizing t with
  | _ len ih =>
    subst hlen
    -- a construct that is the same in front of the bracket
    have whole {lead tail meaning : Text} (hne : lead ≠ []) (ht : t = lead ++ tail)
        (hform : ∀ tail', tail' = tail ∨ tail' = tail ++ '(' :: rest →
          braceForm (lead ++ tail') = some (meaning, lead.length)) :
        escapeBraces (t ++ '(' :: rest) = escapeBraces t ++ escapeBraces ('(' :: rest) := by
      have hself := hform tail (.inl rfl)
      have hmore := hform (tail ++ '(' :: rest) (.inr rfl)
      subst ht
      rw [Text.pieces_append hne hself] at h
      have hshort : tail.length < (lead ++ tail).length := by
        have := List.length_pos_of_ne_nil hne
        rw [List.length_append]
        omega
      have htail := ih _ hshort (fun hmem => h (List.mem_cons_of_mem _ hmem)) rfl
      rw [escapeBraces, escapeBraces, List.append_assoc, Text.rewrite_append id hne hmore,
        Text.rewrite_append id hne hself, List.append_assoc]
      exact congrArg (meaning ++ ·) htail
    match t with
    | [] => rfl
    | c :: s =>
      by_cases hescape : c = '\\'
      · subst hescape
        cases s with
        | nil => exact absurd (by decide) h
        | cons d s => exact @whole ['\\', d] s _ (by simp) rfl fun _ _ => rfl
      by_cases hopen : c = '\x7b'
      · subst hopen
        rcases hcount : countLength? s with _ | n
        · refine @whole ['\x7b'] s ['\\', '\x7b'] (by simp) rfl ?_
          rintro _ (rfl | rfl)
          · simp [braceForm, hcount]
          · simp [braceForm, countLength?_append, hcount]
        · have hle := countLength?_le hcount
          refine @whole ('\x7b' :: s.take n) (s.drop n) ('\x7b' :: s.take n) (by simp)
            (by rw [List.cons_append, List.take_append_drop]) ?_
          rintro _ (rfl | rfl)
          · simp [braceForm, hcount, hle]
          · rw [List.cons_append, ← List.append_assoc, List.take_append_drop]
            simp [braceForm, countLength?_append, hcount, hle, List.take_append_of_le_length]
      by_cases hclose : c = '\x7d'
      · subst hclose
        exact @whole ['\x7d'] s _ (by simp) rfl fun _ _ => rfl
      · have hplain : ∀ tail, braceForm (c :: tail) = none := by
          intro tail
          unfold braceForm
          split <;> simp_all
        rw [Text.pieces_cons (hplain s)] at h
        have htail := ih s.length (by simp) (fun hmem => h (List.mem_cons_of_mem _ hmem)) rfl
        rw [escapeBraces, escapeBraces, List.cons_append, Text.rewrite_cons id (hplain _),
          Text.rewrite_cons id (hplain _)]
        exact congrArg (c :: ·) htail

/-- The group of a wildcard has no braces to escape. -/
theorem escapeBraces_group (w : Wildcard) (rest : Text) :
    escapeBraces (group w ++ rest) = group w ++ escapeBraces rest := by
  obtain ⟨name, kind, raw⟩ := w
  cases kind <;> rfl

/-- Stretches without open escapes have their braces escaped one by one. -/
theorem escapeBraces_stretches {lead : Text} {ps : List (Wildcard × Text)}
    (hwhole : ∀ t ∈ lead :: ps.map Prod.snd, IsWhole t) :
    escapeBraces (lead ++ ps.flatMap fun p => group p.1 ++ p.2) =
      escapeBraces lead ++ ps.flatMap fun p => group p.1 ++ escapeBraces p.2 := by
  induction ps generalizing lead with
  | nil => simp
  | cons p ps ih =>
    have hlead := (hwhole lead List.mem_cons_self).closed
    have hrest := ih fun t ht => hwhole t (List.mem_cons_of_mem _ ht)
    have hgroup : group p.1 = '(' :: (p.1.kind.fragment ++ [')']) := rfl
    rw [List.flatMap_cons, List.flatMap_cons, List.append_assoc, List.append_assoc, ← hrest,
      ← escapeBraces_group, hgroup, List.cons_append, escapeBraces_append hlead]

/-! ### Reading text by text -/

/-- The tokens of some stretches. -/
def woven (lead : Text) (ps : List (Wildcard × Text)) : List Token :=
  ownTokens lead ++ ps.flatMap fun p =>
    .opening true :: (Token.scan p.1.kind.fragment ++ .closing :: ownTokens p.2)

/-- Stretches behind others are read behind them. -/
theorem woven_append (lead : Text) (xs : List (Wildcard × Text)) (p : Wildcard × Text)
    (ys : List (Wildcard × Text)) : woven lead (xs ++ p :: ys) = woven lead xs ++
      .opening true :: (Token.scan p.1.kind.fragment ++ .closing :: woven p.2 ys) := by
  simp [woven]

/-- Stretches that are whole are read one by one, up to the closing anchor. -/
theorem scan_stretches {lead : Text} {ps : List (Wildcard × Text)}
    (hwhole : ∀ t ∈ lead :: ps.map Prod.snd, IsWhole t) :
    Token.scan ((escapeBraces lead ++ ps.flatMap fun p => group p.1 ++ escapeBraces p.2) ++
      [')', '$']) = woven lead ps ++ [.closing, .edge .stop] := by
  induction ps generalizing lead with
  | nil =>
    have hlead := (hwhole lead List.mem_cons_self).formed
    simp only [List.flatMap_nil, List.append_nil, woven]
    exact Token.scan_append_of_formed hlead (by simp)
  | cons p ps ih =>
    have hlead := (hwhole lead List.mem_cons_self).formed
    have hrest := ih fun t ht => hwhole t (List.mem_cons_of_mem _ ht)
    have hgroup : ∀ rest, group p.1 ++ rest = '(' :: (p.1.kind.fragment ++ ')' :: rest) := by
      simp [group]
    rw [List.flatMap_cons, List.append_assoc, List.append_assoc, List.append_assoc, hgroup,
      Token.scan_append_of_formed hlead (by simp), Kind.scan_group, ← List.append_assoc, hrest]
    simp [woven, ownTokens]

/-- Stretches open one group for each wildcard and those of the texts between them. -/
theorem count_woven (lead : Text) (ps : List (Wildcard × Text)) :
    (woven lead ps).count (.opening true) =
      ps.length + ((lead :: ps.map Prod.snd).map ownGroups).sum := by
  have hfragment : ∀ k : Kind, (Token.scan k.fragment).count (.opening true) = 0 := by
    intro k
    cases k <;> decide +kernel
  induction ps generalizing lead with
  | nil => simp [woven, ownGroups]
  | cons p ps ih =>
    have hsum : ((lead :: (p :: ps).map Prod.snd).map ownGroups).sum =
        (woven lead []).count (.opening true) + ((p.2 :: ps.map Prod.snd).map ownGroups).sum := by
      simp [woven, ownGroups]
    rw [← List.nil_append (p :: ps), woven_append, List.count_append, List.count_cons_self,
      List.count_append, hfragment, List.count_cons_of_ne (by simp), ih, List.nil_append, hsum]
    rw [List.length_cons]
    omega

end Wildcard

/-! ### What a match gives for a wildcard -/

namespace Match

/-- What the group with a number gives in a match of an expression: the group is that of a kind, and
the value is the part of the path that it ran over last, or empty if it took no part. -/
structure Gives (e : Expr) (path : Text) (m : Match) (n : Nat) (k : Kind) (v : Text) : Prop where
  /-- the only group with that number is that of the kind -/
  group : ∀ a, (n, a) ∈ e.capturing ↔ a = k.expr
  /-- the value is what was noted for it -/
  value : m.notes.lookup n = none ∧ v = [] ∨
    ∃ i j, m.notes.lookup n = some (i, j) ∧ j ≤ path.length ∧ v = Expr.slice path i j ∧ k.Takes v

/-- In a match, a group that is a kind's gives what is noted for it. -/
theorem gives_noted {e : Expr} {path : Text} {m : Match} {n : Nat} {k : Kind}
    (hm : e.match? path = some m) (hnumbers : (e.capturing.map Prod.fst).Nodup)
    (hgroup : (n, k.expr) ∈ e.capturing) : m.Gives e path n k (Expr.noted path m.notes n) := by
  have honly : ∀ a, (n, a) ∈ e.capturing ↔ a = k.expr := by
    refine fun a => ⟨fun ha => ?_, fun ha => ha ▸ hgroup⟩
    exact congrArg Prod.snd (List.inj_on_of_nodup_map hnumbers ha hgroup rfl)
  refine ⟨honly, ?_⟩
  obtain ⟨hstop, hrun⟩ := Expr.runs_of_match? hm
  rcases hlookup : m.notes.lookup n with _ | ⟨i, j⟩
  · exact .inl ⟨rfl, by rw [Expr.noted, hlookup]⟩
  · have hnote : (n, i, j) ∈ m.notes := by
      obtain ⟨later, earlier, hnotes, -⟩ := List.lookup_eq_some_iff.1 hlookup
      simp [hnotes]
    obtain ⟨a, ms, ha, hpart, hj⟩ := Expr.exists_of_mem_notes hrun hnote
    obtain rfl := (honly a).1 ha
    have hi : i ≤ path.length := (hpart.le.trans hj).trans hstop
    obtain ⟨-, v, rest, hv, hdrop, rfl⟩ := (k.reads_expr hi).1 hpart
    have hvalue : Expr.noted path m.notes n = Expr.slice path i (i + v.length) := by
      rw [Expr.noted, hlookup]
    refine .inr ⟨i, _, rfl, hj.trans hstop, hvalue, ?_⟩
    rwa [hvalue, Item.slice_of_drop_eq_append hdrop]

end Match

namespace Pattern

open Wildcard

/-- The text of a source before its first wildcard, and every wildcard with the text behind it. -/
def stretches (p : Pattern) : Text × List (Wildcard × Text) :=
  Wildcard.stretches (Text.pieces Wildcard.form p.expanded)

/-- The texts of a source between its wildcards. -/
def ownTexts (p : Pattern) : List Text := p.stretches.1 :: p.stretches.2.map Prod.snd

/-- How many groups the texts before a wildcard open that capture. -/
def groupsBefore (p : Pattern) (i : Nat) : Nat := ((p.ownTexts.take (i + 1)).map ownGroups).sum

variable {source : Text}

/-- The wildcards of a source are those of its stretches. -/
theorem wildcards_eq_stretches :
    (compile source).wildcards = (compile source).stretches.2.map Prod.fst := by
  rw [stretches, ← hits_eq_stretches]
  simp only [compile, ofExpanded]

/-- A source whose own texts are whole is read stretch by stretch. -/
theorem scan_anchored_eq (hown : ∀ t ∈ (compile source).ownTexts, IsWhole t) :
    Token.scan (compile source).anchored = (.edge .start :: .opening false ::
      woven (compile source).stretches.1 (compile source).stretches.2) ++ [.closing, .edge .stop] := by
  have hexpression : (compile source).expression = escapeBraces ((compile source).stretches.1 ++
      (compile source).stretches.2.flatMap fun p => group p.1 ++ p.2) := by
    rw [stretches, ← render_eq_stretches]
    simp only [compile, ofExpanded]
  rw [scan_anchored, hexpression, escapeBraces_stretches hown, scan_stretches hown]
  rfl

variable {e : Expr}

/-- The groups of an accepted source whose own texts are whole are numbered in a row, one for each
wildcard and those of the texts between them. -/
theorem numbers_of_expr? [Limits] (he : (compile source).expr? = .ok e)
    (hown : ∀ t ∈ (compile source).ownTexts, IsWhole t) :
    (e.capturing.map Prod.fst).Perm (List.range' 1 ((compile source).wildcards.length +
      ((compile source).ownTexts.map ownGroups).sum)) := by
  have hnumbers := Expr.numbers_of_ofTokens? (ofTokens?_of_expr? he)
  have hcount : (Token.scan (compile source).anchored).count (.opening true) =
      (compile source).wildcards.length + ((compile source).ownTexts.map ownGroups).sum := by
    rw [scan_anchored_eq hown, wildcards_eq_stretches, List.length_map, ownTexts, ← count_woven]
    simp
  rwa [hcount] at hnumbers

/-- An accepted source whose own texts are whole has as many groups as that. -/
theorem groups_of_expr? [Limits] (he : (compile source).expr? = .ok e)
    (hown : ∀ t ∈ (compile source).ownTexts, IsWhole t) :
    e.groups = (compile source).wildcards.length +
      ((compile source).ownTexts.map ownGroups).sum := by
  have hfragment : ∀ k : Kind, ∀ u ∈ Token.scan k.fragment, u.allowsRound := by
    intro k
    cases k <;> decide +kernel
  have htokens : ∀ u ∈ Token.scan (compile source).anchored, u.allowsRound := by
    have hwoven : ∀ u ∈ woven (compile source).stretches.1 (compile source).stretches.2,
        u.allowsRound := by
      intro u hu
      rcases List.mem_append.1 hu with hu | hu
      · exact (hown _ List.mem_cons_self).rounds u hu
      · obtain ⟨p, hp, hu⟩ := List.mem_flatMap.1 hu
        rcases List.mem_cons.1 hu with rfl | hu
        · rfl
        rcases List.mem_append.1 hu with hu | hu
        · exact hfragment _ u hu
        rcases List.mem_cons.1 hu with rfl | hu
        · rfl
        · exact (hown _ (List.mem_cons_of_mem _ (List.mem_map_of_mem hp))).rounds u hu
    rw [scan_anchored_eq hown]
    simpa [Token.allowsRound, or_imp, forall_and] using hwoven
  exact Expr.groups_of_perm (Expr.allowsRounds_of_build? htokens (by simp) (ofTokens?_of_expr? he))
    (numbers_of_expr? he hown)

/-- The group of a wildcard has the number behind those of the groups that open before it. -/
theorem mem_capturing_of_wildcard [Limits] (he : (compile source).expr? = .ok e)
    (hown : ∀ t ∈ (compile source).ownTexts, IsWhole t) {i : Nat} {w : Wildcard}
    (hw : (compile source).wildcards[i]? = some w) :
    (i + (compile source).groupsBefore i + 1, w.kind.expr) ∈ e.capturing := by
  rw [wildcards_eq_stretches, List.getElem?_map, Option.map_eq_some_iff] at hw
  obtain ⟨p, hp, rfl⟩ := hw
  obtain ⟨hi, hget⟩ := List.getElem?_eq_some_iff.1 hp
  have hsplit : (compile source).stretches.2 = (compile source).stretches.2.take i ++ p ::
      (compile source).stretches.2.drop (i + 1) := by
    rw [← hget, ← List.drop_eq_getElem_cons hi, List.take_append_drop]
  have hbuild := ofTokens?_of_expr? he
  rw [scan_anchored_eq hown, hsplit, woven_append, ← List.cons_append, ← List.cons_append,
    List.append_assoc] at hbuild
  obtain ⟨level, outer, hrest⟩ := Expr.exists_build?_of_append hbuild
  have hbefore : (.edge .start :: .opening false :: woven (compile source).stretches.1
      ((compile source).stretches.2.take i)).count (.opening true) =
        i + (compile source).groupsBefore i := by
    have htake : (compile source).ownTexts.take (i + 1) = (compile source).stretches.1 ::
        ((compile source).stretches.2.take i).map Prod.snd := by
      rw [ownTexts, List.take_succ_cons, List.map_take]
    rw [List.count_cons_of_ne (by simp), List.count_cons_of_ne (by simp), count_woven, groupsBefore,
      htake, List.length_take_of_le hi.le]
  rw [hbefore, Nat.add_comm, List.cons_append, List.append_assoc, List.cons_append,
    Kind.build?_fragment] at hrest
  refine Expr.mem_capturing_of_build? hrest ((Level.capturing_insert _ _).mem_iff.2 ?_)
  simp [Expr.capturing]

/-- In a source whose own texts are whole, the values of a match are those of all groups: the value of
a wildcard stands behind the values of the groups that open before it. So there are as many values
as wildcards exactly if the texts between the wildcards open no groups, and then every value is that
of the wildcard at its place. -/
theorem captures_aligned [Limits] (source : Text) {e : Expr} (he : (compile source).expr? = .ok e)
    (hown : ∀ t ∈ (compile source).ownTexts, IsWhole t) (path : Text) (vs : List Text)
    (hvs : e.captures? path = some vs) :
    (vs.length = (compile source).wildcards.length ↔
        ∀ t ∈ (compile source).ownTexts, ownGroups t = 0) ∧
      ∃ m, e.match? path = some m ∧
        (∀ i w, (compile source).wildcards[i]? = some w →
          ∃ v, vs[i + (compile source).groupsBefore i]? = some v ∧
            m.Gives e path (i + (compile source).groupsBefore i + 1) w.kind v) ∧
        ((∀ t ∈ (compile source).ownTexts, ownGroups t = 0) →
          ∀ i w, (compile source).wildcards[i]? = some w →
            ∃ v, vs[i]? = some v ∧ m.Gives e path (i + 1) w.kind v) := by
  have hgroups := groups_of_expr? he hown
  have hnumbers := numbers_of_expr? he hown
  rw [Expr.captures?, Option.map_eq_some_iff] at hvs
  obtain ⟨m, hm, rfl⟩ := hvs
  have hplace : ∀ i w, (compile source).wildcards[i]? = some w →
      ∃ v, ((List.range e.groups).map fun n => Expr.noted path m.notes (n + 1))[
          i + (compile source).groupsBefore i]? = some v ∧
        m.Gives e path (i + (compile source).groupsBefore i + 1) w.kind v := by
    intro i w hw
    have hgroup := mem_capturing_of_wildcard he hown hw
    have hnumber := hnumbers.mem_iff.1 (List.mem_map_of_mem hgroup)
    have hlt : i + (compile source).groupsBefore i < e.groups := by
      have := (List.mem_range'_1.1 hnumber).2
      omega
    refine ⟨_, ?_, Match.gives_noted hm ?_ hgroup⟩
    · simp [hlt]
    · exact hnumbers.nodup_iff.2 List.nodup_range'
  refine ⟨?_, m, hm, hplace, fun hnone i w hw => ?_⟩
  · rw [List.length_map, List.length_range, hgroups, Nat.add_eq_left, List.sum_eq_zero_iff]
    simp
  · have hzero : (compile source).groupsBefore i = 0 := by
      rw [groupsBefore, List.sum_eq_zero_iff]
      intro n hn
      obtain ⟨t, ht, rfl⟩ := List.mem_map.1 hn
      exact hnone t (List.mem_of_mem_take ht)
    have := hplace i w hw
    rwa [hzero] at this

/-- A source with a span, a set and a count of its own has one value, that of its wildcard. -/
theorem captures_aligned_span :
    ∃ e, (compile "<a|b>[x-z]\x7b2\x7d/\x7bid:num\x7d".toList).expr? = .ok e ∧
      (∀ t ∈ (compile "<a|b>[x-z]\x7b2\x7d/\x7bid:num\x7d".toList).ownTexts, IsWhole t) ∧
      e.captures? "bxy/12".toList = some ["12".toList] ∧
      ∃ m, e.match? "bxy/12".toList = some m ∧ m.Gives e "bxy/12".toList 1 .num "12".toList := by
  have he : (compile "<a|b>[x-z]\x7b2\x7d/\x7bid:num\x7d".toList).expr? =
      .ok (.seqAll [.edge .start,
        .group none (.seqAll [.group none (.alt (.one (.char 'a')) (.one (.char 'b'))),
          .rep 2 (some 2) (.one (.union .nothing (.range 'x' 'z'))), .one (.char '/'),
          .group (some 1) (.rep 1 none (.one .digit))]), .edge .stop]) := by decide +kernel
  have hown : ∀ t ∈ (compile "<a|b>[x-z]\x7b2\x7d/\x7bid:num\x7d".toList).ownTexts, IsWhole t := by
    decide +kernel
  obtain ⟨hlength, m, hm, -, haligned⟩ :=
    captures_aligned _ he hown "bxy/12".toList ["12".toList] (by decide +kernel)
  have hwildcard : (compile "<a|b>[x-z]\x7b2\x7d/\x7bid:num\x7d".toList).wildcards =
      [⟨"id".toList, .num, false⟩] := by decide +kernel
  rw [hwildcard] at hlength haligned
  obtain ⟨v, hv, hgives⟩ := haligned (hlength.1 rfl) 0 _ rfl
  obtain rfl := Option.some.inj hv
  exact ⟨_, he, hown, by decide +kernel, m, hm, hgives⟩

/-- A source with a group of its own has one value more than wildcards, and the first is that of the
group. -/
theorem captures_misaligned :
    ∃ e, (compile "(a)/\x7bid:num\x7d".toList).expr? = .ok e ∧
      (compile "(a)/\x7bid:num\x7d".toList).wildcards = [⟨"id".toList, .num, false⟩] ∧
      e.captures? "a/12".toList = some ["a".toList, "12".toList] := by
  have he : (compile "(a)/\x7bid:num\x7d".toList).expr? =
      .ok (.seqAll [.edge .start, .group none (.seqAll [.group (some 1) (.one (.char 'a')),
        .one (.char '/'), .group (some 2) (.rep 1 none (.one .digit))]), .edge .stop]) := by
    decide +kernel
  exact ⟨_, he, by decide +kernel, by decide +kernel⟩

end Pattern
end Detour
