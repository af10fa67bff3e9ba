import Detour.Expr.Room
import Detour.Proofs.Language
import Detour.Proofs.Scanning
import Detour.Proofs.Source
import Mathlib.Algebra.Ring.Nat

/-!
# What a source matches and captures

A path *splits* along a source if every sign takes one character that is the same up to letter case
and every wildcard takes a text of its kind. The expression that a source is compiled to matches
exactly the paths that split, and what it captures is such a split.

* `Source.scan_anchored` and `Source.ofTokens?_tokens`: the expression is read back from its text
  part by part, with the groups numbered from left to right.
* `Source.exists_expr?_iff`: a source is accepted exactly if its expression is small enough.
* `Item.Splits` is the split of a path along items.
* `Source.captures?_eq_none_iff` and `Source.splits_of_captures?` put it together with the matcher.
-/

namespace Detour

open Wildcard

/-! ### Tokens -/

namespace Token

/-- A set in square brackets with a plus sign behind it. -/
theorem scan_bracketed (inner : Text) {a : CharSet} (rest : Text)
    (h : Bracket.read? ((inner ++ '+' :: rest).length + 1) (Bracket.opened (inner ++ '+' :: rest)).1
      [] (Bracket.opened (inner ++ '+' :: rest)).2 = some (a, '+' :: rest)) :
    scan ('[' :: inner ++ '+' :: rest) = set a :: rounds 1 none :: scan rest := by
  have hset : bracketed (inner ++ '+' :: rest) = (set a, inner.length) := by
    simp only [bracketed, h]
    rw [List.length_append, Nat.add_sub_cancel]
  have hform : form ('[' :: inner ++ '+' :: rest) = some (set a, ('[' :: inner).length) := by
    simp only [List.cons_append, form, hset, List.length_cons]
  rw [scan_append (by simp) hform]
  rfl

/-- A set in square brackets is read by itself, whatever is written behind its plus sign. -/
theorem scan_bracketed_append (inner : Text) (a : CharSet)
    (h : ∀ rest, Bracket.read? ((inner ++ '+' :: rest).length + 1)
      (Bracket.opened (inner ++ '+' :: rest)).1 [] (Bracket.opened (inner ++ '+' :: rest)).2 =
        some (a, '+' :: rest)) (rest : Text) :
    scan ('[' :: inner ++ '+' :: rest) = scan ('[' :: inner ++ ['+']) ++ scan rest := by
  rw [scan_bracketed inner rest (h rest), scan_bracketed inner [] (h [])]
  rfl

end Token

/-- The fragment of a kind is read by itself, whatever is written behind it. -/
theorem Kind.scan_fragment (k : Kind) (rest : Text) :
    Token.scan (k.fragment ++ rest) = Token.scan k.fragment ++ Token.scan rest := by
  cases k with
  | all => rfl
  | alpha =>
    exact Token.scan_bracketed_append "a-z]".toList
      (.anyOf [.range 'a' 'z']) (fun _ => rfl) rest
  | alphanum => rfl
  | any =>
    exact Token.scan_bracketed_append "\\w.\\-_%=\\s]".toList
      (.anyOf [.word, .char '.', .char '-', .char '_', .char '%', .char '=', .blank]) (fun _ => rfl) rest
  | ext => rfl
  | num => rfl
  | segment =>
    exact Token.scan_bracketed_append "\\w_-]".toList
      (.anyOf [.word, .char '_', .char '-']) (fun _ => rfl) rest
  | segments =>
    exact Token.scan_bracketed_append "\\w/_-]".toList
      (.anyOf [.word, .char '/', .char '_', .char '-']) (fun _ => rfl) rest

/-- The group of a wildcard is read by itself, whatever is written behind it. -/
theorem Kind.scan_group (k : Kind) (rest : Text) :
    Token.scan ('(' :: (k.fragment ++ ')' :: rest)) =
      .opening true :: (Token.scan k.fragment ++ .closing :: Token.scan rest) := by
  have hopen : Token.scan ('(' :: (k.fragment ++ ')' :: rest)) =
      .opening true :: Token.scan (k.fragment ++ ')' :: rest) := by
    cases k <;> rfl
  have hclose : Token.scan (')' :: rest) = .closing :: Token.scan rest := rfl
  rw [hopen, Kind.scan_fragment, hclose]

namespace Item

/-- The tokens that an item is written with. -/
def tokens : Item → List Token
  | sign c => [.literal c]
  | wildcard w => .opening true :: Token.scan w.kind.fragment ++ [.closing]

/-- An item is read by itself, whatever is written behind it. -/
theorem scan_expression {x : Item} (hx : x.IsWritable) (rest : Text) :
    Token.scan (x.expression ++ rest) = x.tokens ++ Token.scan rest := by
  cases x with
  | sign c =>
    have hc : isSign c := hx
    simp only [expression, escapeSign]
    split
    · rename_i hspecial
      rw [List.contains_iff_mem] at hspecial
      simp only [List.mem_cons, List.not_mem_nil, or_false] at hspecial
      rcases hspecial with rfl | rfl | rfl <;> rfl
    · rename_i hplain
      refine Token.scan_literal ?_
      have hne : ∀ d, isSign d = false ∨ d ∈ ['?', '&', ':'] → c ≠ d := by
        rintro d hd rfl
        rcases hd with hd | hd
        · rw [hc] at hd
          exact absurd hd (by decide)
        · exact hplain (List.contains_iff_mem.2 hd)
      unfold Token.form
      simp only
      split <;> first | rfl | exact absurd rfl (hne _ (by decide))
  | wildcard w =>
    have hgroup : (wildcard w).expression ++ rest = '(' :: (w.kind.fragment ++ ')' :: rest) := by
      simp [expression, group]
    rw [hgroup, Kind.scan_group]
    simp [tokens]

end Item

/-! ### Building -/

/-- The parts of the expression of some items, with groups numbered from `next`. -/
def Item.parts : List Item → (next : Nat) → List Expr
  | [], _ => []
  | .sign c :: items, next => .one (.char c) :: parts items next
  | .wildcard w :: items, next => .group (some next) w.kind.expr :: parts items (next + 1)

namespace Source

/-- The expression of a source without its anchors. -/
def body (s : Source) : Expr := .seqAll (Item.parts s.items 1)

/-- The expression of a source, from the first to the last character. -/
def expr (s : Source) : Expr := .seqAll [.edge .start, .group none s.body, .edge .stop]

/-- The tokens of the expression of a source. -/
def tokens (s : Source) : List Token :=
  .edge .start :: .opening false :: s.items.flatMap Item.tokens ++ [.closing, .edge .stop]

/-- The expression of a source is read token by token. -/
theorem scan_anchored (s : Source) :
    Token.scan (Pattern.compile s.text).anchored = s.tokens := by
  have hexpression : (Pattern.compile s.text).expression = s.items.flatMap Item.expression := by
    rw [Pattern.compile_text]
  have hitems : ∀ items : List Item, (∀ x ∈ items, x.IsWritable) →
      Token.scan (items.flatMap Item.expression ++ ")$".toList) =
        items.flatMap Item.tokens ++ [.closing, .edge .stop] := by
    intro items hwritable
    induction items with
    | nil => rfl
    | cons x items ih =>
      rw [List.flatMap_cons, List.flatMap_cons, List.append_assoc, List.append_assoc,
        Item.scan_expression (hwritable x List.mem_cons_self),
        ih fun y hy => hwritable y (List.mem_cons_of_mem x hy)]
  change Token.scan ("^(?:".toList ++ (Pattern.compile s.text).expression ++ ")$".toList) = _
  rw [hexpression]
  exact congrArg (fun ts => .edge .start :: .opening false :: ts) (hitems s.items s.writable)

end Source

/-- The tokens of a wildcard build a group with the expression of its kind. -/
theorem Kind.build?_fragment (k : Kind) (level : Level) (outer : List Level) (next : Nat)
    (rest : List Token) :
    Expr.build? level outer next (.opening true :: (Token.scan k.fragment ++ .closing :: rest)) =
      Expr.build? (level.insert (.group (some next) k.expr)) outer (next + 1) rest := by
  cases k <;> rfl

/-- The tokens of some items build the parts of their expression. -/
theorem Item.build?_tokens (items : List Item) (level : Level) (outer : List Level) (next : Nat)
    (rest : List Token) :
    Expr.build? level outer next (items.flatMap Item.tokens ++ rest) =
      Expr.build? { level with parts := (parts items next).reverse ++ level.parts } outer
        (next + (items.filterMap Item.wildcard?).length) rest := by
  induction items generalizing level next with
  | nil => rfl
  | cons x items ih =>
    cases x with
    | sign c =>
      have hstep : Expr.build? level outer next
          ((Item.sign c :: items).flatMap Item.tokens ++ rest) =
          Expr.build? (level.insert (.one (.char c))) outer next
            (items.flatMap Item.tokens ++ rest) := rfl
      rw [hstep, ih]
      simp [parts, Level.insert, Item.wildcard?, List.filterMap_cons]
    | wildcard w =>
      have hstep : Expr.build? level outer next
          ((Item.wildcard w :: items).flatMap Item.tokens ++ rest) =
          Expr.build? (level.insert (.group (some next) w.kind.expr)) outer (next + 1)
            (items.flatMap Item.tokens ++ rest) := by
        rw [← Kind.build?_fragment]
        simp [tokens]
      rw [hstep, ih]
      simp [parts, Level.insert, Item.wildcard?, Nat.add_assoc, Nat.add_comm 1]

/-- The tokens of a source build its expression. -/
theorem Source.ofTokens?_tokens (s : Source) : Expr.ofTokens? s.tokens = some s.expr := by
  have hopen : Expr.ofTokens? s.tokens = Expr.build? (.start none)
      [(Level.start none).insert (.edge .start)] 1
      (s.items.flatMap Item.tokens ++ [.closing, .edge .stop]) := rfl
  rw [hopen, Item.build?_tokens]
  simp [Expr.build?, Level.start, Level.insert, Level.choice, Level.branch, Expr.altAll, expr, body]

/-! ### Bounds -/

namespace Expr

/-- The room of a sequence is that of its parts. -/
theorem room_seqAll (es : List Expr) : (seqAll es).room = (es.map room).sum := by
  induction es with
  | nil => rfl
  | cons e es ih =>
    cases es with
    | nil => simp [seqAll]
    | cons e' es =>
      rw [List.map_cons, List.sum_cons, ← ih]
      rfl

/-- The groups of a sequence are numbered as high as those of its parts. -/
theorem groups_seqAll (es : List Expr) : (seqAll es).groups = (es.map groups).foldr max 0 := by
  induction es with
  | nil => rfl
  | cons e es ih =>
    cases es with
    | nil => simp [seqAll]
    | cons e' es =>
      rw [List.map_cons, List.foldr_cons, ← ih]
      rfl

end Expr

namespace Item

/-- The room of an item in an expression. -/
def room : Item → Nat
  | sign _ => 48
  | wildcard w => w.kind.expr.room + 64

/-- The parts of an expression take the room of the items. -/
theorem sum_room_parts (items : List Item) (next : Nat) :
    ((parts items next).map Expr.room).sum = (items.map room).sum := by
  induction items generalizing next with
  | nil => rfl
  | cons x items ih =>
    cases x with
    | sign c => simp [parts, room, Expr.room, CharSet.room, ih]
    | wildcard w => simp [parts, room, Expr.room, ih]

/-- The groups of the parts are numbered in a row. -/
theorem groups_parts (items : List Item) (next : Nat) :
    ((parts items next).map Expr.groups).foldr max 0 =
      if (items.filterMap wildcard?).isEmpty then 0
      else next + (items.filterMap wildcard?).length - 1 := by
  have hkind : ∀ k : Kind, k.expr.groups = 0 := by
    intro k
    cases k <;> decide
  induction items generalizing next with
  | nil => rfl
  | cons x items ih =>
    cases x with
    | sign c =>
      have hsign : (sign c :: items).filterMap wildcard? = items.filterMap wildcard? := rfl
      rw [hsign, ← ih next]
      simp [parts, Expr.groups]
    | wildcard w =>
      have hwildcard : (wildcard w :: items).filterMap wildcard? =
          w :: items.filterMap wildcard? := rfl
      rw [hwildcard, parts, List.map_cons, List.foldr_cons, ih (next + 1)]
      simp only [Expr.groups, hkind, Option.getD_some, List.isEmpty_cons, List.length_cons,
        Bool.false_eq_true, if_false]
      split
      · rename_i hnone
        simp [List.isEmpty_iff.1 hnone]
      · omega

end Item

namespace Source

variable (s : Source)

/-- The room of the expression of a source. -/
def room : Nat := (s.items.map Item.room).sum + 128

/-- The expression of a source takes the room of its items. -/
theorem room_expr : s.expr.room = s.room := by
  have hbody : s.body.room = (s.items.map Item.room).sum := by
    rw [body, Expr.room_seqAll, Item.sum_room_parts]
  rw [expr, Expr.room_seqAll, room]
  simp only [List.map_cons, List.map_nil, List.sum_cons, List.sum_nil, Expr.room, hbody]
  omega

/-- An expression with too much room for the program is too large for it. -/
theorem not_isBounded_expr (h : Expr.roomLimit < s.room) : s.expr.isBounded = false := by
  rw [Expr.isBounded, s.room_expr, decide_eq_false (Nat.not_le.2 h), Bool.and_false]

/-- A source is accepted exactly if its expression is small enough. -/
theorem expr?_compile_text [Limits] : (Pattern.compile s.text).expr? =
    if Limits.fits s.expr then .ok s.expr else .error ⟨(Pattern.compile s.text).expression⟩ := by
  rw [Pattern.expr?, Expr.read?, s.scan_anchored, s.ofTokens?_tokens, Option.filter_some]
  by_cases h : Limits.fits s.expr <;> simp [h]

/-- The expression of a source is the only one that may be accepted for it. -/
theorem expr?_compile_text_eq_ok_iff [Limits] {e : Expr} :
    (Pattern.compile s.text).expr? = .ok e ↔ e = s.expr ∧ Limits.fits s.expr := by
  rw [expr?_compile_text]
  by_cases h : Limits.fits s.expr <;> simp [h, eq_comm]

/-- Some expression is accepted for a source exactly if its own is small enough. -/
theorem exists_expr?_iff [Limits] :
    (∃ e, (Pattern.compile s.text).expr? = .ok e) ↔ Limits.fits s.expr := by
  simp [expr?_compile_text_eq_ok_iff]

/-- There are as many groups as wildcards. -/
theorem groups_expr : s.expr.groups = s.wildcards.length := by
  have hbody : s.body.groups = s.wildcards.length := by
    rw [body, Expr.groups_seqAll, Item.groups_parts]
    change (if s.wildcards.isEmpty then 0 else 1 + s.wildcards.length - 1) = _
    split
    · rename_i hnone
      rw [List.isEmpty_iff.1 hnone]
      rfl
    · omega
  rw [expr, Expr.groups_seqAll]
  simp [Expr.groups, hbody]

end Source

/-! ### Splits -/

/-- How a path splits along some items: every sign takes one character that is the same up to
letter case, and every wildcard takes a text of its kind, which is listed. -/
inductive Item.Splits : List Item → Text → List Text → Prop where
  /-- no items take the empty text -/
  | nil : Splits [] [] []
  /-- a sign takes one character -/
  | sign {a c : Char} {items : List Item} {rest : Text} {vs : List Text} :
      sameLetter a c → Splits items rest vs → Splits (.sign a :: items) (c :: rest) vs
  /-- a wildcard takes a text of its kind -/
  | wildcard {w : Wildcard} {v : Text} {items : List Item} {rest : Text} {vs : List Text} :
      w.kind.Takes v → Splits items rest vs → Splits (.wildcard w :: items) (v ++ rest) (v :: vs)

/-- What the group with a number captured in a text. -/
def Expr.noted (t : Text) (ns : Plan.Notes) (k : Nat) : Text :=
  match ns.lookup k with
  | some (i, j) => slice t i j
  | none => []

/-- A sequence runs part by part, as long as the first part stays within the text. -/
theorem Expr.runs_seqAll_cons {t : Text} {a : Expr} {es : List Expr} {i k : Nat} {ns : Plan.Notes}
    (ha : ∀ {j ms}, (Plan.ofExpr t a).Runs i j ms → j ≤ t.length) :
    (Plan.ofExpr t (seqAll (a :: es))).Runs i k ns ↔
      ∃ j ms ls, (Plan.ofExpr t a).Runs i j ms ∧ (Plan.ofExpr t (seqAll es)).Runs j k ls ∧
        ns = ls ++ ms := by
  cases es with
  | cons e es => exact Iff.rfl
  | nil =>
    simp only [seqAll, Plan.ofExpr, Plan.Runs, testBit_allPlaces]
    refine ⟨fun h => ⟨k, ns, [], h, ⟨ha h, rfl, rfl⟩, rfl⟩, ?_⟩
    rintro ⟨j, ms, ls, h, ⟨_, rfl, rfl⟩, rfl⟩
    exact h

namespace Item

variable {t : Text} {items : List Item} {next i j : Nat} {ns : Plan.Notes}

/-- A wildcard takes a text of its kind and notes where it stands. -/
theorem runs_group {k : Kind} (hi : i ≤ t.length) :
    (Plan.ofExpr t (.group (some next) k.expr)).Runs i j ns ↔
      ∃ v rest, k.Takes v ∧ t.drop i = v ++ rest ∧ j = i + v.length ∧ ns = [(next, i, j)] := by
  simp only [Plan.ofExpr, Plan.Runs]
  refine ⟨?_, ?_⟩
  · rintro ⟨ms, hrun, rfl⟩
    obtain ⟨rfl, v, rest, hv, hdrop, rfl⟩ := (k.reads_expr hi).1 hrun
    exact ⟨v, rest, hv, hdrop, rfl, rfl⟩
  · rintro ⟨v, rest, hv, hdrop, rfl, rfl⟩
    exact ⟨[], (k.reads_expr hi).2 ⟨rfl, v, rest, hv, hdrop, rfl⟩, rfl⟩

/-- One character ends within the text. -/
theorem le_of_runs_one {set : CharSet} (hi : i ≤ t.length)
    (h : (Plan.ofExpr t (.one set)).Runs i j ns) : j ≤ t.length := by
  obtain ⟨_, c, _, _, hdrop, rfl⟩ := Expr.runs_one.1 h
  exact (Expr.drop_of_drop_eq_append (v := [c]) hi hdrop).1

/-- What a wildcard takes ends within the text. -/
theorem le_of_runs_group {k : Kind} (hi : i ≤ t.length)
    (h : (Plan.ofExpr t (.group (some next) k.expr)).Runs i j ns) : j ≤ t.length := by
  obtain ⟨_, _, _, hdrop, rfl, _⟩ := (runs_group hi).1 h
  exact (Expr.drop_of_drop_eq_append hi hdrop).1

/-- A part that stands at a position is what lies between its ends. -/
theorem slice_of_drop_eq_append {v rest : Text} (h : t.drop i = v ++ rest) :
    Expr.slice t i (i + v.length) = v := by
  rw [Expr.slice, h, Nat.add_sub_cancel_left, List.take_left]

/-- A run over the parts of some items to the end of a text splits the rest of the text into what
the groups captured, and the groups are numbered from `next`. -/
theorem splits_of_runs (hi : i ≤ t.length)
    (h : (Plan.ofExpr t (.seqAll (parts items next))).Runs i t.length ns) :
    Splits items (t.drop i)
        ((List.range' next (items.filterMap wildcard?).length).map (Expr.noted t ns)) ∧
      ∀ n ∈ ns, next ≤ n.1 := by
  induction items generalizing next i ns with
  | nil =>
    obtain ⟨_, hend, rfl⟩ := h
    refine ⟨?_, by simp⟩
    rw [← hend, List.drop_length]
    exact .nil
  | cons x items ih =>
    cases x with
    | sign a =>
      obtain ⟨j, ms, ls, hone, hrest, rfl⟩ := (Expr.runs_seqAll_cons (le_of_runs_one hi)).1 h
      obtain ⟨rfl, c, rest, hsame, hdrop, rfl⟩ := Expr.runs_one.1 hone
      obtain ⟨hj, hbehind⟩ := Expr.drop_of_drop_eq_append (v := [c]) hi hdrop
      obtain ⟨hsplits, hnext⟩ := ih hj hrest
      rw [hbehind] at hsplits
      rw [List.append_nil, hdrop]
      exact ⟨.sign hsame hsplits, hnext⟩
    | wildcard w =>
      obtain ⟨j, ms, ls, hgroup, hrest, rfl⟩ := (Expr.runs_seqAll_cons (le_of_runs_group hi)).1 h
      obtain ⟨v, rest, hv, hdrop, rfl, rfl⟩ := (runs_group hi).1 hgroup
      obtain ⟨hj, hbehind⟩ := Expr.drop_of_drop_eq_append hi hdrop
      obtain ⟨hsplits, hnext⟩ := ih hj hrest
      rw [hbehind] at hsplits
      -- the later groups have greater numbers, so their notes do not hide this one
      have hfresh : ls.lookup next = none := by
        rw [List.lookup_eq_none_iff]
        intro n hn
        have := hnext n hn
        rw [bne_iff_ne]
        omega
      have hfirst : Expr.noted t (ls ++ [(next, i, i + v.length)]) next = v := by
        rw [Expr.noted, List.lookup_append, hfresh]
        simp [slice_of_drop_eq_append hdrop]
      have hlater : ∀ k ∈ List.range' (next + 1) (items.filterMap wildcard?).length,
          Expr.noted t (ls ++ [(next, i, i + v.length)]) k = Expr.noted t ls k := by
        intro k hk
        have hne : (k == next) = false := by
          have := (List.mem_range'_1.1 hk).1
          rw [beq_eq_false_iff_ne]
          omega
        rw [Expr.noted, Expr.noted, List.lookup_append]
        simp [List.lookup_cons, hne]
      have hwildcard : (wildcard w :: items).filterMap wildcard? =
          w :: items.filterMap wildcard? := rfl
      rw [hwildcard, List.length_cons, List.range'_succ, List.map_cons, hfirst,
        List.map_congr_left hlater, hdrop]
      refine ⟨.wildcard hv hsplits, fun n hn => ?_⟩
      rcases List.mem_append.1 hn with hn | hn
      · exact (Nat.le_succ next).trans (hnext n hn)
      · rw [List.mem_singleton.1 hn]

/-- Along a split of the rest of a text there is a run to the end of the text. -/
theorem exists_runs {rest : Text} {vs : List Text} (h : Splits items rest vs)
    (hi : i ≤ t.length) (hrest : t.drop i = rest) :
    ∃ ns, (Plan.ofExpr t (.seqAll (parts items next))).Runs i t.length ns := by
  induction h generalizing next i with
  | nil =>
    refine ⟨[], (testBit_allPlaces _ _).2 hi, ?_, rfl⟩
    have := List.drop_eq_nil_iff.1 hrest
    omega
  | @sign a c items rest vs hsame _ ih =>
    obtain ⟨hj, hbehind⟩ := Expr.drop_of_drop_eq_append (v := [c]) hi hrest
    obtain ⟨ns, hrun⟩ := @ih next _ hj hbehind
    have hone : (Plan.ofExpr t (.one (.char a))).Runs i (i + 1) [] :=
      Expr.runs_one.2 ⟨rfl, c, rest, hsame, hrest, rfl⟩
    exact ⟨ns ++ [], (Expr.runs_seqAll_cons (le_of_runs_one hi)).2
      ⟨i + 1, [], ns, hone, hrun, rfl⟩⟩
  | @wildcard w v items rest vs hv _ ih =>
    obtain ⟨hj, hbehind⟩ := Expr.drop_of_drop_eq_append hi hrest
    obtain ⟨ns, hrun⟩ := @ih (next + 1) _ hj hbehind
    have hgroup : (Plan.ofExpr t (.group (some next) w.kind.expr)).Runs i (i + v.length)
        [(next, i, i + v.length)] := (runs_group hi).2 ⟨v, rest, hv, hrest, rfl, rfl⟩
    exact ⟨_, (Expr.runs_seqAll_cons (le_of_runs_group hi)).2 ⟨_, _, ns, hgroup, hrun, rfl⟩⟩

/-- A split lists one text for each wildcard. -/
theorem Splits.length {path : Text} {vs : List Text} (h : Splits items path vs) :
    vs.length = (items.filterMap wildcard?).length := by
  induction h with
  | nil => rfl
  | sign _ _ ih => exact ih
  | wildcard _ _ ih => exact congrArg (· + 1) ih

/-- Every listed text is one that its wildcard takes. -/
theorem Splits.takes {path : Text} {vs : List Text} (h : Splits items path vs) :
    ∀ p ∈ (items.filterMap wildcard?).zip vs, p.1.kind.Takes p.2 := by
  induction h with
  | nil => simp
  | sign _ _ ih => exact ih
  | @wildcard w v items rest vs hv _ ih =>
    intro p hp
    rcases List.mem_cons.1 (show p ∈ (w, v) :: (items.filterMap wildcard?).zip vs from hp) with
      rfl | hp
    · exact hv
    · exact ih p hp

end Item

namespace Source

variable (s : Source) {t : Text}

/-- How a path splits along a source. -/
def Splits (path : Text) (vs : List Text) : Prop := Item.Splits s.items path vs

/-- A run of the expression of a source within a text is one over the whole text. -/
theorem runs_expr {i j : Nat} {ns : Plan.Notes} :
    (Plan.ofExpr t s.expr).Runs i j ns ↔
      i = 0 ∧ j = t.length ∧ (Plan.ofExpr t s.body).Runs 0 t.length ns := by
  simp only [expr, Expr.seqAll, Plan.ofExpr, Plan.Runs, Expr.testBit_places_start,
    Expr.testBit_places_stop]
  refine ⟨?_, ?_⟩
  · rintro ⟨_, _, _, ⟨rfl, rfl, rfl⟩, ⟨_, ms, _, hrun, ⟨rfl, rfl, rfl⟩, rfl⟩, rfl⟩
    refine ⟨rfl, rfl, ?_⟩
    rwa [List.append_nil]
  · rintro ⟨rfl, rfl, hrun⟩
    exact ⟨0, [], ns, ⟨rfl, rfl, rfl⟩, ⟨t.length, ns, [], hrun, ⟨rfl, rfl, rfl⟩, rfl⟩,
      (List.append_nil ns).symm⟩

/-- What the expression of a source captures is a split of the path. -/
theorem splits_of_captures? {vs : List Text} (h : s.expr.captures? t = some vs) :
    s.Splits t vs := by
  rw [Expr.captures?, Option.map_eq_some_iff] at h
  obtain ⟨m, hm, rfl⟩ := h
  obtain ⟨_, hrun⟩ := Expr.runs_of_match? hm
  obtain ⟨_, _, hbody⟩ := s.runs_expr.1 hrun
  have hsplits := (Item.splits_of_runs (Nat.zero_le _) hbody).1
  rw [List.drop_zero, List.range'_eq_map_range, List.map_map] at hsplits
  have hnoted : (List.range s.expr.groups).map (fun n => Expr.noted t m.notes (n + 1)) =
      (List.range s.wildcards.length).map (Expr.noted t m.notes ∘ (1 + ·)) := by
    rw [groups_expr]
    exact List.map_congr_left fun n _ => by rw [Function.comp_apply, Nat.add_comm]
  change Item.Splits s.items t
    ((List.range s.expr.groups).map fun n => Expr.noted t m.notes (n + 1))
  rw [hnoted]
  exact hsplits

/-- A path is refused exactly if it does not split along the source. -/
theorem captures?_eq_none_iff : s.expr.captures? t = none ↔ ∀ vs, ¬ s.Splits t vs := by
  rw [Expr.captures?, Option.map_eq_none_iff, Expr.match?_eq_none_iff]
  refine ⟨?_, ?_⟩
  · intro h vs hsplits
    obtain ⟨ns, hbody⟩ := Item.exists_runs hsplits (Nat.zero_le t.length) List.drop_zero
    exact h 0 t.length ns (Nat.le_refl _) (s.runs_expr.2 ⟨rfl, rfl, hbody⟩)
  · intro h i j ns _ hrun
    obtain ⟨_, _, hbody⟩ := s.runs_expr.1 hrun
    have hsplits := (Item.splits_of_runs (Nat.zero_le _) hbody).1
    rw [List.drop_zero] at hsplits
    exact h _ hsplits

/-- A source is compiled to an expression that captures along it: its wildcards are noted in order,
it is accepted exactly if its expression is small enough, whatever the limits are, and an accepted one
matches exactly the paths that split along the source and captures such a split. -/
theorem captures_along [Limits] (s : Source) :
    (Pattern.compile s.text).wildcards = s.wildcards ∧
      ((∃ e, (Pattern.compile s.text).expr? = .ok e) ↔ Limits.fits s.expr) ∧
      ∀ e, (Pattern.compile s.text).expr? = .ok e → ∀ path,
        ((e.captures? path).isSome ↔ ∃ vs, s.Splits path vs) ∧
        ∀ vs, e.captures? path = some vs →
          vs.length = s.wildcards.length ∧ s.Splits path vs ∧
          ∀ p ∈ s.wildcards.zip vs,
            (p.1.kind = .num → ∀ c ∈ p.2, isDigit c) ∧
            (p.1.kind = .alpha → ∀ c ∈ p.2, isDigit c = false) := by
  refine ⟨by rw [Pattern.compile_text], s.exists_expr?_iff, ?_⟩
  · intro e he path
    obtain ⟨rfl, -⟩ := s.expr?_compile_text_eq_ok_iff.1 he
    refine ⟨?_, fun vs hvs => ?_⟩
    · rw [← not_iff_not, Bool.not_eq_true, Option.isSome_eq_false_iff, Option.isNone_iff_eq_none,
        captures?_eq_none_iff, not_exists]
    · have hsplits := s.splits_of_captures? hvs
      refine ⟨Item.Splits.length hsplits, hsplits, fun p hp => ?_⟩
      have htakes := Item.Splits.takes hsplits p hp
      refine ⟨fun hk => ?_, fun hk => ?_⟩
      · rw [hk] at htakes
        exact htakes.2
      · rw [hk] at htakes
        exact fun c hc => not_isDigit_of_isBasicLetter (htakes.2 c hc)

/-- So many segments in a row, all of one name. -/
def row (n : Nat) : Source where
  items := List.replicate n (.wildcard ⟨['a'], .segment, false⟩)
  writable := by
    intro x hx
    rw [List.eq_of_mem_replicate hx]
    exact ⟨by simp, List.all_eq_true.1 (by decide)⟩
  unmarked := by
    intro h
    exact absurd (List.eq_of_mem_replicate (h.subset List.mem_cons_self)) (by simp)

/-- Two thousand segments are refused by every matcher that their expression is too large for, and so by
that of the program. -/
theorem expr?_row_refused :
    (row 2000).text = (List.replicate 2000 "{a:segment}".toList).flatten ∧
      (∀ limits : Limits, limits.fits (row 2000).expr = false →
        ¬ ∃ e, (Pattern.compile (row 2000).text).expr? = .ok e) ∧
      ¬ ∃ e, (Pattern.compile (row 2000).text).expr? = .ok e := by
  refine ⟨?_, fun limits h => ?_, ?_⟩
  · rw [text, row, List.flatMap_replicate]
    rfl
  · rw [exists_expr?_iff, h]
    exact Bool.false_ne_true
  · have hroom : Item.room (.wildcard ⟨['a'], .segment, false⟩) = 47224 := rfl
    have hlarge : Expr.roomLimit < (row 2000).room := by
      rw [room, row, List.map_replicate, List.sum_replicate_nat, hroom]
      decide
    rw [exists_expr?_iff]
    exact Bool.eq_false_iff.1 ((row 2000).not_isBounded_expr hlarge)

end Source

end Detour
