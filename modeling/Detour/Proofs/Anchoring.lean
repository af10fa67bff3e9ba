import Detour.Expr.Room
import Detour.Proofs.Matching
import Detour.Proofs.Scanning
import Detour.Wildcard.Pattern

/-!
# Whether a match covers the whole path

The anchors of a compiled source are written around its expression as text, so they hold it at both ends
as long as no bar ends up between them outside of all groups. The expression alone cannot see to
that: one that closes a group before it opens one pairs up with the brackets of the anchors.

* `Token.areBarsInside`: every bar stands inside of a group.
* `Level.BeginsAtStart` is what the open levels have in common while such an expression is built: the
  outermost begins with the assertion of the beginning.
* `Expr.exists_mid_of_build?`: the expression is a sequence between two assertions.
* `Pattern.match_covers` puts it together with the matcher, and `Pattern.match_uncovered` is a source
  whose bar ends up outside.
-/

namespace Detour

namespace Token

/-- Whether the bars among some tokens all stand inside of a group, where `depth` groups are open before
them. -/
def areBarsInside : (depth : Nat) → List Token → Bool
  | _, [] => true
  | depth, token :: tokens =>
    match token with
    | opening _ => areBarsInside (depth + 1) tokens
    | closing => areBarsInside (depth - 1) tokens
    | bar => 0 < depth && areBarsInside depth tokens
    | _ => areBarsInside depth tokens

end Token

namespace Expr

variable {level : Level} {outer : List Level} {next : Nat} {ts : List Token} {e : Expr}

/-- No expression is built from a malformed construct. -/
theorem bad_notMem_of_build? (h : build? level outer next ts = some e) : .bad ∉ ts := by
  fun_induction build? level outer next ts <;> simp_all

/-- Tokens that build an expression by themselves close the groups that they open, and in one more group
all their bars are inside. -/
theorem areBarsInside_append (h : build? level outer next ts = some e) (rest : List Token) :
    Token.areBarsInside (outer.length + 1) (ts ++ rest) = Token.areBarsInside 1 rest := by
  fun_induction build? level outer next ts <;> simp_all [Token.areBarsInside]

end Expr

/-! ### Building between the anchors -/

namespace Level

/-- The outermost of some open levels has one branch, which begins with the assertion of the
beginning. -/
def BeginsAtStart : List Level → Prop
  | [] => False
  | [l] => l.branches = [] ∧ ∃ parts, l.parts = parts ++ [.edge .start]
  | _ :: parent :: outer => BeginsAtStart (parent :: outer)

/-- The open levels of an expression behind its first anchor: where only the outermost is open, it has
a part that may be repeated. -/
def IsAnchored (level : Level) (outer : List Level) : Prop :=
  BeginsAtStart (level :: outer) ∧ (outer = [] → 2 ≤ level.parts.length)

/-- A part more leaves the beginning alone. -/
theorem BeginsAtStart.insert {level : Level} {outer : List Level}
    (h : BeginsAtStart (level :: outer)) (e : Expr) : IsAnchored (level.insert e) outer := by
  cases outer with
  | cons parent outer => exact ⟨h, by simp⟩
  | nil =>
    obtain ⟨hone, parts, hparts⟩ := h
    refine ⟨⟨hone, e :: parts, ?_⟩, fun _ => ?_⟩
    · rw [Level.insert, hparts, List.cons_append]
    · simp [Level.insert, hparts]

/-- A repetition of the last part leaves the beginning alone, as that is not the last. -/
theorem IsAnchored.repeatLast {level level' : Level} {outer : List Level} {lo : Nat} {hi : Option Nat}
    (h : IsAnchored level outer) (hrep : level.repeatLast? lo hi = some level') :
    IsAnchored level' outer := by
  unfold repeatLast? at hrep
  split at hrep
  · cases hrep
  · rename_i e parts hparts
    obtain rfl := Option.some.inj hrep
    obtain ⟨hbegins, hlong⟩ := h
    rw [hparts] at hlong
    refine ⟨?_, hlong⟩
    cases outer with
    | cons parent outer => exact hbegins
    | nil =>
      obtain ⟨hone, before, hbefore⟩ := hbegins
      rw [hparts] at hbefore
      cases before with
      | nil =>
        obtain ⟨-, rfl⟩ := List.cons.inj hbefore
        simp at hlong
      | cons first before =>
        obtain ⟨-, rfl⟩ := List.cons.inj hbefore
        exact ⟨hone, _ :: before, rfl⟩

end Level

namespace Expr

/-- Behind the first anchor, tokens whose bars are all inside of groups build a sequence between the
two anchors. -/
theorem exists_mid_of_build? {level : Level} {outer : List Level} {next : Nat} {ts : List Token}
    {e : Expr} (hlevel : level.IsAnchored outer)
    (hbars : Token.areBarsInside outer.length (ts ++ [.edge .stop]))
    (h : build? level outer next (ts ++ [.edge .stop]) = some e) :
    ∃ mid, e = seqAll (.edge .start :: mid ++ [.edge .stop]) := by
  induction ts generalizing level outer next with
  | nil =>
    simp only [List.nil_append, build?, List.isEmpty_iff] at h
    split at h
    · rename_i houter
      subst houter
      obtain ⟨⟨hone, parts, hparts⟩, -⟩ := hlevel
      refine ⟨parts.reverse, ?_⟩
      rw [← Option.some.inj h]
      simp [Level.choice, Level.branch, Level.insert, hone, hparts, altAll]
    · cases h
  | cons token ts ih =>
    cases token with
    | literal c => exact ih (hlevel.1.insert _) hbars h
    | set a => exact ih (hlevel.1.insert _) hbars h
    | edge place => exact ih (hlevel.1.insert _) hbars h
    | rounds lo hi =>
      simp only [List.cons_append, build?] at h
      split at h
      · rename_i hrep
        exact ih (hlevel.repeatLast hrep) hbars h
      · cases h
    | bar =>
      -- a bar is read inside of a group, so that it ends a branch of another level
      simp only [List.cons_append, Token.areBarsInside, Bool.and_eq_true, decide_eq_true_eq] at hbars
      cases outer with
      | nil => exact absurd hbars.1 (Nat.lt_irrefl 0)
      | cons parent outer =>
        have hinside : level.bar.IsAnchored (parent :: outer) := ⟨hlevel.1, by simp⟩
        exact ih hinside hbars.2 h
    | opening capturing =>
      have hinside : ∀ number, (Level.start number).IsAnchored (level :: outer) :=
        fun _ => ⟨hlevel.1, by simp⟩
      cases capturing with
      | false => exact ih (hinside none) hbars h
      | true => exact ih (hinside (some next)) hbars h
    | closing =>
      cases outer with
      | nil => cases h
      | cons parent outer =>
        have hparent : Level.BeginsAtStart (parent :: outer) := hlevel.1
        exact ih (hparent.insert _) hbars h
    | bad => cases h

/-! ### Runs between the anchors -/

/-- A sequence ends with a run of its last part. -/
theorem exists_runs_last {s : Text} {es : List Expr} {e : Expr} {i j : Nat} {ns : Plan.Notes}
    (h : (Plan.ofExpr s (seqAll (es ++ [e]))).Runs i j ns) :
    ∃ k ms, (Plan.ofExpr s e).Runs k j ms := by
  induction es generalizing i ns with
  | nil => exact ⟨i, ns, h⟩
  | cons first es ih =>
    have hrest : seqAll (first :: es ++ [e]) = .seq first (seqAll (es ++ [e])) := by
      cases es <;> rfl
    rw [hrest] at h
    obtain ⟨_, _, _, _, hrun, _⟩ := h
    exact ih hrun

/-- A sequence between the two anchors leads from the beginning to the end of a text. -/
theorem covers_of_runs {s : Text} {mid : List Expr} {i j : Nat} {ns : Plan.Notes}
    (h : (Plan.ofExpr s (seqAll (.edge .start :: mid ++ [.edge .stop]))).Runs i j ns) :
    i = 0 ∧ j = s.length := by
  obtain ⟨k, ms, hend, rfl, -⟩ := exists_runs_last h
  have hfirst : seqAll (.edge .start :: mid ++ [.edge .stop]) =
      .seq (.edge .start) (seqAll (mid ++ [.edge .stop])) := by
    cases mid <;> rfl
  rw [hfirst] at h
  obtain ⟨_, _, _, ⟨hstart, _⟩, _⟩ := h
  exact ⟨(testBit_places_start s i).1 hstart, (testBit_places_stop s j).1 hend⟩

end Expr

/-! ### Compiled patterns -/

namespace Pattern

/-- An expression is written between its anchors. -/
theorem scan_anchored (p : Pattern) : Token.scan p.anchored =
    .edge .start :: .opening false :: Token.scan (p.expression ++ [')', '$']) := rfl

/-- An accepted expression is built from the tokens it is written with between its anchors. -/
theorem ofTokens?_of_expr? [Limits] {p : Pattern} {e : Expr} (h : p.expr? = .ok e) :
    Expr.ofTokens? (Token.scan p.anchored) = some e := by
  unfold expr? Expr.read? at h
  split at h
  · rename_i e' hread
    rw [← Except.ok.inj h]
    exact (Option.filter_eq_some_iff.1 hread).1
  · cases h

/-- If the expression of a pattern reads by itself, the anchors are outside of all its bars. -/
theorem areBarsInside_anchored {p : Pattern}
    (h : (Expr.ofTokens? (Token.scan p.expression)).isSome) :
    Token.areBarsInside 0 (Token.scan p.anchored) := by
  obtain ⟨e, he⟩ := Option.isSome_iff_exists.1 h
  rw [scan_anchored, Token.scan_append_of_formed (Expr.bad_notMem_of_build? he) (by simp)]
  exact Expr.areBarsInside_append he [.closing, .edge .stop]

/-- If all bars are inside of groups, an accepted expression leads from the beginning to the end of a
text. -/
theorem covers_of_areBarsInside [Limits] {p : Pattern} {e : Expr} (he : p.expr? = .ok e)
    (hbars : Token.areBarsInside 0 (Token.scan p.anchored)) {s : Text} {i j : Nat} {ns : Plan.Notes}
    (h : (Plan.ofExpr s e).Runs i j ns) : i = 0 ∧ j = s.length := by
  have hbuild := ofTokens?_of_expr? he
  have hbad := Expr.bad_notMem_of_build? hbuild
  rw [scan_anchored] at hbuild hbad hbars
  simp only [List.mem_cons, reduceCtorEq, false_or] at hbad
  obtain ⟨ts, hts⟩ := Token.scan_enclosed hbad
  rw [hts] at hbuild hbars
  have hlevel : (Level.start none).IsAnchored [⟨none, [], [.edge .start]⟩] :=
    ⟨⟨rfl, [], rfl⟩, by simp⟩
  obtain ⟨mid, rfl⟩ := Expr.exists_mid_of_build? hlevel hbars hbuild
  exact Expr.covers_of_runs h

/-- For every source that is accepted: if its expression reads by itself, no bar of it stands outside
of the groups that are open between the anchors, and if none does, every match covers the whole path. -/
theorem match_covers [Limits] (source : Text) {e : Expr} (he : (compile source).expr? = .ok e) :
    ((Expr.ofTokens? (Token.scan (compile source).expression)).isSome →
        Token.areBarsInside 0 (Token.scan (compile source).anchored)) ∧
      (Token.areBarsInside 0 (Token.scan (compile source).anchored) →
        ∀ path m, e.match? path = some m → m.start = 0 ∧ m.stop = path.length) :=
  ⟨areBarsInside_anchored, fun hbars _ _ hm =>
    covers_of_areBarsInside he hbars (Expr.runs_of_match? hm).2⟩

/-- A choice inside of a group is read by itself, and no path that only begins like it matches. -/
theorem match_covers_choice :
    ∃ e, (compile "(a|b)c".toList).expr? = .ok e ∧
      (Expr.ofTokens? (Token.scan (compile "(a|b)c".toList).expression)).isSome ∧
      (e.match? "bc".toList).isSome ∧ e.match? "bcd".toList = none ∧
      ∀ path m, e.match? path = some m → m.start = 0 ∧ m.stop = path.length := by
  have he : (compile "(a|b)c".toList).expr? = .ok (.seqAll [.edge .start, .group none (.seq
      (.group (some 1) (.alt (.one (.char 'a')) (.one (.char 'b')))) (.one (.char 'c'))),
      .edge .stop]) := by decide +kernel
  have hself : (Expr.ofTokens? (Token.scan (compile "(a|b)c".toList).expression)).isSome := by
    decide +kernel
  have hbars := (match_covers _ he).1 hself
  exact ⟨_, he, hself, by decide +kernel, by decide +kernel, (match_covers _ he).2 hbars⟩

/-- A source that closes a group before it opens one is accepted with its bar between the anchors: a
path that only begins like its first branch matches, and one that only ends like its second. -/
theorem match_uncovered :
    ∃ e, (compile "a)|(b".toList).expr? = .ok e ∧
      (e.match? "axyz".toList).map (fun m => (m.start, m.stop)) = some (0, 1) ∧
      (e.match? "xyzb".toList).map (fun m => (m.start, m.stop)) = some (3, 4) := by
  have he : (compile "a)|(b".toList).expr? = .ok (.alt
      (.seq (.edge .start) (.group none (.one (.char 'a'))))
      (.seq (.group (some 1) (.one (.char 'b'))) (.edge .stop))) := by decide +kernel
  exact ⟨_, he, by decide +kernel, by decide +kernel⟩

end Pattern
end Detour
