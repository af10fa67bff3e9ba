import Detour.Proofs.Mark
import Detour.Proofs.Shift

/-!
# Sources with the entry script

The compiler marks the entry script wherever a source has it. `Pattern.compileBare` is the same compilation
without that step, and this module says what the step does to the expression.

* `Text.infix_of_rewrite`: a rewriting that writes none of the letters of a word makes up no new
  occurrence of it. So a source without the entry script is compiled the same either way
  (`Pattern.compile_eq_compileBare`).
* `Pattern.expression_ofPrepared`: letters and dots in front go through the stages as they are. So a source
  that begins with the entry script has its expression behind the script, marked or not.
* `Pattern.expr?_of_lead`: the two expressions that are read are the same but for how they begin.
-/

namespace Detour

open Wildcard

/-! ### Words that a rewriting does not make up -/

namespace Text

variable {β : Type} {form : Form β} {write : β → Text} {word : Text}

/-- Behind a text without any letter of a word the word occurs where it did. -/
theorem infix_of_append {lead s : Text} (hword : word ≠ []) (hlead : ∀ c ∈ lead, c ∉ word)
    (h : word <:+: lead ++ s) : word <:+: s := by
  induction lead with
  | nil => exact h
  | cons c lead ih =>
    rw [List.cons_append, List.infix_cons_iff] at h
    refine ih (fun d hd => hlead d (List.mem_cons_of_mem c hd)) (h.resolve_left ?_)
    obtain ⟨a, word, rfl⟩ := List.exists_cons_of_ne_nil hword
    rw [List.cons_prefix_cons]
    rintro ⟨rfl, -⟩
    exact hlead a List.mem_cons_self List.mem_cons_self

/-- A word in front of a rewritten text stood in front of the text. -/
theorem prefix_of_rewrite {s : Text}
    (hwrite : ∀ t m size, form t = some (m, size) → write m ≠ [] ∧ ∀ c ∈ write m, c ∉ word)
    (h : word <+: rewrite form write s) : word <+: s := by
  induction word generalizing s with
  | nil => exact List.nil_prefix
  | cons a word ih =>
    cases s with
    | nil => exact absurd (List.prefix_nil.1 h) (by simp)
    | cons c s =>
      cases hfound : form (c :: s) with
      | none =>
        rw [rewrite_cons write hfound, List.cons_prefix_cons] at h
        refine List.cons_prefix_cons.2 ⟨h.1, ih (fun t m size hm => ⟨(hwrite t m size hm).1, ?_⟩) h.2⟩
        exact fun d hd hmem => (hwrite t m size hm).2 d hd (List.mem_cons_of_mem a hmem)
      | some found =>
        obtain ⟨hne, hapart⟩ := hwrite (c :: s) found.1 found.2 hfound
        obtain ⟨d, more, hmore⟩ := List.exists_cons_of_ne_nil hne
        rw [rewrite_hit write hfound, hmore, List.cons_append, List.cons_prefix_cons] at h
        exact absurd (h.1 ▸ List.mem_cons_self) (hapart d (by simp [hmore]))

/-- **Words are not made up.** A rewriting that writes none of the letters of a word makes up no
occurrence of it. -/
theorem infix_of_rewrite {s : Text} (hword : word ≠ [])
    (hwrite : ∀ t m size, form t = some (m, size) → write m ≠ [] ∧ ∀ c ∈ write m, c ∉ word)
    (h : word <:+: rewrite form write s) : word <:+: s := by
  induction s using walk_induction form with
  | nil => exact h
  | plain c s hnone ih =>
    rw [rewrite_cons write hnone, List.infix_cons_iff] at h
    refine List.infix_cons_iff.2 (h.imp (fun hfront => ?_) ih)
    exact prefix_of_rewrite hwrite (by rwa [rewrite_cons write hnone])
  | hit c s m size hfound ih =>
    rw [rewrite_hit write hfound] at h
    have hbehind := ih (infix_of_append hword (hwrite _ m size hfound).2 h)
    exact hbehind.trans ((List.drop_suffix _ s).trans (List.suffix_cons c s)).isInfix

/-- Replacing words by a text without any of its letters makes up no occurrence of a word. -/
theorem infix_of_replaceAll {old new s : Text} (hword : word ≠ []) (hnew : new ≠ [])
    (hapart : ∀ c ∈ new, c ∉ word) (h : word <:+: replaceAll old new s) : word <:+: s := by
  rw [replaceAll_eq_rewrite] at h
  exact infix_of_rewrite hword (fun _ _ _ _ => ⟨hnew, hapart⟩) h

end Text

/-! ### Compiling without the mark -/

namespace Wildcard

/-- A source with its signs escaped and optional characters written out, and the entry script left as it
is. -/
def prepareBare (source : Text) : Text := Text.rewrite optionalForm id (escapeSigns source)

/-- Escaping signs makes up no entry script. -/
theorem script_infix_of_escapeSigns {source : Text} (h : entryScript <:+: escapeSigns source) :
    entryScript <:+: source := by
  have step {old new s : Text} (hnew : new ≠ []) (hapart : new.all fun c => !entryScript.contains c)
      (h : entryScript <:+: Text.replaceAll old new s) : entryScript <:+: s := by
    refine Text.infix_of_replaceAll (by decide) hnew (fun c hc hmem => ?_) h
    simpa [hmem] using List.all_eq_true.1 hapart c hc
  have hcolons := step (by decide) (by decide) h
  have hands := step (by decide) (by decide) hcolons
  have hslashes := step (by decide) (by decide) hands
  exact step (by decide) (by decide) hslashes

/-- A source without the entry script has nothing to mark. -/
theorem prepare_eq_prepareBare {source : Text} (h : ¬ entryScript <:+: source) :
    prepare source = prepareBare source := by
  rw [prepare, Text.replaceAll_of_not_infix fun hscript => h (script_infix_of_escapeSigns hscript)]
  rfl

/-- A character that goes through all stages of compilation as it is. -/
def isLead (c : Char) : Bool := isBasicLetter c || c == '.'

/-- The entry script is made up of such characters, marked and bare. -/
theorem isLead_markedEntry : ∀ c ∈ markedEntry, isLead c := List.all_eq_true.1 (by decide)

/-- The bare entry script begins the marked one. -/
theorem isLead_entryScript : ∀ c ∈ entryScript, isLead c :=
  fun c hc => isLead_markedEntry c (List.mem_append_left _ hc)

/-- What begins a construct at some stage is no such character. -/
theorem notMem_of_isLead {lead : Text} (h : ∀ c ∈ lead, isLead c) {c : Char} (hc : isLead c = false) :
    c ∉ lead := notMem_of_class h hc

section Lead

variable {lead : Text} (hlead : ∀ c ∈ lead, isLead c) (s : Text)

include hlead

/-- A stage whose constructs begin with another sign leaves a beginning of letters and dots as it is. -/
theorem rewrite_lead {β : Type} {form : Form β} (write : β → Text) {d : Char} (hd : isLead d = false)
    (hform : ∀ c rest, c ≠ d → form (c :: rest) = none) :
    Text.rewrite form write (lead ++ s) = lead ++ Text.rewrite form write s := by
  refine Text.rewrite_plain write s fun c hc rest => hform c rest ?_
  rintro rfl
  exact notMem_of_isLead hlead hd hc

/-- Signs are escaped behind such a beginning. -/
theorem escapeSigns_lead : escapeSigns (lead ++ s) = lead ++ escapeSigns s := by
  simp only [escapeSigns]
  rw [Text.replaceAll_lead _ _ (notMem_of_isLead hlead (by decide)),
    Text.replaceAll_lead _ _ (notMem_of_isLead hlead (by decide)),
    Text.replaceAll_lead _ _ (notMem_of_isLead hlead (by decide)),
    Text.replaceAll_lead _ _ (notMem_of_isLead hlead (by decide))]

/-- Optional characters are written out behind it. -/
theorem rewrite_optionalForm_lead :
    Text.rewrite optionalForm id (lead ++ s) = lead ++ Text.rewrite optionalForm id s :=
  rewrite_lead hlead s id (by decide) fun _ rest hc => optionalForm_cons hc rest

/-- Braces are escaped behind it. -/
theorem escapeBraces_lead : escapeBraces (lead ++ s) = lead ++ escapeBraces s := by
  refine Text.rewrite_plain id s fun c hc rest => ?_
  have hne : ∀ d, isLead d = false → c ≠ d := by
    rintro d hd rfl
    exact notMem_of_isLead hlead hd hc
  unfold braceForm
  split <;> rename_i heq
  · exact absurd (List.cons.inj heq).1 (hne _ (by decide))
  · exact absurd (List.cons.inj heq).1 (hne _ (by decide))
  · exact absurd (List.cons.inj heq).1 (hne _ (by decide))
  · rfl

end Lead

end Wildcard

namespace Pattern

/-- The compiled form of a prepared source. -/
def ofPrepared (prepared : Text) : Pattern :=
  ofExpanded (freeColons prepared) (expand (freeColons prepared))

/-- The compiled form of a source whose entry script is not marked. -/
def compileBare (source : Text) : Pattern := ofPrepared (prepareBare source)

/-- A source without the entry script is compiled the same whether or not it is marked. -/
theorem compile_eq_compileBare {source : Text} (h : ¬ entryScript <:+: source) :
    compile source = compileBare source := by
  rw [compileBare, ← prepare_eq_prepareBare h]
  rfl

/-- The expression writes the groups for the wildcards and escapes stray braces. -/
theorem expression_ofExpanded (escaped expanded : Text) : (ofExpanded escaped expanded).expression =
    escapeBraces (Text.rewrite Wildcard.form group expanded) := rfl

/-- Letters and dots in front of a prepared source stand in front of its expression. -/
theorem expression_ofPrepared {lead : Text} (hlead : ∀ c ∈ lead, isLead c) (s : Text) :
    (ofPrepared (lead ++ s)).expression = lead ++ (ofPrepared s).expression := by
  have hbrace : isLead '\x7b' = false := by decide
  have hangle : isLead '<' = false := by decide
  have hfreed (t : Text) : freeColons (lead ++ t) = lead ++ freeColons t :=
    rewrite_lead hlead t Pair.write hbrace fun _ rest hc => pairForm_cons hc rest
  have hspans (t : Text) : expandSpans (lead ++ t) = lead ++ expandSpans t :=
    rewrite_lead hlead t (fun body => "(?:".toList ++ body ++ [')']) hangle fun _ rest hc =>
      spanForm_cons hc rest
  have hfirst (t : Text) : nameFirst (lead ++ t) = lead ++ nameFirst t :=
    rewrite_lead hlead t Pair.write hbrace fun _ rest hc => nameFirstForm_cons hc rest
  have haliases (t : Text) : expandAliases (lead ++ t) = lead ++ expandAliases t :=
    rewrite_lead hlead t Pair.write hbrace fun _ rest hc => aliasForm_cons hc rest
  have hgroups (t : Text) : Text.rewrite Wildcard.form group (lead ++ t) =
      lead ++ Text.rewrite Wildcard.form group t :=
    rewrite_lead hlead t group hbrace fun _ rest hc => form_cons hc rest
  rw [ofPrepared, ofPrepared, expression_ofExpanded, expression_ofExpanded, expand, expand, hfreed,
    hspans, hfirst, haliases, hgroups, escapeBraces_lead hlead]

/-- The entry script at the beginning of a source stands marked before the expression of the rest. -/
theorem expression_script (t : Text) :
    (compile (entryScript ++ t)).expression = markedEntry ++ (compile t).expression := by
  have hprepared : prepare (entryScript ++ t) = markedEntry ++ prepare t := by
    rw [prepare, escapeSigns_lead isLead_entryScript, Text.replaceAll_append markedEntry _ (by decide),
      rewrite_optionalForm_lead isLead_markedEntry]
    rfl
  have hcompile (source : Text) : (compile source) = ofPrepared (prepare source) := rfl
  rw [hcompile, hcompile, hprepared, expression_ofPrepared isLead_markedEntry]

/-- Without the mark it stands there as it is. -/
theorem expression_script_bare {t : Text} (h : ¬ entryScript <:+: t) :
    (compileBare (entryScript ++ t)).expression = entryScript ++ (compile t).expression := by
  have hprepared : prepareBare (entryScript ++ t) = entryScript ++ prepareBare t := by
    rw [prepareBare, escapeSigns_lead isLead_entryScript, rewrite_optionalForm_lead isLead_entryScript]
    rfl
  rw [compile_eq_compileBare h, compileBare, compileBare, hprepared,
    expression_ofPrepared isLead_entryScript]

end Pattern

/-! ### Reading the expression behind its beginning -/

/-- The set that a letter or a dot stands for in an expression. -/
def leadSet (c : Char) : CharSet := if c = '.' then .dot else .char c

/-- The token that a letter or a dot stands for. -/
def leadToken (c : Char) : Token := if c = '.' then .set .dot else .literal c

/-- A letter or a dot in front is one more part of the level. -/
theorem Expr.build?_leadToken (c : Char) (level : Level) (outer : List Level) (next : Nat)
    (ts : List Token) : build? level outer next (leadToken c :: ts) =
      build? (level.insert (.one (leadSet c))) outer next ts := by
  by_cases hc : c = '.'
  · rw [leadToken, leadSet, if_pos hc, if_pos hc]
    rfl
  · rw [leadToken, leadSet, if_neg hc, if_neg hc]
    rfl

/-- Letters and dots in front are as many parts of the level. -/
theorem Expr.build?_lead (lead : Text) (level : Level) (outer : List Level) (next : Nat)
    (ts : List Token) : build? level outer next (lead.map leadToken ++ ts) =
      build? { level with parts := ((lead.map leadSet).map one).reverse ++ level.parts } outer next ts := by
  induction lead generalizing level with
  | nil => rfl
  | cons c lead ih =>
    rw [List.map_cons, List.cons_append, build?_leadToken, ih]
    simp [Level.insert]

namespace Pattern

/-- Whether an expression can stand behind a beginning: it reads by itself, and all its bars are inside of
groups. -/
structure StandsBehind (p : Pattern) : Prop where
  /-- the expression reads by itself -/
  reads : (Expr.ofTokens? (Token.scan p.expression)).isSome
  /-- no bar stands outside of all groups -/
  bars : Token.areBarsInside 0 (Token.scan p.expression)

instance (p : Pattern) : Decidable p.StandsBehind :=
  decidable_of_iff ((Expr.ofTokens? (Token.scan p.expression)).isSome ∧
    Token.areBarsInside 0 (Token.scan p.expression)) ⟨fun h => ⟨h.1, h.2⟩, fun h => ⟨h.1, h.2⟩⟩

/-- **Expressions that differ in how they begin.** An expression that can stand behind a beginning adds
the same parts behind each. -/
theorem StandsBehind.exists_parts {p : Pattern} (h : p.StandsBehind) :
    ∃ parts, ∀ (lead : Text) (q : Pattern), q.expression = lead ++ p.expression →
      (∀ rest, Token.scan (lead ++ rest) = lead.map leadToken ++ Token.scan rest) →
        Expr.ofTokens? (Token.scan q.anchored) = some (Expr.lined (lead.map leadSet) parts) := by
  obtain ⟨e, he⟩ := Option.isSome_iff_exists.1 h.reads
  have hbars : Token.areBarsInside ([] : List Level).length (Token.scan p.expression) := h.bars
  obtain ⟨parts, last, hparts⟩ := Expr.exists_parts_of_build? he hbars
  refine ⟨parts.reverse, fun lead q hq hlead => ?_⟩
  have hclosed : Token.scan (q.expression ++ [')', '$']) =
      lead.map leadToken ++ (Token.scan p.expression ++ [.closing, .edge .stop]) := by
    rw [hq, List.append_assoc, hlead,
      Token.scan_append_of_formed (Expr.bad_notMem_of_build? he) (by simp)]
    rfl
  have hopened : Expr.ofTokens? (Token.scan q.anchored) =
      Expr.build? (.start none) [⟨none, [], [.edge .start]⟩] 1
        (lead.map leadToken ++ (Token.scan p.expression ++ [.closing, .edge .stop])) := by
    rw [scan_anchored, hclosed]
    rfl
  have hbehind := hparts ⟨none, [], ((lead.map leadSet).map Expr.one).reverse⟩
    [⟨none, [], [.edge .start]⟩] [.closing, .edge .stop]
  rw [hopened, Expr.build?_lead]
  simp only [Level.start, List.append_nil, Level.under, List.nil_append] at hbehind ⊢
  rw [hbehind]
  simp [Expr.build?, Level.insert, Level.choice, Level.branch, Expr.altAll, Expr.lined, Expr.written]

end Pattern

end Detour
