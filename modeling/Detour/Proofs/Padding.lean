import Detour.Config.Fault
import Detour.Engine
import Detour.Expr.Room
import Detour.Proofs.Cleaning
import Detour.Rewrite.Letters
import Detour.Url.Absolute

/-!
# White space around configured URLs

A configuration is checked as if there were no white space around the URL of the site and that of the legacy
site. The legacy site is asked without it as well, but the URL of the site is put in front of destinations as
it was written.

* `Text.trimEnd_slash_trim_iff`: without the slashes at its end a text can still be told from the trimmed one.
* `UrlReader.behind` is a URL put behind that of a site, and `UrlReader.behind_trim_iff` the sites and
  URLs for which white space makes no difference.
* `Engine.bare` puts no site in front. By `Engine.pass_eq_behind` the site comes into a pass at its end
  only, in the URLs of rules.
* `Engine.pass_trimmed_iff`: what white space around the URLs of a configuration does.
-/

namespace Detour

/-! ### URLs behind that of a site -/

namespace Text

/-- Slashes are no white space. -/
theorem countP_isBlank_trimEnd (s : Text) :
    (trimEnd (· == '/') s).countP isBlank = s.countP isBlank := by
  have hslashes : (s.rtakeWhile (· == '/')).countP isBlank = 0 := by
    rw [List.countP_eq_zero]
    intro c hc
    have hslash : c = '/' := by simpa using List.mem_rtakeWhile_imp hc
    rw [hslash]
    decide
  have hsplit : trimEnd (· == '/') s ++ s.rtakeWhile (· == '/') = s := List.rdropWhile_append_rtakeWhile
  have hwhole := congrArg (List.countP isBlank) hsplit
  rwa [List.countP_append, hslashes, Nat.add_zero] at hwhole

/-- A text with as much white space in it as in the trimmed one is not trimmed at all. -/
theorem trim_eq_self_of_countP {s : Text} (h : (trim s).countP isBlank = s.countP isBlank) : trim s = s := by
  obtain ⟨front, back, hs, hfront, hback, -, -⟩ := exists_trimBoth isBlank s
  have hparts := congrArg (List.countP isBlank) hs
  rw [List.countP_append, List.countP_append, List.countP_eq_length.2 hfront,
    List.countP_eq_length.2 hback, ← h, trim] at hparts
  have hnone : front.length = 0 ∧ back.length = 0 := by omega
  rw [List.length_eq_zero_iff.1 hnone.1, List.length_eq_zero_iff.1 hnone.2, List.nil_append,
    List.append_nil] at hs
  exact hs.symm

/-- **Taking slashes off the end hides no white space**: a text and the trimmed one still differ without the
slashes at their ends, unless there was nothing to trim. -/
theorem trimEnd_slash_trim_iff (s : Text) :
    trimEnd (· == '/') s = trimEnd (· == '/') (trim s) ↔ trim s = s := by
  refine ⟨fun h => trim_eq_self_of_countP ?_, fun h => by rw [h]⟩
  rw [← countP_isBlank_trimEnd, ← h, countP_isBlank_trimEnd]

end Text

namespace UrlReader

variable {urls : UrlReader}

/-- A URL behind that of a site, if it has no scheme of its own and there is a site. -/
def behind (urls : UrlReader) (site url : Text) : Text :=
  if (Text.trim site).isEmpty || urls.isAbsolute url then url
  else Text.trimEnd (· == '/') site ++ ['/'] ++ Text.trimStart (· == '/') url

/-- White space around the URL of a site is seen behind it, unless it is all that is there or the URL has a
scheme. -/
theorem behind_trim_iff {site url : Text} : urls.behind site url = urls.behind (Text.trim site) url ↔
    Text.trim site = site ∨ Text.trim site = [] ∨ urls.isAbsolute url := by
  have htrim : Text.trim (Text.trim site) = Text.trim site := Text.trimBoth_trimBoth isBlank site
  unfold behind
  rw [htrim]
  by_cases hblank : Text.trim site = []
  · simp [hblank]
  by_cases habsolute : urls.isAbsolute url
  · simp [habsolute]
  · simp [hblank, habsolute, Text.trimEnd_slash_trim_iff]

end UrlReader

/-! ### The site in a pass -/

namespace Decision

/-- A decision with the URL of a rule behind that of a site. -/
def behind (urls : UrlReader) (site : Text) : Decision → Decision
  | redirect url permanent (some id) => redirect (urls.behind site url) permanent (some id)
  | d => d

/-- Whether a decision is that of a rule, to redirect to a URL without a scheme. -/
def IsRelative (urls : UrlReader) (d : Decision) : Prop :=
  ∃ url permanent id, d = redirect url permanent (some id) ∧ urls.isAbsolute url = false

/-- White space around the URL of the site is seen in the decisions of rules. -/
theorem behind_trim_iff {urls : UrlReader} {site : Text} {d : Decision} :
    d.behind urls site = d.behind urls (Text.trim site) ↔
      Text.trim site = site ∨ Text.trim site = [] ∨ ¬ d.IsRelative urls := by
  have hother (h : ∀ url permanent id, d ≠ redirect url permanent (some id)) : ¬ d.IsRelative urls :=
    fun ⟨url, permanent, id, hd, _⟩ => h url permanent id hd
  cases d with
  | redirect url permanent rule =>
    cases rule with
    | none => exact iff_of_true rfl (.inr (.inr (hother (by simp))))
    | some id =>
      have hrelative : ¬ (redirect url permanent (some id)).IsRelative urls ↔ urls.isAbsolute url := by
        simp [IsRelative]
      rw [hrelative, ← UrlReader.behind_trim_iff]
      simp [behind]
  | wouldRedirect url status => exact iff_of_true rfl (.inr (.inr (hother (by simp))))
  | noMatch => exact iff_of_true rfl (.inr (.inr (hother (by simp))))

end Decision

/-- What became of a rule, with its URL behind that of a site. -/
def Outcome.behind (urls : UrlReader) (site : Text) : Outcome → Outcome
  | matched url permanent substitutions => matched (urls.behind site url) permanent substitutions
  | o => o

/-- A rule that was tried, with its URL behind that of a site. -/
def Trace.behind (urls : UrlReader) (site : Text) (t : Trace) : Trace :=
  { t with outcome := t.outcome.behind urls site }

/-- A pass with the URLs of rules behind that of a site. -/
def Pass.behind (urls : UrlReader) (site : Text) (p : Pass) : Pass :=
  { p with trace := p.trace.map (Trace.behind urls site), decision := p.decision.behind urls site }

/-- A rule decides as before, for the URL behind that of the site. -/
theorem Trace.decision?_behind (urls : UrlReader) (site : Text) (t : Trace) :
    (t.behind urls site).decision? = t.decision?.map (Decision.behind urls site) := by
  obtain ⟨rule, source, expression, outcome⟩ := t
  cases outcome <;> rfl

/-- Rules that were tried without a site lead to the decision that they lead to, behind the site. -/
theorem findSome?_decision?_behind (urls : UrlReader) (site : Text) (trace : List Trace) :
    (trace.map (Trace.behind urls site)).findSome? Trace.decision? =
      (trace.findSome? Trace.decision?).map (Decision.behind urls site) := by
  rw [List.findSome?_map, List.map_findSome?]
  exact congrArg (trace.findSome? ·) (funext (Trace.decision?_behind urls site))

/-- An expander that puts no site in front of destinations. -/
def Expander.bare (x : Expander) : Expander := { x with site := [] }

/-- A destination has the URL that it has without a site, behind that of the site. -/
theorem Expander.expand_eq_behind (x : Expander) (destination : Text) (wildcards : List Wildcard)
    (values : List Text) : x.expand destination wildcards values =
      (x.bare.expand destination wildcards values).map
        fun e => { e with url := x.urls.behind x.site e.url } := by
  have htemplate : x.bare.template destination = x.template destination := rfl
  have hselect (template : Text) (d : Draft) :
      x.bare.select (x.bare.finish template (x.bare.substituteAll (wildcards.zip values) d)) =
        x.select (x.finish template (x.substituteAll (wildcards.zip values) d)) := by
    rw [select_eq, select_eq]
    rfl
  rcases hfound : x.template destination with e | template
  · simp only [expand, htemplate, hfound, Except.map]
  · rcases hurl : x.select (x.finish template
      (x.substituteAll (wildcards.zip values) ⟨Template.unbracket template, []⟩)) with e | url
    · simp only [expand, htemplate, hfound, hselect, hurl, Except.map]
    · simp only [expand, htemplate, hfound, hselect, hurl, Except.map]
      rfl

namespace Engine

/-- An engine that puts no site in front of destinations. -/
def bare (x : Engine) : Engine := { x with site := [] }

variable (x : Engine) (collections : Collections) (now : Instant) (path : Text)

/-- What becomes of a rule without a site becomes of it with one. -/
theorem outcome_eq_behind (rule : Rule) (pattern : Pattern) : x.outcome collections now path rule pattern =
    (x.bare.outcome collections now path rule pattern).map (Outcome.behind x.urls x.site) := by
  have hexpr : x.bare.expr? pattern = x.expr? pattern := rfl
  unfold outcome
  rw [hexpr]
  cases x.expr? pattern with
  | error e => rfl
  | ok expr =>
    dsimp only
    cases expr.captures? path with
    | none => rfl
    | some values =>
      dsimp only
      cases (Activation.ofRule rule).missedWindow? now with
      | none => rfl
      | some window =>
        cases window with
        | some w => rfl
        | none =>
          have hbare : (x.expander collections).bare = x.bare.expander collections := rfl
          dsimp only
          rw [Expander.expand_eq_behind, hbare]
          cases (x.bare.expander collections).expand rule.destination pattern.wildcards values <;> rfl

/-- So it is with every rule that is tried. -/
theorem tried_eq_behind (rule : Rule) : x.tried collections now path rule =
    (x.bare.tried collections now path rule).map (Trace.behind x.urls x.site) := by
  simp only [tried, outcome_eq_behind x, Option.map_map, Function.comp_def, Trace.behind]

/-- And with all of them: the same rule decides. -/
theorem scan_eq_behind (rules : List Rule) : x.scan collections now path rules =
    (x.bare.scan collections now path rules).map (List.map (Trace.behind x.urls x.site)) := by
  induction rules with
  | nil => rfl
  | cons rule rules ih =>
    rw [scan, scan, ih, tried_eq_behind]
    cases x.bare.tried collections now path rule with
    | none => rfl
    | some t =>
      simp only [Option.map_some, Trace.decision?_behind, Option.isSome_map]
      split
      · rfl
      · simp only [Option.map_map]
        rfl

/-- The decision of no rule has no URL of a rule. -/
theorem fallback_behind (site : Text) (diagnostic : Bool) :
    (x.fallback diagnostic path).behind x.urls site = x.fallback diagnostic path := by
  unfold fallback
  split
  · rfl
  · split <;> rfl

/-- What is concluded from some rules is what is concluded without a site, behind that of the site. -/
theorem conclude_eq_behind (diagnostic : Bool) (trace : List Trace) :
    x.conclude diagnostic path (trace.map (Trace.behind x.urls x.site)) =
      (x.bare.conclude diagnostic path trace).behind x.urls x.site := by
  have hfallback (path : Text) : x.bare.fallback diagnostic path = x.fallback diagnostic path := rfl
  have hlegacy : x.bare.legacy = x.legacy := rfl
  rw [conclude, conclude, findSome?_decision?_behind]
  cases trace.findSome? Trace.decision? with
  | some decision => rfl
  | none => simp only [Option.map_none, Pass.behind, fallback_behind, hfallback, hlegacy]

/-- **A pass is the one without a site, with the URLs of rules behind that of the site.** -/
theorem pass_eq_behind (diagnostic : Bool) (rules : List Rule) (request : Request) :
    x.pass diagnostic rules collections request now =
      (x.bare.pass diagnostic rules collections request now).map (Pass.behind x.urls x.site) := by
  have hroot : x.bare.root = x.root := rfl
  cases htarget : Target.ofUri x.root request.uri with
  | entry =>
    simp only [pass, hroot, htarget]
    rfl
  | path path =>
    simp only [pass, hroot, htarget, scan_eq_behind x collections now path rules, Option.map_map]
    exact congrArg (Option.map · _) (funext (x.conclude_eq_behind path diagnostic))

end Engine

/-! ### Configurations -/

namespace Config

/-- A configuration without white space around the URL of the site and that of the legacy site. -/
def trimmed (c : Config) : Config :=
  { c with
    handling := { c.handling with site := Text.trim c.handling.site }
    legacy := { c.legacy with domain := Text.trim c.legacy.domain } }

variable (c : Config)

/-- Nothing more is trimmed. -/
theorem trimmed_legacy : c.trimmed.legacy.trimmed = c.legacy.trimmed :=
  Text.trimBoth_trimBoth isBlank c.legacy.domain

/-- There is a legacy site if there is one without trimming. -/
theorem isEnabled_trimmed : c.trimmed.legacy.isEnabled = c.legacy.isEnabled := by
  rw [LegacySettings.isEnabled, trimmed_legacy, LegacySettings.isEnabled]

/-- The legacy site is that of the trimmed configuration. -/
theorem legacy?_trimmed (probe : Text → Option UInt16) :
    c.trimmed.legacy.legacy? probe = c.legacy.legacy? probe := by
  rw [LegacySettings.legacy?, isEnabled_trimmed, trimmed_legacy]
  rfl

/-- **The faults of a configuration are those of the trimmed one.** -/
theorem faults_trimmed [UrlReader] : c.trimmed.faults = c.faults := by
  have hsite : Text.trim c.trimmed.handling.site = Text.trim c.handling.site :=
    Text.trimBoth_trimBoth isBlank c.handling.site
  have hhandling : handlingFaults c.trimmed.handling = handlingFaults c.handling := by
    rw [handlingFaults, hsite]
    rfl
  have hlegacy : legacyFaults c.trimmed.legacy = legacyFaults c.legacy := by
    rw [legacyFaults, isEnabled_trimmed, trimmed_legacy]
    rfl
  rw [faults, hhandling, hlegacy, faults]

/-- But for the site the engine is that of the trimmed configuration. -/
theorem bare_ofConfigured_trimmed [Dictionary] [UrlReader] [Limits] (probe : Text → Option UInt16)
    (directory : Directory) :
    (Engine.ofConfigured c.trimmed probe directory).bare = (Engine.ofConfigured c probe directory).bare := by
  rw [Engine.ofConfigured, legacy?_trimmed]
  rfl

end Config

namespace Engine

/-- **White space around configured URLs.** It makes no difference to the faults of a configuration and to the
legacy site, so that a pass is the one without a site in which the URLs of rules are put behind that of the
site as it was written, and for the trimmed configuration behind the trimmed one. The decision is the same
exactly if there is no white space around the URL of the site, or nothing else, or no rule decides to redirect
to a URL without a scheme. -/
theorem pass_trimmed_iff [Dictionary] [urls : UrlReader] [Limits] (c : Config)
    (probe : Text → Option UInt16) (directory : Directory) (diagnostic : Bool) (rules : List Rule)
    (collections : Collections) (request : Request) (now : Instant) :
    let site := c.handling.site
    let written := (ofConfigured c probe directory).pass diagnostic rules collections request now
    let trimmed := (ofConfigured c.trimmed probe directory).pass diagnostic rules collections request now
    let bare := (ofConfigured c probe directory).bare.pass diagnostic rules collections request now
    c.trimmed.faults = c.faults ∧ written = bare.map (Pass.behind urls site) ∧
      trimmed = bare.map (Pass.behind urls (Text.trim site)) ∧
      (written.map Pass.decision = trimmed.map Pass.decision ↔ Text.trim site = site ∨
        Text.trim site = [] ∨ ∀ p, bare = some p → ¬ p.decision.IsRelative urls) := by
  intro site written trimmed bare
  have hwritten : written = bare.map (Pass.behind urls site) := pass_eq_behind _ _ _ _ _ _
  have htrimmed : trimmed = bare.map (Pass.behind urls (Text.trim site)) := by
    have h := (ofConfigured c.trimmed probe directory).pass_eq_behind collections now diagnostic rules request
    rwa [Config.bare_ofConfigured_trimmed] at h
  refine ⟨c.faults_trimmed, hwritten, htrimmed, ?_⟩
  rw [hwritten, htrimmed]
  cases bare with
  | none => simp
  | some p => simpa [Pass.behind] using Decision.behind_trim_iff (d := p.decision)

/-- A configuration with white space around the URL of the site. -/
def padded : Config := { handling := { site := " https://example.com/ ".toList } }

/-- The configuration has no faults, and yet a rule redirects to a URL with the white space in it, but not by
the trimmed configuration. -/
theorem pass_padded :
    let rules := [Rule.new 1 "old".toList "new".toList]
    let request : Request := ⟨"/old".toList, none, none⟩
    let written := (ofConfigured padded (fun _ => none) .empty).pass false rules [] request ⟨0, 0⟩
    let trimmed := (ofConfigured padded.trimmed (fun _ => none) .empty).pass false rules [] request ⟨0, 0⟩
    padded.faults = [] ∧
      written.map Pass.decision =
        some (.redirect " https://example.com/ /new".toList true (some 1)) ∧
      trimmed.map Pass.decision = some (.redirect "https://example.com/new".toList true (some 1)) ∧
      written.map Pass.decision ≠ trimmed.map Pass.decision := by
  decide +kernel

end Engine

end Detour
