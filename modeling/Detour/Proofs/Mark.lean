import Detour.Expr.Room
import Detour.Proofs.Resolution
import Detour.Proofs.Seam
import Detour.Rewrite.Letters
import Detour.Url.Absolute

/-!
# Where the mark of the entry script may come out

A request behind the entry script is matched with a mark in its path, so that what a wildcard captures
may hold the mark. Nothing else brings it into the URL of a decision.

* `Expander.inserted` lists the texts that an expansion puts in, and `Apart` says that they do not hold
  the word of the mark and cannot make it up. `Expander.unmarked_expand`: then the URL is unmarked.
* `Target.unmark_path_suffix`: without the mark the path to match is an end of the request.
* `Engine.unmarked_pass`: the URL of every decision is unmarked, unless the rule that decides puts in
  texts that are not apart. `Engine.pass_marked` is a rule that does.
-/

namespace Detour

open Template

/-! ### Texts that are put into a template -/

/-- A part of a text ends at a seam: before a construct of the template, or in a text that is put in
before a construct or at the end. -/
def EndsAtSeam (template : Text) (puts : List Text) (part : Text) : Prop :=
  StandsBefore part template ∨ ∃ v ∈ puts, part <:+ v.map fold ∨ StandsBefore part v

instance (template : Text) (puts : List Text) (part : Text) :
    Decidable (EndsAtSeam template puts part) :=
  inferInstanceAs (Decidable (_ ∨ ∃ v ∈ puts, _))

/-- A letter begins at a seam: behind a construct of the template, or in a text that is put in behind a
construct or at the front. -/
def BeginsAtSeam (template : Text) (puts : List Text) (c : Char) : Prop :=
  StandsBehind c template ∨ ∃ v ∈ puts, [c] <+: v.map fold ∨ StandsBehind c v

instance (template : Text) (puts : List Text) (c : Char) :
    Decidable (BeginsAtSeam template puts c) :=
  inferInstanceAs (Decidable (_ ∨ ∃ v ∈ puts, _))

/-- No text that is put into a template holds the word of the mark, and the word cannot be made up
either: if a beginning of it ends at a seam, then its next letter begins at none. -/
structure Apart (template : Text) (puts : List Text) : Prop where
  /-- the word does not occur -/
  unmarked : ∀ v ∈ puts, Unmarked v
  /-- no beginning of the word can go on behind a seam -/
  seams : ∀ part c, part ≠ [] → part ++ [c] <+: markWord → EndsAtSeam template puts part →
    ¬ BeginsAtSeam template puts c

/-- The seams of a template with texts that are put in. -/
def Apart.toSeams {template : Text} {puts : List Text} (h : Apart template puts) : Seams where
  ends := EndsAtSeam template puts
  begins := BeginsAtSeam template puts
  apart := h.seams

/-- The template has no other seams. -/
theorem Apart.allows {template : Text} {puts : List Text} (h : Apart template puts)
    (htemplate : Unmarked template) : h.toSeams.Allows template where
  unmarked := htemplate
  before _ _ _ hbefore := .inl hbefore
  behind _ _ hbehind := .inl hbehind

/-- The texts may be put in. -/
theorem Apart.admits {template : Text} {puts : List Text} (h : Apart template puts) :
    ∀ v ∈ puts, h.toSeams.Admits v := fun v hv =>
  { unmarked := h.unmarked v hv
    before := fun _ _ _ hbefore => .inr ⟨v, hv, .inr hbefore⟩
    behind := fun _ _ hbehind => .inr ⟨v, hv, .inr hbehind⟩
    last := fun _ _ _ hlast => .inr ⟨v, hv, .inl hlast⟩
    first := fun _ _ hfirst => .inr ⟨v, hv, .inl hfirst⟩ }

namespace Expander

variable {x : Expander} {e : Seams}

/-- The texts that are put in for the placeholders of one wildcard. -/
def putBy (x : Expander) (w : Wildcard) (captured : Text) (d : Draft) : List Text :=
  let raw := ['\x7b', '!'] ++ w.name ++ ['\x7d']
  Text.puts (Text.wordForm raw) (fun _ => captured) d.text ++
    Text.puts (Text.wordForm (['\x7b'] ++ w.name ++ ['\x7d'])) (fun _ => x.inject w captured)
      (Text.replaceAll raw captured d.text)

/-- The texts that are put in for the placeholders of all wildcards. -/
def putByAll (x : Expander) : (captures : List (Wildcard × Text)) → Draft → List Text
  | [], _ => []
  | (w, captured) :: captures, d =>
    x.putBy w captured d ++ x.putByAll captures (x.substitute w captured d)

/-- Every text that an expansion puts into a template: captured and cleaned values, mapped values,
the values of markers, and the paths of selectors. -/
def inserted (x : Expander) (template : Text) (captures : List (Wildcard × Text)) : List Text :=
  let start : Draft := ⟨unbracket template, []⟩
  let d := x.substituteAll captures start
  x.putByAll captures start ++ d.mapped ++
    Text.puts Collections.markerForm (fun (key, name) => x.collections.mapOrSelf name key)
      (settleSlash template d.text) ++
    Text.puts selectorForm (fun s => (x.directory.selector s).getD []) (x.finish template d)

/-- One wildcard leaves a draft allowed if its texts may be put in. -/
theorem allows_substitute {w : Wildcard} {captured : Text} {d : Draft} (hd : e.Allows d.text)
    (h : ∀ v ∈ x.putBy w captured d, e.Admits v) : e.Allows (x.substitute w captured d).text := by
  have hword : ∀ mark : Text, Enclosed ('\x7b' :: (mark ++ w.name ++ ['\x7d'])) := fun mark =>
    ⟨'\x7b', by decide, '\x7d', by decide, mark ++ w.name, rfl⟩
  have hraw := (Text.patched_replaceAll (hword ['!']) fun v hv =>
    h v (List.mem_append_left _ hv)).allows hd
  have hcleaned := (Text.patched_replaceAll (hword []) fun v hv =>
    h v (List.mem_append_right _ hv)).allows hraw
  exact (patched_writeSlots d.mapped.length).allows hcleaned

/-- All wildcards leave a draft allowed if their texts may be put in. -/
theorem allows_substituteAll {captures : List (Wildcard × Text)} {d : Draft}
    (hd : e.Allows d.text) (h : ∀ v ∈ x.putByAll captures d, e.Admits v) :
    e.Allows (x.substituteAll captures d).text := by
  induction captures generalizing d with
  | nil => exact hd
  | cons capture captures ih =>
    exact ih (allows_substitute hd fun v hv => h v (List.mem_append_left _ hv))
      fun v hv => h v (List.mem_append_right _ hv)

/-- Filling slots with values that may be put in leaves a URL allowed. -/
theorem allows_fillSlots {values : List Text} {n : Nat} {s : Text} (hs : e.Allows s)
    (h : ∀ v ∈ values, e.Admits v) : e.Allows (fillSlots n values s) := by
  induction values generalizing n s with
  | nil => exact hs
  | cons value values ih =>
    refine ih ((Text.patched_replaceAll (enclosed_slot n) fun v hv => ?_).allows hs)
      fun v hv => h v (List.mem_cons_of_mem _ hv)
    obtain ⟨_, _, rfl⟩ := List.mem_map.1 hv
    exact h value List.mem_cons_self

/-- The URL of a site is put in front with a slash between. -/
theorem unmarked_absolutize {url : Text} (hsite : Unmarked x.site) (hurl : Unmarked url) :
    Unmarked (x.absolutize url) := by
  rw [absolutize]
  split
  · exact hurl
  · exact hsite.trim_slash_trim hurl _

/-- The URL of an expansion is unmarked if the template and the site are and the texts that are put
in are apart. -/
theorem unmarked_expand {destination : Text} {wildcards : List Wildcard} {values : List Text}
    {e : Expansion} (he : x.expand destination wildcards values = .ok e)
    (htemplate : Unmarked e.template) (hsite : Unmarked x.site)
    (h : Apart e.template (x.inserted e.template (wildcards.zip values))) : Unmarked e.url := by
  rw [expand] at he
  split at he
  · exact absurd he (by simp)
  · rename_i template _
    simp only at he
    split at he
    · exact absurd he (by simp)
    · rename_i url hselect
      obtain rfl := Except.ok.inj he
      have hadmits := h.admits
      simp only [inserted, List.forall_mem_append] at hadmits
      obtain ⟨⟨⟨hput, hmapped⟩, hmarkers⟩, hselectors⟩ := hadmits
      have hdraft := allows_substituteAll (h.allows htemplate).unbracket hput
      have happlied := (Text.patched_rewrite (fun _ _ _ => enclosed_of_markerForm) hmarkers).allows
        (hdraft.settleSlash template)
      have hfinish := allows_fillSlots (n := 0) happlied hmapped
      rw [select_eq] at hselect
      split at hselect
      · exact absurd hselect (by simp)
      · obtain rfl := Except.ok.inj hselect
        have hselected :=
          (Text.patched_rewrite (fun _ _ _ => enclosed_of_selectorForm) hselectors).allows hfinish
        exact unmarked_absolutize hsite hselected.unmarked

end Expander

/-! ### Paths -/

/-- A word that does not occur is not replaced. -/
theorem Text.replaceAll_of_not_infix {word new s : Text} (h : ¬ word <:+: s) :
    Text.replaceAll word new s = s := by
  induction s with
  | nil => rfl
  | cons c s ih =>
    have hfront : Text.startsWith word (c :: s) = false := by
      rw [Bool.eq_false_iff, ne_eq, Text.startsWith_iff]
      exact fun hprefix => h hprefix.isInfix
    rw [Text.replaceAll_cons new hfront,
      ih fun hwithin => h (hwithin.trans (List.suffix_cons c s).isInfix)]

/-- An unmarked text has no mark to take off. -/
theorem Unmarked.unmark_eq {s : Text} (h : Unmarked s) : unmark s = s := by
  refine Text.replaceAll_of_not_infix fun hmark => h ?_
  have hword : markWord <:+: entryMark.map fold := by decide
  exact hword.trans (hmark.map fold)

namespace Target

/-- A path below the mount path is an end of the request. -/
theorem unmount_withoutSlashes_suffix (root uri : Text) :
    unmount root (withoutSlashes uri) <:+ uri := by
  have hslashes : withoutSlashes uri <:+ uri := List.dropWhile_suffix _
  rw [unmount]
  split
  · exact hslashes
  · cases hafter : Text.after? (withoutSlashes root) (withoutSlashes uri) with
    | none => exact hslashes
    | some rest =>
      have : rest <:+ withoutSlashes uri := by
        rw [Text.after?_eq_some_iff.1 hafter]
        exact List.suffix_append _ rest
      exact this.trans hslashes

/-- With the mark taken off, the path to match is an end of the request. -/
theorem unmark_path_suffix {root uri path : Text} (huri : Unmarked uri)
    (h : ofUri root uri = .path path) : unmark path <:+ uri := by
  have hsuffix := unmount_withoutSlashes_suffix root uri
  have hpath : Unmarked (unmount root (withoutSlashes uri)) := huri.of_infix hsuffix.isInfix
  rw [ofUri, ofPath] at h
  split at h
  · exact absurd h (by simp)
  · split at h
    · rename_i c rest hafter
      split at h
      · -- the path continues behind the entry script
        obtain rfl := Target.path.inj h
        have hscript := Text.after?_eq_some_iff.1 hafter
        have hrest : Unmarked (c :: rest) :=
          hpath.of_infix (by rw [hscript]; exact (List.suffix_append _ _).isInfix)
        have hunmark : unmark (markedEntry ++ c :: rest) = entryScript ++ c :: rest := by
          have hmarked : unmark (markedEntry ++ c :: rest) = entryScript ++ unmark (c :: rest) := rfl
          rw [hmarked, hrest.unmark_eq]
        rw [hunmark, ← hscript]
        exact hsuffix
      · obtain rfl := Target.path.inj h
        rw [hpath.unmark_eq]
        exact hsuffix
    · obtain rfl := Target.path.inj h
      rw [hpath.unmark_eq]
      exact hsuffix

end Target

/-! ### Decisions -/

namespace Engine

variable {x : Engine} {rules : List Rule} {collections : Collections} {request : Request}
  {now : Instant} {path : Text} {diagnostic : Bool}

/-- The texts that a rule puts into its destination for a path are apart. -/
def PutsApart (x : Engine) (collections : Collections) (path : Text) (rule : Rule) : Prop :=
  ∀ expr values e, x.expr? (Pattern.compile rule.source) = .ok expr →
    expr.captures? path = some values →
    (x.expander collections).expand rule.destination (Pattern.compile rule.source).wildcards values =
      .ok e →
    Apart e.template ((x.expander collections).inserted e.template
      ((Pattern.compile rule.source).wildcards.zip values))

/-- The template of an expansion is that of its destination. -/
theorem template_of_expand {y : Expander} {destination : Text} {wildcards : List Wildcard}
    {values : List Text} {e : Expansion} (he : y.expand destination wildcards values = .ok e) :
    y.template destination = .ok e.template := by
  rw [Expander.expand] at he
  split at he
  · exact absurd he (by simp)
  · rename_i template htemplate
    simp only at he
    split at he
    · exact absurd he (by simp)
    · obtain rfl := Except.ok.inj he
      exact htemplate

/-- A template is the destination or the path of a page. -/
theorem unmarked_template {y : Expander} {destination template : Text}
    (h : y.template destination = .ok template) (hdestination : Unmarked destination)
    (hpages : ∀ id page, y.directory.page id = some page → Unmarked page) : Unmarked template := by
  rw [Expander.template] at h
  split at h
  · obtain rfl := Except.ok.inj h
    exact hdestination
  · split at h
    · exact absurd h (by simp)
    · split at h
      · exact absurd h (by simp)
      · rename_i page hpage
        obtain rfl := Except.ok.inj h
        exact hpages _ _ hpage

/-- A page of the legacy site has an unmarked URL for an unmarked path. -/
theorem unmarked_fallback {url : Text} (hpath : Unmarked path)
    (hlegacy : ∀ l, x.legacy = some l → Unmarked l.domain)
    (h : (x.fallback diagnostic path).url? = some url) : Unmarked url := by
  rcases hsite : x.legacy with _ | l
  · rw [fallback_unknown hsite] at h
    exact absurd h (by simp [Decision.url?])
  · have hurl : Unmarked (l.url path) := by
      rw [Legacy.url]
      exact (hlegacy l hsite).trim_slash_trim hpath _
    have hcheck : ∀ hit, l.check path = some hit → hit.url = l.url path := by
      intro hit hhit
      rw [Legacy.check] at hhit
      split at hhit
      · obtain ⟨_, hhit⟩ := Option.ite_none_right_eq_some.1 hhit
        rw [← Option.some.inj hhit]
      · exact absurd hhit (by simp)
    rw [fallback, hsite, Option.bind_some] at h
    split at h
    · exact absurd h (by simp [Decision.url?])
    · rename_i hit hhit
      split at h <;>
        · obtain rfl := Option.some.inj h
          rw [hcheck hit hhit]
          exact hurl

/-- **The mark stays in.** If the word of the mark occurs neither in the request nor in the root, the
site, the legacy domain, the destinations and the pages, then it does not occur in the URL of the
decision, provided that the texts which the deciding rule puts into its destination do not hold it and
cannot make it up. -/
theorem unmarked_pass (x : Engine) (diagnostic : Bool) (rules : List Rule)
    (collections : Collections) (request : Request) (now : Instant) (huri : Unmarked request.uri)
    (hroot : Unmarked x.root) (hsite : Unmarked x.site)
    (hlegacy : ∀ l, x.legacy = some l → Unmarked l.domain)
    (hrules : ∀ rule ∈ rules, Unmarked rule.destination)
    (hpages : ∀ id page, x.directory.page id = some page → Unmarked page)
    (happart : ∀ path i rule, Target.ofUri x.root request.uri = .path path →
      x.DecidedBy collections now path rules i → rules[i]? = some rule →
        x.PutsApart collections path rule) :
    ∀ p url, x.pass diagnostic rules collections request now = some p →
      p.decision.url? = some url → Unmarked url := by
  intro p url hp h
  rcases htarget : Target.ofUri x.root request.uri with _ | path
  · rw [pass_entry htarget] at hp
    obtain rfl := Option.some.inj hp
    obtain rfl := Option.some.inj h
    exact hroot
  rcases x.exists_course collections now path rules with
    ⟨i, hdecided⟩ | ⟨i, hbroken⟩ | hpassed
  · obtain ⟨rule, hrule, e, he⟩ := hdecided.1
    obtain ⟨ts, t, -, -, -, hpass⟩ := pass_rule htarget hdecided hrule he
    obtain rfl := Option.some.inj ((hpass _).symm.trans hp)
    obtain rfl := Option.some.inj h
    obtain ⟨expr, values, hexpr, hvalues, -, -, -, hexpand⟩ := he
    have htemplate := unmarked_template (template_of_expand hexpand)
      (hrules rule (List.mem_of_getElem? hrule)) hpages
    exact Expander.unmarked_expand hexpand htemplate hsite
      (happart path i rule htarget hdecided hrule expr values e hexpr hvalues hexpand)
  · rw [pass_broken htarget hbroken] at hp
    cases hp
  · obtain ⟨ts, -, hpass⟩ := pass_fallback htarget hpassed
    obtain rfl := Option.some.inj ((hpass _).symm.trans hp)
    exact unmarked_fallback (huri.of_infix (Target.unmark_path_suffix huri htarget).isInfix) hlegacy h

/-- An engine of a site at the root that cleans what is captured. -/
def cleaningEngine : Engine := ⟨['/'], [], false, true, ⟨.fullClean, false⟩, none, .empty⟩

/-- A request for a path behind the entry script. -/
def scriptRequest : Request := ⟨"/index.php/foo".toList, none, none⟩

/-- A rule with the entry script in its source captures only what stands behind it. -/
def scriptRule : Rule := Rule.new 1 "index.php/\x7bp:all\x7d".toList "/x/\x7bp\x7d".toList

/-- What is captured behind the entry script comes out without the mark. -/
theorem unmarked_pass_script :
    (cleaningEngine.pass false [scriptRule] [] scriptRequest ⟨0, 0⟩).map Pass.decision =
        some (.redirect "/x/foo".toList true (some 1)) ∧
      Unmarked "/x/foo".toList := by
  have hdecision : (cleaningEngine.pass false [scriptRule] [] scriptRequest ⟨0, 0⟩).map Pass.decision =
      some (.redirect "/x/foo".toList true (some 1)) := by decide +kernel
  obtain ⟨p, hp, hredirect⟩ := Option.map_eq_some_iff.1 hdecision
  refine ⟨hdecision, unmarked_pass cleaningEngine false [scriptRule] [] scriptRequest ⟨0, 0⟩
    (by decide) (by decide) (by decide) (by simp [cleaningEngine]) (by decide) (fun _ _ h => by cases h)
    ?_ p _ hp (by rw [hredirect]; rfl)⟩
  intro path i rule htarget _ hrule expr values e hexpr hvalues hexpand
  obtain rfl : rule = scriptRule := by simpa using List.mem_of_getElem? hrule
  obtain rfl : "index.php.jumplink/foo".toList = path := by
    have htarget' : Target.ofUri cleaningEngine.root scriptRequest.uri =
        .path "index.php.jumplink/foo".toList := by decide
    exact Target.path.inj (htarget'.symm.trans htarget)
  obtain rfl : values = ["foo".toList] := by
    have hcaptures : ((cleaningEngine.expr? (Pattern.compile scriptRule.source)).toOption.bind fun expr =>
        expr.captures? "index.php.jumplink/foo".toList) = some ["foo".toList] := by decide +kernel
    rw [hexpr, Except.toOption, Option.bind_some, hvalues] at hcaptures
    exact Option.some.inj hcaptures
  have htemplate : e.template = "/x/\x7bp\x7d".toList :=
    (Except.ok.inj (template_of_expand hexpand)).symm
  rw [htemplate]
  refine ⟨by decide +kernel, fun part c hne hword hends => ?_⟩
  -- no beginning of the word ends at a seam
  have hnone : ∀ part ∈ markWord.inits, part ≠ [] → ¬ EndsAtSeam "/x/\x7bp\x7d".toList
      ((cleaningEngine.expander []).inserted "/x/\x7bp\x7d".toList
        ((Pattern.compile scriptRule.source).wildcards.zip ["foo".toList])) part := by decide +kernel
  exact absurd hends
    (hnone part ((List.mem_inits _ _).2 ((List.prefix_append part [c]).trans hword)) hne)

/-- A rule that captures the whole path and puts it in as it is. -/
def wholeRule : Rule := Rule.new 1 "\x7bp:all\x7d".toList "/x/\x7b!p\x7d".toList

/-- What is captured with the entry script comes out with the mark. -/
theorem pass_marked :
    Unmarked scriptRequest.uri ∧ Unmarked cleaningEngine.root ∧ Unmarked cleaningEngine.site ∧
      cleaningEngine.legacy = none ∧ Unmarked wholeRule.source ∧ Unmarked wholeRule.destination ∧
      (∀ id, cleaningEngine.directory.page id = none) ∧
      (∀ s, cleaningEngine.directory.selector s = none) ∧
      (cleaningEngine.pass false [wholeRule] [] scriptRequest ⟨0, 0⟩).map Pass.decision =
        some (.redirect "/x/index.php.jumplink/foo".toList true (some 1)) ∧
      ¬ Unmarked "/x/index.php.jumplink/foo".toList := by
  refine ⟨by decide, by decide, by decide, rfl, by decide, by decide, fun _ => rfl, fun _ => rfl, ?_,
    by decide⟩
  decide +kernel

end Engine

end Detour
