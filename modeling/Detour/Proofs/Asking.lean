import Detour.Config.Fault
import Detour.Proofs.Mark

/-!
# What the legacy site is asked for

A request that no rule redirects is asked of the legacy site. Its path was marked for matching if it goes
on behind the entry script, and every mark is taken off before the site is asked.

* `Target.unmark_path` says that taking off the marks undoes the marking of the entry script, and
  `length_unmark_lt` that it does more wherever the request itself holds the text of the mark.
* `Legacy.url_unmark_eq_iff`: the page that is asked for is the one that was requested exactly if the
  request does not hold that text.
* `Engine.asked_pass`: what a pass asks for, and what becomes of the answer.
-/

namespace Detour

/-! ### Taking marks off -/

/-- A character that no mark begins with stays in front. -/
theorem unmark_cons {c : Char} (s : Text) (hc : c ≠ '.') : unmark (c :: s) = c :: unmark s :=
  Text.replaceAll_cons [] (Text.startsWith_cons_of_ne _ s (Ne.symm hc))

/-- A text does not grow when marks are taken off. -/
theorem length_unmark_le (s : Text) : (unmark s).length ≤ s.length := by
  rw [unmark, Text.replaceAll_eq_rewrite]
  induction s using Text.walk_induction (Text.wordForm entryMark) with
  | nil => exact le_refl _
  | plain c s hnone ih =>
    rw [Text.rewrite_cons _ hnone]
    exact Nat.succ_le_succ ih
  | hit c s m size hfound ih =>
    rw [Text.rewrite_hit _ hfound, List.nil_append]
    exact ih.trans ((List.drop_suffix _ s).length_le.trans (Nat.le_succ _))

/-- A text that holds a mark gets shorter when marks are taken off. -/
theorem length_unmark_lt {s : Text} (h : entryMark <:+: s) : (unmark s).length < s.length := by
  induction s using Text.walk_induction (Text.wordForm entryMark) with
  | nil => exact absurd (List.infix_nil.1 h) (by decide)
  | plain c s hnone ih =>
    have hfront : Text.startsWith entryMark (c :: s) = false := by
      simpa [Text.wordForm] using hnone
    have hbehind : entryMark <:+: s := by
      refine (List.infix_cons_iff.1 h).resolve_left fun hprefix => ?_
      rw [Text.startsWith_iff.2 hprefix] at hfront
      exact absurd hfront (by simp)
    rw [unmark, Text.replaceAll_cons [] hfront]
    exact Nat.succ_lt_succ (ih hbehind)
  | hit c s m size hfound _ =>
    have hgone : unmark (c :: s) = unmark (s.drop (size - 1)) := by
      rw [unmark, unmark, Text.replaceAll_eq_rewrite, Text.replaceAll_eq_rewrite,
        Text.rewrite_hit _ hfound, List.nil_append]
    rw [hgone]
    exact Nat.lt_succ_of_le ((length_unmark_le _).trans (List.drop_suffix _ s).length_le)

namespace Target

/-- A text that does not begin with a slash has none to take off. -/
theorem withoutSlashes_cons {c : Char} (s : Text) (hc : c ≠ '/') :
    withoutSlashes (c :: s) = c :: s := by
  simp [withoutSlashes, Text.trimStart, hc]

/-- Leading slashes are none of a mark. -/
theorem withoutSlashes_unmark (s : Text) :
    withoutSlashes (unmark s) = withoutSlashes (unmark (withoutSlashes s)) := by
  induction s with
  | nil => rfl
  | cons c s ih =>
    by_cases hc : c = '/'
    · subst hc
      rw [unmark_cons s (by decide)]
      exact ih
    · rw [withoutSlashes_cons s hc]

/-- A mark is found behind leading slashes as well. -/
theorem mark_infix_withoutSlashes {s : Text} (h : entryMark <:+: s) :
    entryMark <:+: withoutSlashes s := by
  induction s with
  | nil => exact h
  | cons c s ih =>
    by_cases hc : c = '/'
    · subst hc
      refine ih ((List.infix_cons_iff.1 h).resolve_left ?_)
      rintro ⟨rest, hrest⟩
      exact absurd (List.cons.inj hrest).1 (by decide)
    · rwa [withoutSlashes_cons s hc]

/-- The mark of a target is taken off with the others. -/
theorem unmark_ofPath {path marked : Text} (h : ofPath path = .path marked) :
    unmark marked = unmark path := by
  rw [ofPath] at h
  split at h
  · exact absurd h (by simp)
  · split at h
    · rename_i c rest hafter
      split at h
      · -- the path goes on behind the entry script
        obtain rfl := Target.path.inj h
        rw [Text.after?_eq_some_iff.1 hafter]
        rfl
      · obtain rfl := Target.path.inj h
        rfl
    · obtain rfl := Target.path.inj h
      rfl

/-- Without marks, the path to match is the request below the mount path without marks. -/
theorem unmark_path {root uri path : Text} (h : ofUri root uri = .path path) :
    unmark path = unmark (unmount root (withoutSlashes uri)) := unmark_ofPath h

end Target

/-! ### Asking -/

namespace Legacy

/-- The URL of a page with marks taken off is that of the page exactly if there are none. -/
theorem url_unmark_eq_iff (l : Legacy) (s : Text) :
    l.url (unmark s) = l.url s ↔ ¬ entryMark <:+: s := by
  refine ⟨?_, ?_⟩
  · intro hurl hmark
    have hpath : Target.withoutSlashes (unmark s) = Target.withoutSlashes s :=
      List.append_cancel_left hurl
    have hdropped : Target.withoutSlashes (unmark s) <:+ unmark (Target.withoutSlashes s) := by
      rw [Target.withoutSlashes_unmark]
      exact List.dropWhile_suffix _
    have hshorter := length_unmark_lt (Target.mark_infix_withoutSlashes hmark)
    rw [hpath] at hdropped
    exact absurd hdropped.length_le hshorter.not_ge
  · intro hnone
    have hkept : unmark s = s := Text.replaceAll_of_not_infix hnone
    rw [hkept]

end Legacy

namespace Engine

variable {x : Engine} {diagnostic : Bool} {path : Text} {l : Legacy}

/-- A legacy site that has the page decides for it. -/
theorem fallback_found {status : UInt16} (h : x.legacy = some l)
    (hstatus : l.probe (l.url path) = some status) (haccepted : status ∈ l.accepted) :
    x.fallback diagnostic path =
      if diagnostic then .wouldRedirect (l.url path) status
      else .redirect (l.url path) false none := by
  cases diagnostic with
  | false => exact fallback_accepted h hstatus haccepted
  | true => exact fallback_reported h hstatus haccepted

/-- **What the legacy site is asked for.** A request that no rule redirects is asked of the legacy site,
and the URL that it is asked for is also the one that the request is sent to, or that is reported, if the
answer is accepted. It is the domain without trailing slashes, one slash, and the requested path without
marks; so it is the requested path itself exactly if that does not hold the text of the mark. With an hour
ahead the pass does not break down. -/
theorem asked_pass (x : Engine) (diagnostic : Bool) (rules : List Rule) (collections : Collections)
    (request : Request) (now : Instant) (hlegacy : x.legacy = some l)
    (htarget : Target.ofUri x.root request.uri = .path path)
    (hrules : ∀ rule ∈ rules, ∀ e, ¬ x.Redirects collections now path rule e) :
    let below := Target.unmount x.root (Target.withoutSlashes request.uri)
    let pass := x.pass diagnostic rules collections request now
    ∃ url, url = Text.trimEnd (· == '/') l.domain ++ ['/'] ++ Target.withoutSlashes (unmark below) ∧
      (url = Text.trimEnd (· == '/') l.domain ++ ['/'] ++ Target.withoutSlashes below ↔
        ¬ entryMark <:+: below) ∧
      (now.plusHour? ≠ none → ∃ p, pass = some p) ∧
      ∀ p, pass = some p → p.asked = some url ∧
        (∀ status ∈ l.accepted, l.probe url = some status →
          p.decision = if diagnostic then .wouldRedirect url status else .redirect url false none) ∧
        ((∀ status ∈ l.accepted, l.probe url ≠ some status) → p.decision = .noMatch) := by
  intro below pass
  refine ⟨l.url (unmark below), rfl, l.url_unmark_eq_iff below, exists_pass, fun p hp => ?_⟩
  have hp : x.pass diagnostic rules collections request now = some p := hp
  rcases x.exists_course collections now path rules with
    ⟨i, ⟨rule, hrule, e, he⟩, -⟩ | ⟨i, hbroken⟩ | hpassed
  · exact absurd he (hrules rule (List.mem_of_getElem? hrule) e)
  · rw [pass_broken htarget hbroken] at hp
    cases hp
  · obtain ⟨ts, -, hpass⟩ := pass_fallback htarget hpassed
    obtain rfl := Option.some.inj ((hpass _).symm.trans hp)
    rw [Target.unmark_path htarget]
    refine ⟨by rw [hlegacy, Option.map_some], ?_, fallback_refused hlegacy⟩
    intro status haccepted hprobe
    exact fallback_found hlegacy hprobe haccepted

/-- An engine of a site mounted below its host, with a legacy site that has every page. -/
def movedEngine : Engine :=
  ⟨"/site/".toList, [], false, true, ⟨.fullClean, false⟩,
    some ⟨"http://old.example.com/".toList, Legacy.usualStatuses, fun _ => some 200⟩, .empty⟩

/-- A rule for pages with a number. -/
def numberRule : Rule := Rule.new 1 "notes/\x7bid\x7d".toList "/n/\x7bid\x7d".toList

/-- A rule that does not match a path does not redirect it. -/
theorem not_redirects_of_noMatch {collections : Collections} {now : Instant} {rule : Rule}
    (h : x.outcome collections now path rule (Pattern.compile rule.source) = some .noMatch)
    (e : Expansion) : ¬ x.Redirects collections now path rule e := by
  intro he
  have hmatched := outcome_eq_matched_iff.2 ⟨e, he, rfl, rfl, rfl⟩
  rw [h] at hmatched
  cases hmatched

/-- A request behind the entry script is sent to the same page of the legacy site. -/
theorem asked_pass_script :
    ∃ p, movedEngine.pass false [numberRule] [] ⟨"/site/index.php/notes".toList, none, none⟩
        ⟨0, 0⟩ = some p ∧
      p.asked = some "http://old.example.com/index.php/notes".toList ∧
      p.decision = .redirect "http://old.example.com/index.php/notes".toList false none := by
  have htarget : Target.ofUri movedEngine.root "/site/index.php/notes".toList =
      .path "index.php.jumplink/notes".toList := by decide
  have hrules : ∀ rule ∈ [numberRule], ∀ e, ¬ movedEngine.Redirects [] ⟨0, 0⟩
      "index.php.jumplink/notes".toList rule e := by
    intro rule hrule
    rw [List.mem_singleton.1 hrule]
    exact not_redirects_of_noMatch (by decide +kernel)
  obtain ⟨url, -, hurl, hpass, hasked⟩ :=
    asked_pass movedEngine false [numberRule] [] ⟨"/site/index.php/notes".toList, none, none⟩ ⟨0, 0⟩
      rfl htarget hrules
  have hnone : ¬ entryMark <:+: Target.unmount movedEngine.root
      (Target.withoutSlashes "/site/index.php/notes".toList) := by decide
  obtain rfl : url = "http://old.example.com/index.php/notes".toList := hurl.2 hnone
  obtain ⟨p, hp⟩ := hpass (by decide)
  obtain ⟨hurl, hfound, -⟩ := hasked p hp
  exact ⟨p, hp, hurl, hfound 200 (by decide) rfl⟩

/-- A request that holds the text of the mark is asked for, and sent to, another page. -/
theorem asked_pass_marked :
    let request : Request := ⟨"/notes.jumplink/2019".toList, none, none⟩
    let pass := movedEngine.pass false [numberRule] [] request ⟨0, 0⟩
    Config.isRoot movedEngine.root ∧
      Target.ofUri movedEngine.root request.uri = .path "notes.jumplink/2019".toList ∧
      (∀ rule ∈ [numberRule], ∀ e, ¬ movedEngine.Redirects [] ⟨0, 0⟩
        "notes.jumplink/2019".toList rule e) ∧
      Text.trimEnd (· == '/') "http://old.example.com/".toList ++ ['/'] ++
          Target.withoutSlashes (Target.unmount movedEngine.root
            (Target.withoutSlashes request.uri)) =
        "http://old.example.com/notes.jumplink/2019".toList ∧
      pass.map Pass.asked = some (some "http://old.example.com/notes/2019".toList) ∧
      pass.map Pass.decision =
        some (.redirect "http://old.example.com/notes/2019".toList false none) := by
  have hrules : ∀ rule ∈ [numberRule], ∀ e, ¬ movedEngine.Redirects [] ⟨0, 0⟩
      "notes.jumplink/2019".toList rule e := by
    intro rule hrule
    rw [List.mem_singleton.1 hrule]
    exact not_redirects_of_noMatch (by decide +kernel)
  refine ⟨by decide, by decide, hrules, by decide, ?_, ?_⟩
  · decide +kernel
  · decide +kernel

end Engine

end Detour
