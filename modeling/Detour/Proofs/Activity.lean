import Detour.Engine
import Detour.Proofs.Civil

/-!
# When a rule is active

A rule is active between the instants that its stored bounds denote, both included. How the bounds are
written does not matter, and the window that is shown for an instant has made-up ends only where they
are met. Of a rule with a beginning only there is no telling in the last hour of all.

* `Activation.IsBound`: the instant, if there is one, that a stored bound denotes. There is just one such
  answer (`Activation.isBound_iff`).
* `Activation.window_eq_some_iff`: the ends of windows, stored or made up.
* `Activation.ofRule_interval` puts this together: the instants at which a rule is active are an interval.
-/

namespace Detour

namespace Instant

/-- The order of instants is that of their seconds, and within a second that of its parts. -/
theorem le_iff {a b : Instant} :
    a.le b ↔ a.seconds < b.seconds ∨ a.seconds = b.seconds ∧ a.nanos ≤ b.nanos := by
  simp [le]

/-- An instant is not before another one exactly if that is not behind it. -/
theorem not_lt {a b : Instant} : ¬ a.lt b ↔ b.le a := by
  simp [lt]

/-- What is not behind something is not behind what comes later. -/
theorem le_trans {a b c : Instant} (hab : a.le b) (hbc : b.le c) : a.le c := by
  rw [le_iff] at hab hbc ⊢
  omega

/-- Whether there is an instant one hour later is a matter of seconds. -/
theorem plusHour?_eq_none_iff {t : Instant} : t.plusHour? = none ↔
    (⟨t.seconds + 3600, 0⟩ : Instant).isInRange = false := by
  rw [plusHour?, Option.filter_eq_none_iff]
  simp [isInRange]

/-- Between two instants with others one hour later there is none without. -/
theorem plusHour?_between {a b c : Instant} (hab : a.le b) (hbc : b.le c) (ha : a.plusHour? ≠ none)
    (hc : c.plusHour? ≠ none) : b.plusHour? ≠ none := by
  rw [le_iff] at hab hbc
  simp only [Ne, plusHour?_eq_none_iff, isInRange, Bool.not_eq_false, Bool.and_eq_true,
    decide_eq_true_eq] at ha hc ⊢
  omega

end Instant

namespace Activation

/-- Whether `b` is what a stored bound comes to: the instant that its text denotes, and none if there is no
text or if that denotes none. -/
def IsBound (raw : Option Text) (b : Option Instant) : Prop :=
  ∀ t, b = some t ↔ ∃ s, raw = some s ∧ Instant.DenotesBound s t

/-- A bound comes to what is read of it. -/
theorem isBound_iff {raw : Option Text} {b : Option Instant} :
    IsBound raw b ↔ raw.bind Instant.readStored? = b := by
  have hread (t : Instant) : raw.bind Instant.readStored? = some t ↔
      ∃ s, raw = some s ∧ Instant.DenotesBound s t := by
    rw [Option.bind_eq_some_iff]
    exact exists_congr fun s => and_congr_right fun _ => Instant.readStored?_eq_some_iff
  constructor
  · intro h
    exact Option.ext fun t => (hread t).trans (h t).symm
  · rintro rfl t
    exact hread t

/-- The activation of bounds depends only on what they come to. -/
theorem ofStored_eq {start stop : Option Text} {a b : Option Instant} (ha : IsBound start a)
    (hb : IsBound stop b) : ofStored start stop = ofBounds a b := by
  rw [ofStored, isBound_iff.1 ha, isBound_iff.1 hb]

/-- **The windows** of an activation: there are some unless both bounds are absent; an end that is not
stored is made up, the beginning as the instant itself and the end as one hour later. -/
theorem window_eq_some_iff {start stop : Option Instant} {now : Instant} {w : Window} :
    (ofBounds start stop).window now = some w ↔ (start ≠ none ∨ stop ≠ none) ∧
      w.start = start.getD now ∧ (stop <|> now.plusHour?) = some w.stop ∧
      (w.openEnded ↔ stop = none) := by
  obtain ⟨first, last, openEnded⟩ := w
  cases start <;> cases stop <;> cases openEnded <;> rcases h : now.plusHour? with _ | later <;>
    simp [ofBounds, window, window?, h, eq_comm]

/-- Between two instants at which an activation has begun and not ended there is no other instant. -/
theorem isActive_between {start stop : Option Instant} {a b c : Instant} (hab : a.le b) (hbc : b.le c)
    (ha : (ofBounds start stop).isActive a) (hc : (ofBounds start stop).isActive c) :
    (ofBounds start stop).isActive b := by
  rw [isActive_ofBounds, ← Bool.not_eq_true, overruns_ofBounds] at ha hc ⊢
  obtain ⟨ha, hstart, -⟩ := ha
  obtain ⟨hc, -, hstop⟩ := hc
  refine ⟨fun ⟨hone, hnone, hb⟩ => ?_, fun t ht => Instant.le_trans (hstart t ht) hab,
    fun t ht => Instant.le_trans hbc (hstop t ht)⟩
  exact Instant.plusHour?_between hab hbc (fun h => ha ⟨hone, hnone, h⟩) (fun h => hc ⟨hone, hnone, h⟩) hb

/-- **The instants at which a rule is active are an interval**: those that are not before its beginning, if
it has one, and not behind its end, if it has one. The bounds are the instants that the stored texts
denote; redirects are permanent exactly if there are none. A made-up end of a window is always met, and
with other texts for the same instants the rule does the same with each request. There is no answer only
for a rule with a beginning and no end, at instants that have no other one hour later. -/
theorem ofRule_interval (r : Rule) :
    ∃ start stop, IsBound r.start start ∧ IsBound r.stop stop ∧
      (∀ now, (ofRule r).isActive now ↔ (ofRule r).overruns now = false ∧
        (∀ t, start = some t → ¬ now.lt t) ∧ (∀ t, stop = some t → ¬ t.lt now)) ∧
      (∀ now, (ofRule r).overruns now ↔ start ≠ none ∧ stop = none ∧ now.plusHour? = none) ∧
      ((ofRule r).isPermanent ↔ start = none ∧ stop = none) ∧
      (∀ now w, (ofRule r).window now = some w →
        w.start = start.getD now ∧ (stop <|> now.plusHour?) = some w.stop ∧
        (start = none → ¬ now.lt w.start) ∧ (stop = none → ¬ w.stop.lt now)) ∧
      (∀ a b c : Instant, a.le b → b.le c → (ofRule r).isActive a → (ofRule r).isActive c →
        (ofRule r).isActive b) ∧
      ∀ first last, IsBound first start → IsBound last stop →
        ofStored first last = ofRule r ∧
        ∀ (x : Engine) (collections : Collections) (now : Instant) (path : Text),
          x.tried collections now path { r with start := first, stop := last } =
            x.tried collections now path r := by
  have hrule : ofRule r =
    ofBounds (r.start.bind Instant.readStored?) (r.stop.bind Instant.readStored?) := rfl
  have hstart := isBound_iff.2 (Eq.refl (r.start.bind Instant.readStored?))
  have hstop := isBound_iff.2 (Eq.refl (r.stop.bind Instant.readStored?))
  refine ⟨_, _, hstart, hstop, ?_, ?_, ?_, ?_, ?_, ?_⟩
  · intro now
    simp only [Instant.not_lt]
    exact isActive_ofBounds
  · exact fun now => overruns_ofBounds
  · exact isPermanent_ofBounds
  · intro now w hw
    obtain ⟨-, hfirst, hlast, -⟩ := window_eq_some_iff.1 hw
    refine ⟨hfirst, hlast, fun hnone => ?_, fun hnone => ?_⟩
    · rw [hfirst, hnone, Instant.not_lt]
      exact Instant.le_refl now
    · rw [hnone] at hlast
      exact Instant.not_lt.2 (Instant.le_of_plusHour? hlast)
  · intro a b c hab hbc ha hc
    exact isActive_between hab hbc ha hc
  · intro first last hfirst hlast
    have hsame : ofStored first last = ofRule r := (ofStored_eq hfirst hlast).trans hrule.symm
    refine ⟨hsame, fun x collections now path => ?_⟩
    have houtcome : ofRule { r with start := first, stop := last } = ofRule r := hsame
    simp only [Engine.tried, Engine.outcome, houtcome]

/-- A beginning with an offset, in universal time, and on its own date. -/
example : (["2024-02-29T01:00:00+01:00", "2024-02-29 00:00:00", "2024-2-29"].map fun s =>
    Instant.readStored? s.toList) = List.replicate 3 (some ⟨1709164800, 0⟩) := by decide +kernel

end Activation

end Detour
