import Detour.Proofs.Matching
import Detour.Wildcard.Kind
import Mathlib.Data.List.Basic

/-!
# The texts an expression reads

Expressions without assertions and groups are fully described by a set of texts: such an expression
leads from one position of a text to another exactly if the part between them belongs to the set.

* `Expr.Reads` says that of an expression and a set of texts; there is one fact for each way of
  putting expressions together.
* `Kind.Takes` is what a wildcard of a kind takes, said without expressions.
* `Kind.reads_expr`: the expression of a kind reads what the kind takes.
-/

namespace Detour

/-- Whether two texts are the same up to letter case. -/
def Alike (v w : Text) : Prop := v.map fold = w.map fold

/-- A nonempty text of characters of a class. -/
def Filled (p : Char → Bool) (v : Text) : Prop := v ≠ [] ∧ ∀ c ∈ v, p c

namespace Expr

/-- The expression leads from one position of a text to another exactly if the part between them is
one of the texts, and captures nothing. -/
def Reads (e : Expr) (language : Text → Prop) : Prop :=
  ∀ ⦃s : Text⦄ ⦃i j : Nat⦄ ⦃ns : Plan.Notes⦄, i ≤ s.length →
    ((Plan.ofExpr s e).Runs i j ns ↔
      ns = [] ∧ ∃ v rest, language v ∧ s.drop i = v ++ rest ∧ j = i + v.length)

/-- A part that begins at a position of a text ends at one, and the rest stands behind it. -/
theorem drop_of_drop_eq_append {s v rest : Text} {i : Nat} (hi : i ≤ s.length)
    (h : s.drop i = v ++ rest) : i + v.length ≤ s.length ∧ s.drop (i + v.length) = rest := by
  refine ⟨?_, ?_⟩
  · have := congrArg List.length h
    simp only [List.length_drop, List.length_append] at this
    omega
  · rw [← List.drop_drop, h, List.drop_left]

/-- A character of a set stands between two positions exactly if it is the next one. -/
theorem runs_one {set : CharSet} {s : Text} {i j : Nat} {ns : Plan.Notes} :
    (Plan.ofExpr s (.one set)).Runs i j ns ↔
      ns = [] ∧ ∃ c rest, set.has c ∧ s.drop i = c :: rest ∧ j = i + 1 := by
  simp only [Plan.ofExpr, Plan.Runs, testBit_placesOf, Option.any_eq_true]
  refine ⟨?_, ?_⟩
  · rintro ⟨⟨c, hc, hset⟩, rfl, rfl⟩
    obtain ⟨hi, rfl⟩ := List.getElem?_eq_some_iff.1 hc
    exact ⟨rfl, s[i], s.drop (i + 1), hset, List.drop_eq_getElem_cons hi, rfl⟩
  · rintro ⟨rfl, c, rest, hset, hdrop, rfl⟩
    refine ⟨⟨c, ?_, hset⟩, rfl, rfl⟩
    have := congrArg List.head? hdrop
    rwa [List.head?_drop] at this

/-- The empty expression reads the empty text. -/
theorem reads_empty : Reads .empty (· = []) := by
  intro s i j ns hi
  simp only [Plan.ofExpr, Plan.Runs, testBit_allPlaces]
  refine ⟨?_, ?_⟩
  · rintro ⟨_, rfl, rfl⟩
    exact ⟨rfl, [], s.drop j, rfl, rfl, rfl⟩
  · rintro ⟨rfl, _, _, rfl, _, rfl⟩
    exact ⟨hi, rfl, rfl⟩

/-- A set reads each of its characters. -/
theorem reads_one (set : CharSet) : Reads (.one set) fun v => ∃ c, set.has c ∧ v = [c] := by
  intro s i j ns _
  rw [runs_one]
  refine and_congr_right fun _ => ?_
  refine ⟨?_, ?_⟩
  · rintro ⟨c, rest, hset, hdrop, rfl⟩
    exact ⟨[c], rest, ⟨c, hset, rfl⟩, hdrop, rfl⟩
  · rintro ⟨_, rest, ⟨c, hset, rfl⟩, hdrop, rfl⟩
    exact ⟨c, rest, hset, hdrop, rfl⟩

/-- A sequence reads a text of its first part with one of its second part behind. -/
theorem Reads.seq {a b : Expr} {k l : Text → Prop} (ha : Reads a k) (hb : Reads b l) :
    Reads (.seq a b) fun u => ∃ v w, k v ∧ l w ∧ u = v ++ w := by
  intro s i m ns hi
  simp only [Plan.ofExpr, Plan.Runs]
  refine ⟨?_, ?_⟩
  · rintro ⟨j, ms, ls, hra, hrb, rfl⟩
    obtain ⟨rfl, v, rest, hv, hdrop, rfl⟩ := (ha hi).1 hra
    obtain ⟨hj, hrest⟩ := drop_of_drop_eq_append hi hdrop
    obtain ⟨rfl, w, rest', hw, hdrop', rfl⟩ := (hb hj).1 hrb
    refine ⟨rfl, v ++ w, rest', ⟨v, w, hv, hw, rfl⟩, ?_, ?_⟩
    · rw [hdrop, ← hrest, hdrop', List.append_assoc]
    · rw [List.length_append, Nat.add_assoc]
  · rintro ⟨rfl, _, rest, ⟨v, w, hv, hw, rfl⟩, hdrop, rfl⟩
    rw [List.append_assoc] at hdrop
    obtain ⟨hj, hrest⟩ := drop_of_drop_eq_append hi hdrop
    refine ⟨i + v.length, [], [], (ha hi).2 ⟨rfl, v, w ++ rest, hv, hdrop, rfl⟩,
      (hb hj).2 ⟨rfl, w, rest, hw, hrest, ?_⟩, rfl⟩
    rw [List.length_append, Nat.add_assoc]

/-- A choice reads what either branch reads. -/
theorem Reads.alt {a b : Expr} {k l : Text → Prop} (ha : Reads a k) (hb : Reads b l) :
    Reads (.alt a b) fun v => k v ∨ l v := by
  intro s i j ns hi
  simp only [Plan.ofExpr, Plan.Runs]
  rw [ha hi, hb hi]
  refine ⟨?_, ?_⟩
  · rintro (⟨hns, v, rest, hv, h⟩ | ⟨hns, v, rest, hv, h⟩)
    · exact ⟨hns, v, rest, .inl hv, h⟩
    · exact ⟨hns, v, rest, .inr hv, h⟩
  · rintro ⟨hns, v, rest, hv | hv, h⟩
    · exact .inl ⟨hns, v, rest, hv, h⟩
    · exact .inr ⟨hns, v, rest, hv, h⟩

/-- What is read does not change when the set of texts is written another way. -/
theorem Reads.congr {e : Expr} {k l : Text → Prop} (he : Reads e k) (h : ∀ v, k v ↔ l v) :
    Reads e l := by
  intro s i j ns hi
  rw [he hi]
  simp only [h]

/-- One round or more of a set read a nonempty text of its characters. -/
theorem reads_some (set : CharSet) : Reads (.rep 1 none (.one set)) (Filled set.has) := by
  intro s i j ns hi
  have hone := reads_one set
  change Plan.Rounds (fun k l ms => (Plan.ofExpr s (.one set)).Runs k l ms) i j ns ↔ _
  refine ⟨?_, ?_⟩
  · intro h
    induction h with
    | last h =>
      obtain ⟨rfl, _, rest, ⟨c, hc, rfl⟩, hdrop, rfl⟩ := (hone hi).1 h
      exact ⟨rfl, [c], rest, ⟨by simp, by simpa using hc⟩, hdrop, rfl⟩
    | more h _ ih =>
      obtain ⟨rfl, _, rest, ⟨c, hc, rfl⟩, hdrop, rfl⟩ := (hone hi).1 h
      obtain ⟨hj, hrest⟩ := drop_of_drop_eq_append hi hdrop
      obtain ⟨rfl, v, rest', hv, hdrop', rfl⟩ := ih hj
      refine ⟨rfl, c :: v, rest', ⟨by simp, ?_⟩, ?_, ?_⟩
      · simpa using ⟨hc, hv.2⟩
      · rw [hdrop, ← hrest, hdrop']
        rfl
      · simp only [List.length_cons, List.length_nil]
        omega
  · rintro ⟨rfl, v, rest, ⟨hne, hv⟩, hdrop, rfl⟩
    induction v generalizing i with
    | nil => exact absurd rfl hne
    | cons c v ih =>
      have hc : set.has c := hv c List.mem_cons_self
      have hround := (hone hi).2 ⟨rfl, [c], v ++ rest, ⟨c, hc, rfl⟩, hdrop, rfl⟩
      by_cases hlast : v = []
      · subst hlast
        exact .last hround
      · obtain ⟨hj, hrest⟩ := drop_of_drop_eq_append (v := [c]) hi hdrop
        have hmore := ih hj hlast (fun d hd => hv d (List.mem_cons_of_mem c hd)) hrest
        have := Plan.Rounds.more hround hmore
        simpa [Nat.add_assoc, Nat.add_comm 1] using this

/-- Any number of rounds of a set read a text of its characters. -/
theorem reads_any (set : CharSet) :
    Reads (.rep 0 none (.one set)) fun v => ∀ c ∈ v, set.has c := by
  -- a loop that may be left out is a choice between a loop and nothing
  have h : Reads (.rep 0 none (.one set)) fun v => Filled set.has v ∨ v = [] :=
    (reads_some set).alt reads_empty
  refine h.congr fun v => ?_
  refine ⟨?_, ?_⟩
  · rintro (hv | rfl)
    · exact hv.2
    · simp
  · intro hv
    by_cases hne : v = []
    · exact .inr hne
    · exact .inl ⟨hne, hv⟩

/-- A word, read in any case of its letters. -/
def word (w : Text) : Expr := seqAll (w.map fun c => .one (.char c))

/-- A word reads the texts that are the same up to letter case. -/
theorem reads_word (w : Text) : Reads (word w) (Alike w) := by
  induction w with
  | nil =>
    refine reads_empty.congr fun v => ?_
    rw [Alike, List.map_nil, @eq_comm _ [], List.map_eq_nil_iff]
  | cons a w ih =>
    have hfirst := reads_one (.char a)
    cases w with
    | nil =>
      refine hfirst.congr fun v => ?_
      simp only [CharSet.has, sameLetter, beq_iff_eq, Alike]
      refine ⟨?_, ?_⟩
      · rintro ⟨c, hc, rfl⟩
        rw [List.map_cons, List.map_cons, hc]
      · intro h
        obtain ⟨c, rest, rfl, hc, hrest⟩ := List.map_eq_cons_iff.1 h.symm
        exact ⟨c, hc.symm, by rw [List.map_eq_nil_iff.1 hrest]⟩
    | cons b w =>
      refine (hfirst.seq ih).congr fun v => ?_
      simp only [CharSet.has, sameLetter, beq_iff_eq, Alike]
      refine ⟨?_, ?_⟩
      · rintro ⟨_, v, ⟨c, hc, rfl⟩, hv, rfl⟩
        rw [List.map_cons, hv, hc]
        rfl
      · intro h
        obtain ⟨c, rest, rfl, hc, hrest⟩ := List.map_eq_cons_iff.1 h.symm
        exact ⟨[c], rest, ⟨c, hc.symm, rfl⟩, hrest.symm, rfl⟩

/-- A choice between words reads what is the same as one of them up to letter case. -/
theorem reads_altAll_word {ws : List Text} (h : ws ≠ []) :
    Reads (altAll (ws.map word)) fun v => ∃ w ∈ ws, Alike w v := by
  induction ws with
  | nil => exact absurd rfl h
  | cons w ws ih =>
    cases ws with
    | nil => exact (reads_word w).congr fun v => by simp
    | cons w' ws =>
      refine ((reads_word w).alt (ih (by simp))).congr fun v => ?_
      simp only [List.mem_cons, exists_eq_or_imp]

end Expr

/-! ### What the kinds take -/

/-- The runs that lead to the small letters: the capital letters, the long s and the Kelvin sign. -/
theorem foldRuns_small {r : CaseRun} (h : r ∈ foldRuns) (hlow : r.first + r.shift ≤ 122) :
    r.first = 65 ∧ r.last = 90 ∨ r.first = 383 ∧ r.last = 383 ∨ r.first = 8490 ∧ r.last = 8490 := by
  have hall : foldRuns.all (fun r => decide (r.first + r.shift ≤ 122 →
      r.first = 65 ∧ r.last = 90 ∨ r.first = 383 ∧ r.last = 383 ∨
        r.first = 8490 ∧ r.last = 8490)) = true := by decide +kernel
  exact of_decide_eq_true (List.all_eq_true.1 hall r h) hlow

/-- No basic letter is a digit. -/
theorem not_isDigit_of_isBasicLetter {c : Char} (h : isBasicLetter c) : isDigit c = false := by
  simp only [isBasicLetter, Bool.and_eq_true, decide_eq_true_eq, Char.le_def,
    UInt32.le_iff_toNat_le] at h
  have hlo : 97 ≤ (fold c).toNat := h.1
  have hhi : (fold c).toNat ≤ 122 := h.2
  have hplace : 65 ≤ c.toNat ∧ c.toNat ≤ 383 ∨ c.toNat = 8490 := by
    rcases fold_eq_or c with hc | ⟨r, hr, hn, hc⟩
    · rw [hc] at hlo hhi
      omega
    · have hbounds := CaseRun.bounds_of_has hn
      have hmoved := toNat_ofNat (c.toNat + r.shift).toNat
      rw [← hc] at hmoved
      have := foldRuns_small hr (by omega)
      omega
  have hdigits : digitRanges.all (fun r => decide (r.2 < 65) ||
      (decide (383 < r.1) && (decide (r.2 < 8490) || decide (8490 < r.1)))) = true := by
    decide +kernel
  rw [Bool.eq_false_iff]
  intro hdigit
  obtain ⟨r, hr, hfirst, hlast⟩ := exists_range_of_inRanges hdigit
  have := List.all_eq_true.1 hdigits r hr
  simp only [Bool.or_eq_true, Bool.and_eq_true, decide_eq_true_eq] at this
  omega

namespace CharSet

/-- The characters of any of some sets, put together as they are read in square brackets. -/
def anyOf (sets : List CharSet) : CharSet := sets.foldl .union .nothing

/-- The sets put together have the characters of each. -/
theorem has_anyOf (sets : List CharSet) (c : Char) :
    (anyOf sets).has c = sets.any fun set => set.has c := by
  have h : ∀ first : CharSet, (sets.foldl .union first).has c =
      (first.has c || sets.any fun set => set.has c) := by
    induction sets with
    | nil => simp
    | cons set sets ih =>
      intro first
      rw [List.foldl_cons, ih, has, List.any_cons, Bool.or_assoc]
  rw [anyOf, h, has, Bool.false_or]

end CharSet

namespace Kind

/-- The extensions of the names of pages. -/
def extensions : List Text :=
  ["aspx", "asp", "cfm", "cgi", "fcgi", "dll", "html", "htm", "shtml", "shtm", "jhtml", "phtml",
    "xhtm", "xhtml", "rbml", "jspx", "jsp", "phps", "php4", "php"].map String.toList

/-- Whether a wildcard of a kind takes a text. -/
def Takes : Kind → Text → Prop
  | all, v => ∀ c ∈ v, c ≠ '\n'
  | alpha, v => Filled isBasicLetter v
  | alphanum, v => Filled isWord v
  | any, v => Filled (fun c => isWord c || isBlank c || ['.', '-', '_', '%', '='].contains c) v
  | ext, v => ∃ w ∈ extensions, Alike w v
  | num, v => Filled isDigit v
  | segment, v => Filled (fun c => isWord c || ['_', '-'].contains c) v
  | segments, v => Filled (fun c => isWord c || ['/', '_', '-'].contains c) v

/-- The expression of a kind. -/
def expr : Kind → Expr
  | all => .rep 0 none (.one .dot)
  | alpha => .rep 1 none (.one (.anyOf [.range 'a' 'z']))
  | alphanum => .rep 1 none (.one .word)
  | any => .rep 1 none
      (.one (.anyOf [.word, .char '.', .char '-', .char '_', .char '%', .char '=', .blank]))
  | ext => .altAll (extensions.map .word)
  | num => .rep 1 none (.one .digit)
  | segment => .rep 1 none (.one (.anyOf [.word, .char '_', .char '-']))
  | segments => .rep 1 none (.one (.anyOf [.word, .char '/', .char '_', .char '-']))

/-- The signs in the expressions of the kinds are the same as themselves only. -/
theorem sameLetter_of_mem {a : Char} (h : a ∈ ['\n', '.', '-', '_', '%', '=', '/']) (c : Char) :
    sameLetter a c = decide (c = a) := by
  simp only [List.mem_cons, List.not_mem_nil, or_false] at h
  rcases h with rfl | rfl | rfl | rfl | rfl | rfl | rfl <;>
    exact sameLetter_sign (by decide) (by decide) (by decide)

/-- One round or more of some sets read a nonempty text of a class, if the class is that of the
sets. -/
theorem reads_filled {sets : List CharSet} {p : Char → Bool}
    (h : ∀ c, (sets.any fun set => set.has c) = p c) :
    Expr.Reads (.rep 1 none (.one (.anyOf sets))) (Filled p) := by
  refine (Expr.reads_some _).congr fun v => ?_
  simp only [Filled, CharSet.has_anyOf, h]

/-- The expression of a kind reads what the kind takes. -/
theorem reads_expr (k : Kind) : k.expr.Reads k.Takes := by
  cases k with
  | all =>
    refine (Expr.reads_any _).congr fun v => ?_
    simp [CharSet.dot, CharSet.has, sameLetter_of_mem, Takes]
  | alpha =>
    refine reads_filled fun c => ?_
    simp [CharSet.has, orbit_any_small]
  | alphanum => exact Expr.reads_some .word
  | any =>
    refine reads_filled fun c => ?_
    simp [CharSet.has, sameLetter_of_mem, Bool.or_assoc, Bool.or_comm, Bool.or_left_comm]
  | ext => exact Expr.reads_altAll_word (by simp [extensions])
  | num => exact Expr.reads_some .digit
  | segment =>
    refine reads_filled fun c => ?_
    simp [CharSet.has, sameLetter_of_mem]
  | segments =>
    refine reads_filled fun c => ?_
    simp [CharSet.has, sameLetter_of_mem]

end Kind

end Detour
