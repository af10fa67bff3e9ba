import Detour.Json.Reading
import Detour.Proofs.Numeral
import Mathlib.Data.List.DropRight

/-!
# Documents written and read back

A document whose numbers and strings are well spelled is read back from the way it is written.

* `Json.IsNumeral` and `Json.IsBody`: a text is a number, or may stand between quotes, whatever
  follows. Numbers and texts are spelled so: `Json.isNumeral_writeNat` and `Json.isBody_escape`, and
  `Json.unescape?_escape` says that a text is what its spelling denotes.
* `Json.Reads` says that a text is read as a document wherever it stands, `Json.ReadsElements` and
  `Json.ReadsMembers` the same of what stands between brackets and braces. Blanks may stand between the
  parts.
* `Json.read?_writeLines` and `Json.read?_write` put the parts together, one case for each form of a
  document, for documents on many lines and on one.
-/

namespace Detour

namespace Json

/-! ### Blanks -/

/-- Blanks only. -/
def IsBlank (s : Text) : Prop := ∀ c ∈ s, isSpace c

/-- No blanks at all are blanks only. -/
theorem isBlank_nil : IsBlank [] := by
  intro c hc
  cases hc

/-- A single blank is blank. -/
theorem isBlank_singleton : IsBlank [' '] := by
  intro c hc
  rw [List.mem_singleton.1 hc]
  rfl

/-- The beginning of a line is blank. -/
theorem isBlank_newLine (depth : Nat) : IsBlank (newLine depth) := by
  intro c hc
  rcases List.mem_cons.1 hc with rfl | hc
  · rfl
  · rw [(List.mem_replicate.1 hc).2]
    rfl

/-- Blanks in front are skipped. -/
theorem skipSpace_append {before : Text} (h : IsBlank before) (s : Text) :
    skipSpace (before ++ s) = skipSpace s :=
  List.dropWhile_append_of_pos h

/-- What is no blank is not skipped. -/
theorem skipSpace_cons {c : Char} (h : isSpace c = false) (s : Text) : skipSpace (c :: s) = c :: s :=
  List.dropWhile_cons_of_neg (by simp [h])

/-- Skipping blanks leaves none to be skipped. -/
theorem skipSpace_skipSpace (s : Text) : skipSpace (skipSpace s) = skipSpace s :=
  List.dropWhile_idempotent isSpace s

/-! ### Strings -/

/-- A text that may stand between quotes. -/
def IsBody (s : Text) : Prop := ∀ rest, quoted? (s ++ '"' :: rest) = some (s, rest)

/-- Two digits in base sixteen spell a control. -/
theorem hexDigit_spec : ∀ n < 32, isHex (hexDigit (n / 16)) ∧ isHex (hexDigit (n % 16)) ∧
    hexNumber? ['0', '0', hexDigit (n / 16), hexDigit (n % 16)] = some n := by
  decide

/-- How a character is spelled: behind a backslash if it has a letter, as a code point if it is
another control, and otherwise as it is. -/
theorem escapeChar_cases (c : Char) :
    (∃ d, escapeChar c = ['\\', d] ∧ d ≠ 'u' ∧ unescaped? d = some c) ∨
      (c.toNat < 32 ∧
        escapeChar c = ['\\', 'u', '0', '0', hexDigit (c.toNat / 16), hexDigit (c.toNat % 16)]) ∨
      (escapeChar c = [c] ∧ c ≠ '"' ∧ c ≠ '\\' ∧ ¬ c.toNat < 32) := by
  unfold escapeChar
  split
  case h_8 hquote hback _ _ _ _ _ =>
    by_cases hc : c.toNat < 32
    · exact .inr (.inl ⟨hc, if_pos hc⟩)
    · exact .inr (.inr ⟨if_neg hc, hquote, hback, hc⟩)
  all_goals exact .inl ⟨_, rfl, by decide, rfl⟩

/-- The spelling of a character is read up to the closing quote. -/
theorem quoted?_escapeChar (c : Char) (s : Text) : quoted? (escapeChar c ++ s) =
    (quoted? s).map fun (body, rest) => (escapeChar c ++ body, rest) := by
  rcases escapeChar_cases c with ⟨d, hd, hu, hsome⟩ | ⟨hc, hspell⟩ | ⟨hself, hquote, hback, hc⟩
  · rw [hd]
    simp [quoted?, hu, hsome]
  · obtain ⟨hhigh, hlow, -⟩ := hexDigit_spec c.toNat hc
    have hzero : isHex '0' = true := rfl
    rw [hspell]
    simp [quoted?, hhigh, hlow, hzero]
  · rw [hself]
    simp [quoted?, hback, hc]

/-- The spelling of a text may stand between quotes. -/
theorem isBody_escape (s : Text) : IsBody (escape s) := by
  intro rest
  induction s with
  | nil => rfl
  | cons c s ih =>
    have hcons : escape (c :: s) = escapeChar c ++ escape s := List.flatMap_cons
    rw [hcons, List.append_assoc, quoted?_escapeChar, ih]
    rfl

/-- Digits may stand between quotes. -/
theorem isBody_writeNat (n : Nat) : IsBody (writeNat n) := by
  intro rest
  have hdigits := (writeNat_spec n).2.1
  generalize writeNat n = s at hdigits
  induction s with
  | nil => rfl
  | cons c s ih =>
    have hc := hdigits c List.mem_cons_self
    have hplain : c ≠ '"' ∧ c ≠ '\\' ∧ ¬ c.toNat < 32 := by
      refine ⟨?_, ?_, ?_⟩
      · rintro rfl
        cases hc
      · rintro rfl
        cases hc
      · simp only [Char.isDigit, Bool.and_eq_true, decide_eq_true_eq, ge_iff_le,
          UInt32.le_iff_toNat_le] at hc
        have hlow : 48 ≤ c.toNat := hc.1
        omega
    have hs := ih fun d hd => hdigits d (List.mem_cons_of_mem c hd)
    simp [quoted?, hplain, hs]

/-- The spelling of a character denotes it. -/
theorem unescape?_escapeChar (c : Char) (s : Text) :
    unescape? (escapeChar c ++ s) = (unescape? s).map (c :: ·) := by
  rcases escapeChar_cases c with ⟨d, hd, hu, hsome⟩ | ⟨hc, hspell⟩ | ⟨hself, -, hback, -⟩
  · rw [hd]
    simp [unescape?, hu, hsome]
  · obtain ⟨-, -, hnumber⟩ := hexDigit_spec c.toNat hc
    have hhigh : isHigh c.toNat = false := by
      simp only [isHigh, Bool.and_eq_false_iff, decide_eq_false_iff_not]
      omega
    have hlow : isLow c.toNat = false := by
      simp only [isLow, Bool.and_eq_false_iff, decide_eq_false_iff_not]
      omega
    rw [hspell]
    simp [unescape?, hnumber, hhigh, hlow]
  · rw [hself]
    simp [unescape?, hback]

/-- The spelling of a text denotes it. -/
theorem unescape?_escape (s : Text) : unescape? (escape s) = some s := by
  induction s with
  | nil => rfl
  | cons c s ih =>
    have hcons : escape (c :: s) = escapeChar c ++ escape s := List.flatMap_cons
    rw [hcons, unescape?_escapeChar, ih]
    rfl

/-- The spelling of a text has no controls. -/
theorem le_of_mem_escape {s : Text} {c : Char} (h : c ∈ escape s) : 32 ≤ c.toNat := by
  have hletter : ∀ {a d : Char}, unescaped? d = some a → 32 ≤ d.toNat := by
    intro a d hd
    unfold unescaped? at hd
    split at hd
    case h_9 => cases hd
    all_goals decide
  have hdigit : ∀ n < 16, 32 ≤ (hexDigit n).toNat := by decide
  obtain ⟨a, -, hc⟩ := List.mem_flatMap.1 h
  rcases escapeChar_cases a with ⟨d, hspell, -, hd⟩ | ⟨ha, hspell⟩ | ⟨hspell, -, -, ha⟩
  · rw [hspell] at hc
    rcases List.mem_pair.1 hc with rfl | rfl
    · decide
    · exact hletter hd
  · rw [hspell] at hc
    simp only [List.mem_cons, List.not_mem_nil, or_false] at hc
    rcases hc with rfl | rfl | rfl | rfl | rfl | rfl
    · decide
    · decide
    · decide
    · decide
    · exact hdigit _ (by omega)
    · exact hdigit _ (by omega)
  · rw [hspell] at hc
    rw [List.mem_singleton.1 hc]
    omega

/-! ### Numbers -/

/-- What may stand behind a document: nothing by which a number would go on. -/
def EndsValue (rest : Text) : Prop :=
  ∀ c, rest.head? = some c → c.isDigit = false ∧ c ≠ '.' ∧ c ≠ 'e' ∧ c ≠ 'E'

/-- A number as it may be written. -/
def IsNumeral (s : Text) : Prop := ∀ rest, EndsValue rest → number? (s ++ rest) = some (s, rest)

/-- Nothing may stand behind a document. -/
theorem endsValue_nil : EndsValue [] := by
  intro c hc
  cases hc

/-- A sign that is no part of a number may stand behind a document. -/
theorem endsValue_cons {c : Char} (h : c.isDigit = false ∧ c ≠ '.' ∧ c ≠ 'e' ∧ c ≠ 'E')
    (rest : Text) : EndsValue (c :: rest) := by
  intro d hd
  rwa [← Option.some.inj hd]

/-- Blanks may stand behind a document, in front of something that may. -/
theorem IsBlank.endsValue {before rest : Text} (h : IsBlank before) (hrest : EndsValue rest) :
    EndsValue (before ++ rest) := by
  cases before with
  | nil => exact hrest
  | cons c before =>
    refine endsValue_cons ?_ _
    have hc := h c List.mem_cons_self
    simp only [isSpace, Bool.or_eq_true, beq_iff_eq] at hc
    rcases hc with ((rfl | rfl) | rfl) | rfl <;> decide

/-- The digits of a number are a number. -/
theorem isNumeral_writeNat (n : Nat) : IsNumeral (writeNat n) := by
  intro rest hrest
  obtain ⟨hne, hdigits, hzero⟩ := writeNat_spec n
  have htake : (writeNat n ++ rest).takeWhile Char.isDigit = writeNat n :=
    takeWhile_append_of_head hdigits fun c hc => (hrest c hc).1
  have hall : digits? (writeNat n ++ rest) = some (writeNat n, rest) := by
    simp [digits?, htake, hne]
  have hwhole : whole? (writeNat n ++ rest) = some (writeNat n, rest) := by
    unfold whole?
    split
    · rename_i s hs
      -- only zero begins with a zero, and it is that digit alone
      have hhead : (writeNat n).head? = some '0' := by
        rw [List.head?_eq_some_head hne]
        have := congrArg List.head? hs
        rwa [List.head?_append, List.head?_eq_some_head hne] at this
      rw [hzero hhead] at hs ⊢
      rw [← (List.cons.inj hs).2]
      rfl
    · exact hall
  have hminus : ∀ s, writeNat n ++ rest ≠ '-' :: s := by
    intro s hs
    cases hw : writeNat n with
    | nil => exact hne hw
    | cons c t =>
      rw [hw] at hs
      have hc := hdigits c (hw ▸ List.mem_cons_self)
      rw [(List.cons.inj hs).1] at hc
      exact absurd hc (by decide)
  have hfraction : fraction? rest = some ([], rest) := by
    unfold fraction?
    split
    · exact absurd rfl (hrest _ rfl).2.1
    · rfl
  have hexponent : exponent? rest = some ([], rest) := by
    cases rest with
    | nil => rfl
    | cons c rest => simp [exponent?, (hrest c rfl).2.2]
  unfold number?
  split
  rename_i minus s hs
  split at hs
  · exact absurd ‹_› (hminus _)
  · obtain ⟨rfl, rfl⟩ := Prod.mk.inj hs
    simp [hwhole, hfraction, hexponent]

/-! ### Documents -/

/-- A text that is read as a document, whatever may stand behind it. -/
def Reads (s : Text) (j : Json) : Prop :=
  ∀ fuel rest, s.length < fuel → EndsValue rest → value? fuel (s ++ rest) = some (j, rest)

/-- A text with a closing bracket that is read as the elements in front of it. -/
def ReadsElements (s : Text) (es : List Json) : Prop :=
  ∀ fuel rest, s.length < fuel → elements? fuel (s ++ rest) = some (es, rest)

/-- A text with a closing brace that is read as the members in front of it. -/
def ReadsMembers (s : Text) (ms : List (Text × Json)) : Prop :=
  ∀ fuel rest, s.length < fuel → members? fuel (s ++ rest) = some (ms, rest)

section Parts

variable {s t before after : Text} {j : Json} {es : List Json} {ms : List (Text × Json)} {k : Text}

/-- A document begins with a sign that is not skipped. -/
theorem Reads.skipSpace (h : Reads s j) (rest : Text) : skipSpace (s ++ rest) = s ++ rest := by
  have hvalue := h (s.length + 1) [] (by omega) endsValue_nil
  cases s with
  | nil => cases hvalue
  | cons c s =>
    refine skipSpace_cons ?_ _
    by_contra hc
    simp only [isSpace, Bool.not_eq_false, Bool.or_eq_true, beq_iff_eq] at hc
    rcases hc with ((rfl | rfl) | rfl) | rfl <;> cases hvalue

/-- Blanks in front of a document are skipped. -/
theorem Reads.skipSpace_append (h : Reads s j) (hbefore : IsBlank before) (rest : Text) :
    Json.skipSpace (before ++ (s ++ rest)) = s ++ rest := by
  rw [Json.skipSpace_append hbefore, h.skipSpace]

/-- A document at the front of elements is read, and it is the last one or others follow. -/
theorem Reads.elements? (h : Reads s j) (hbefore : IsBlank before) {fuel : Nat} {u : Text}
    (hfuel : s.length < fuel) (hu : EndsValue u) :
    (∀ rest, Json.skipSpace u = ']' :: rest →
      Json.elements? (fuel + 1) (before ++ (s ++ u)) = some ([j], rest)) ∧
    ∀ t, Json.skipSpace u = ',' :: t → Json.elements? (fuel + 1) (before ++ (s ++ u)) =
      (Json.elements? fuel t).map fun (es, rest) => (j :: es, rest) := by
  have hvalue := h fuel u hfuel hu
  refine ⟨fun rest hrest => ?_, fun t ht => ?_⟩
  · simp [Json.elements?, h.skipSpace_append hbefore, hvalue, hrest]
  · simp [Json.elements?, h.skipSpace_append hbefore, hvalue, ht]

/-- A member at the front of members is read, and it is the last one or others follow. -/
theorem Reads.members? (h : Reads s j) (hk : IsBody k) (hbefore : IsBlank before) {gap : Text}
    (hgap : IsBlank gap) {fuel : Nat} {u : Text} (hfuel : s.length < fuel) (hu : EndsValue u) :
    (∀ rest, Json.skipSpace u = '\x7d' :: rest →
      Json.members? (fuel + 1) (before ++ '"' :: (k ++ '"' :: ':' :: (gap ++ (s ++ u)))) =
        some ([(k, j)], rest)) ∧
    ∀ t, Json.skipSpace u = ',' :: t →
      Json.members? (fuel + 1) (before ++ '"' :: (k ++ '"' :: ':' :: (gap ++ (s ++ u)))) =
        (Json.members? fuel t).map fun (ms, rest) => ((k, j) :: ms, rest) := by
  have hquote : Json.skipSpace (before ++ '"' :: (k ++ '"' :: ':' :: (gap ++ (s ++ u)))) =
      '"' :: (k ++ '"' :: ':' :: (gap ++ (s ++ u))) := by
    rw [Json.skipSpace_append hbefore, skipSpace_cons rfl]
  have hkey := hk (':' :: (gap ++ (s ++ u)))
  have hcolon : Json.skipSpace (':' :: (gap ++ (s ++ u))) = ':' :: (gap ++ (s ++ u)) :=
    skipSpace_cons rfl _
  have hvalue := h fuel u hfuel hu
  refine ⟨fun rest hrest => ?_, fun t ht => ?_⟩
  · simp [Json.members?, hquote, hkey, hcolon, h.skipSpace_append hgap, hvalue, hrest]
  · simp [Json.members?, hquote, hkey, hcolon, h.skipSpace_append hgap, hvalue, ht]

/-- A closing sign behind blanks. -/
theorem IsBlank.skipSpace_cons (h : IsBlank after) {c : Char} (hc : isSpace c = false) (u : Text) :
    Json.skipSpace (after ++ c :: u) = c :: u := by
  rw [Json.skipSpace_append h, Json.skipSpace_cons hc]

/-- The last element of a list. -/
theorem Reads.lastElement (h : Reads s j) (hbefore : IsBlank before) (hafter : IsBlank after) :
    ReadsElements (before ++ (s ++ (after ++ [']']))) [j] := by
  rintro (_ | fuel) rest hfuel
  · omega
  simp only [List.length_append, List.length_cons] at hfuel
  have hclose : EndsValue (']' :: rest) := endsValue_cons (by decide) rest
  obtain ⟨hlast, -⟩ := h.elements? hbefore (by omega : s.length < fuel) (hafter.endsValue hclose)
  simpa using hlast rest (hafter.skipSpace_cons rfl rest)

/-- An element of a list in front of others. -/
theorem Reads.consElement (h : Reads s j) (ht : ReadsElements t es) (hbefore : IsBlank before)
    (hafter : IsBlank after) : ReadsElements (before ++ (s ++ (after ++ ',' :: t))) (j :: es) := by
  rintro (_ | fuel) rest hfuel
  · omega
  simp only [List.length_append, List.length_cons] at hfuel
  have hcomma : EndsValue (',' :: (t ++ rest)) := endsValue_cons (by decide) _
  obtain ⟨-, hmore⟩ := h.elements? hbefore (by omega : s.length < fuel) (hafter.endsValue hcomma)
  simpa [ht fuel rest (by omega)] using hmore _ (hafter.skipSpace_cons rfl (t ++ rest))

/-- The last member of an object. -/
theorem Reads.lastMember (h : Reads s j) (hk : IsBody k) (hbefore : IsBlank before)
    {gap : Text} (hgap : IsBlank gap) (hafter : IsBlank after) :
    ReadsMembers (before ++ '"' :: (k ++ '"' :: ':' :: (gap ++ (s ++ (after ++ ['\x7d']))))) [(k, j)]
    := by
  rintro (_ | fuel) rest hfuel
  · omega
  simp only [List.length_append, List.length_cons] at hfuel
  have hclose : EndsValue ('\x7d' :: rest) := endsValue_cons (by decide) rest
  obtain ⟨hlast, -⟩ := h.members? hk hbefore hgap (by omega : s.length < fuel) (hafter.endsValue hclose)
  simpa using hlast rest (hafter.skipSpace_cons rfl rest)

/-- A member of an object in front of others. -/
theorem Reads.consMember (h : Reads s j) (ht : ReadsMembers t ms) (hk : IsBody k)
    (hbefore : IsBlank before) {gap : Text} (hgap : IsBlank gap) (hafter : IsBlank after) :
    ReadsMembers (before ++ '"' :: (k ++ '"' :: ':' :: (gap ++ (s ++ (after ++ ',' :: t)))))
      ((k, j) :: ms) := by
  rintro (_ | fuel) rest hfuel
  · omega
  simp only [List.length_append, List.length_cons] at hfuel
  have hcomma : EndsValue (',' :: (t ++ rest)) := endsValue_cons (by decide) _
  obtain ⟨-, hmore⟩ := h.members? hk hbefore hgap (by omega : s.length < fuel) (hafter.endsValue hcomma)
  simpa [ht fuel rest (by omega)] using hmore _ (hafter.skipSpace_cons rfl (t ++ rest))

/-- Elements between brackets are a list. -/
theorem ReadsElements.array (h : ReadsElements s es) : Reads ('[' :: s) (array es) := by
  rintro (_ | fuel) rest hfuel -
  · omega
  rw [List.length_cons] at hfuel
  have hread : Json.elements? fuel (Json.skipSpace (s ++ rest)) = some (es, rest) := by
    rw [← h fuel rest (by omega)]
    cases fuel with
    | zero => rfl
    | succ fuel => rw [Json.elements?, Json.elements?, skipSpace_skipSpace]
  -- no element begins with the closing bracket
  have hopen : ∀ u, Json.skipSpace (s ++ rest) ≠ ']' :: u := by
    intro u hu
    rw [hu] at hread
    rcases fuel with _ | _ | fuel <;> cases hread
  rw [List.cons_append, value?]
  split
  · exact absurd ‹_› (hopen _)
  · rw [hread]
    rfl

/-- Members between braces are an object. -/
theorem ReadsMembers.object (h : ReadsMembers s ms) : Reads ('\x7b' :: s) (object ms) := by
  rintro (_ | fuel) rest hfuel -
  · omega
  rw [List.length_cons] at hfuel
  have hread : Json.members? fuel (Json.skipSpace (s ++ rest)) = some (ms, rest) := by
    rw [← h fuel rest (by omega)]
    cases fuel with
    | zero => rfl
    | succ fuel => rw [Json.members?, Json.members?, skipSpace_skipSpace]
  -- no member begins with the closing brace
  have hopen : ∀ u, Json.skipSpace (s ++ rest) ≠ '\x7d' :: u := by
    intro u hu
    rw [hu] at hread
    rcases fuel with _ | fuel <;> cases hread
  rw [List.cons_append, value?]
  split
  · exact absurd ‹_› (hopen _)
  · rw [hread]
    rfl

/-- A number is a document. -/
theorem IsNumeral.reads (h : IsNumeral s) : Reads s (number s) := by
  rintro (_ | fuel) rest hfuel hrest
  · omega
  have hnumber := h rest hrest
  have hother : ∀ c ∈ ['"', '[', '\x7b', 'n', 't', 'f'], ∀ u, s ++ rest ≠ c :: u := by
    intro c hc u hu
    rw [hu] at hnumber
    simp only [List.mem_cons, List.not_mem_nil, or_false] at hc
    rcases hc with rfl | rfl | rfl | rfl | rfl | rfl <;> cases hnumber
  unfold value?
  split
  case h_7 => rw [hnumber]; rfl
  all_goals exact absurd ‹_› (hother _ (by decide) _)

/-- A text between quotes is a document. -/
theorem IsBody.reads (h : IsBody s) : Reads ('"' :: (s ++ ['"'])) (string s) := by
  rintro (_ | fuel) rest hfuel -
  · omega
  have hquoted := h rest
  rw [List.cons_append, List.append_assoc, List.singleton_append, value?, hquoted]
  rfl

end Parts

/-! ### Writing -/

mutual

/-- Whether the numbers and strings of a document are well spelled. -/
def IsSpelled : Json → Prop
  | null | bool _ => True
  | number s => IsNumeral s
  | string s => IsBody s
  | array elements => ElementsSpelled elements
  | object members => MembersSpelled members

/-- Whether the numbers and strings of some documents are well spelled. -/
def ElementsSpelled : List Json → Prop
  | [] => True
  | e :: rest => e.IsSpelled ∧ ElementsSpelled rest

/-- Whether the keys, numbers and strings of some members are well spelled. -/
def MembersSpelled : List (Text × Json) → Prop
  | [] => True
  | (k, v) :: rest => IsBody k ∧ v.IsSpelled ∧ MembersSpelled rest

end

mutual

/-- A document is read where it is written. -/
theorem reads_writeAt (depth : Nat) : (j : Json) → j.IsSpelled → Reads (j.writeAt depth) j
  | null, _ => by
    rintro (_ | fuel) rest hfuel -
    · omega
    · rfl
  | bool b, _ => by
    rintro (_ | fuel) rest hfuel -
    · omega
    · cases b <;> rfl
  | number _, h => IsNumeral.reads h
  | string _, h => IsBody.reads h
  | array [], _ => by
    rintro (_ | fuel) rest hfuel -
    · omega
    · rfl
  | array (e :: es), ⟨he, hes⟩ => by
    have hread := readsElements_writeElementsAt (depth + 1) es hes (isBlank_newLine (depth + 1))
      (reads_writeAt (depth + 1) e he) (isBlank_newLine depth)
    simpa [writeAt] using hread.array
  | object [], _ => by
    rintro (_ | fuel) rest hfuel -
    · omega
    · rfl
  | object ((k, v) :: ms), ⟨hk, hv, hms⟩ => by
    have hread := readsMembers_writeMembersAt (depth + 1) ms hms (isBlank_newLine (depth + 1)) hk
      (reads_writeAt (depth + 1) v hv) (isBlank_newLine depth)
    simpa [writeAt] using hread.object

/-- Elements are read where they are written behind another. -/
theorem readsElements_writeElementsAt (depth : Nat) : (es : List Json) → ElementsSpelled es →
    ∀ {before s after : Text} {j : Json}, IsBlank before → Reads s j → IsBlank after →
      ReadsElements (before ++ (s ++ (writeElementsAt depth es ++ (after ++ [']'])))) (j :: es)
  | [], _ => fun hbefore hs hafter => hs.lastElement hbefore hafter
  | e :: es, ⟨he, hes⟩ => fun hbefore hs hafter => by
    have hrest := readsElements_writeElementsAt depth es hes (isBlank_newLine depth)
      (reads_writeAt depth e he) hafter
    simpa [writeElementsAt] using hs.consElement hrest hbefore isBlank_nil

/-- Members are read where they are written behind another. -/
theorem readsMembers_writeMembersAt (depth : Nat) : (ms : List (Text × Json)) → MembersSpelled ms →
    ∀ {before k s after : Text} {j : Json}, IsBlank before → IsBody k → Reads s j → IsBlank after →
      ReadsMembers (before ++ '"' :: (k ++ '"' :: ':' :: ([' '] ++ (s ++ (writeMembersAt depth ms ++
        (after ++ ['\x7d'])))))) ((k, j) :: ms)
  | [], _ => fun hbefore hk hs hafter => hs.lastMember hk hbefore isBlank_singleton hafter
  | (k, v) :: ms, ⟨hk, hv, hms⟩ => fun hbefore hkey hs hafter => by
    have hrest := readsMembers_writeMembersAt depth ms hms (isBlank_newLine depth) hk
      (reads_writeAt depth v hv) hafter
    simpa [writeMembersAt] using
      hs.consMember hrest hkey hbefore isBlank_singleton isBlank_nil

end

mutual

/-- A document is read where it is written on one line. -/
theorem reads_write : (j : Json) → j.IsSpelled → Reads j.write j
  | null, _ => by
    rintro (_ | fuel) rest hfuel -
    · omega
    · rfl
  | bool b, _ => by
    rintro (_ | fuel) rest hfuel -
    · omega
    · cases b <;> rfl
  | number _, h => IsNumeral.reads h
  | string _, h => IsBody.reads h
  | array [], _ => by
    rintro (_ | fuel) rest hfuel -
    · omega
    · rfl
  | array (e :: es), h => by
    have hread := readsElements_writeElements (e :: es) h (List.cons_ne_nil e es)
    simpa [write] using hread.array
  | object [], _ => by
    rintro (_ | fuel) rest hfuel -
    · omega
    · rfl
  | object (m :: ms), h => by
    have hread := readsMembers_writeMembers (m :: ms) h (List.cons_ne_nil m ms)
    simpa [write] using hread.object

/-- Elements are read where they are written on one line. -/
theorem readsElements_writeElements : (es : List Json) → ElementsSpelled es → es ≠ [] →
    ReadsElements (writeElements es ++ [']']) es
  | [], _ => fun hne => absurd rfl hne
  | [e], ⟨he, _⟩ => fun _ => by
    simpa [writeElements] using (reads_write e he).lastElement isBlank_nil isBlank_nil
  | e :: e' :: es, ⟨he, hes⟩ => fun _ => by
    have hrest := readsElements_writeElements (e' :: es) hes (List.cons_ne_nil e' es)
    simpa [writeElements] using (reads_write e he).consElement hrest isBlank_nil isBlank_nil

/-- Members are read where they are written on one line. -/
theorem readsMembers_writeMembers : (ms : List (Text × Json)) → MembersSpelled ms → ms ≠ [] →
    ReadsMembers (writeMembers ms ++ ['\x7d']) ms
  | [], _ => fun hne => absurd rfl hne
  | [(k, v)], ⟨hk, hv, _⟩ => fun _ => by
    simpa [writeMembers] using
      (reads_write v hv).lastMember hk isBlank_nil isBlank_nil isBlank_nil
  | (k, v) :: m :: ms, ⟨hk, hv, hms⟩ => fun _ => by
    have hrest := readsMembers_writeMembers (m :: ms) hms (List.cons_ne_nil m ms)
    simpa [writeMembers] using
      (reads_write v hv).consMember hrest hk isBlank_nil isBlank_nil isBlank_nil

end

/-- A text that is read as a document by itself is that document. -/
theorem Reads.read? {s : Text} {j : Json} (h : Reads s j) : Json.read? s = some j := by
  have hskip := h.skipSpace []
  have hvalue := h (s.length + 1) [] (Nat.lt_succ_self _) endsValue_nil
  rw [List.append_nil] at hskip hvalue
  rw [Json.read?, hskip, hvalue]
  rfl

/-- A text that is read as a document is none with another sign behind it. -/
theorem Reads.read?_append {s rest : Text} {j : Json} {c : Char} (h : Reads s j) (hc : isSpace c = false)
    (hends : EndsValue (c :: rest)) : Json.read? (s ++ c :: rest) = none := by
  have hlength : s.length < (s ++ c :: rest).length + 1 := by
    rw [List.length_append]
    omega
  have hvalue := h ((s ++ c :: rest).length + 1) (c :: rest) hlength hends
  rw [Json.read?, h.skipSpace, hvalue]
  dsimp only
  rw [skipSpace_cons hc]
  rfl

/-- A well spelled document is read back from its lines. -/
theorem read?_writeLines {j : Json} (h : j.IsSpelled) : read? j.writeLines = some j :=
  (reads_writeAt 0 j h).read?

/-- A well spelled document is read back from its line. -/
theorem read?_write {j : Json} (h : j.IsSpelled) : read? j.write = some j :=
  (reads_write j h).read?

end Json
end Detour
