import Detour.Proofs.Document
import Detour.Proofs.Encoding
import Detour.Proofs.Moment
import Detour.Store.MissLog

/-!
# The log of missing pages read back

Requests are logged as they were made, whatever characters their texts hold, and every entry that was
appended is read back in its place. Of its instant, what is read back is what it settles to
(`Instant.settled`).

* `Miss.ofJson?_toJson`: an entry is read back from its document, and by `Miss.newLine_notMem_write`
  the document stands on one line.
* `MissLog.linesOf_line` and `MissLog.ofLine_written`: the line of an entry is one line of the file, with
  that entry on it.
* `MissLog.Grows` is what one append leaves: the bytes of the log stay, and one line is behind them.
* `MissLog.load_append` is one append, and `MissLog.load_appendAll` any number of them.
* `MissLog.lost_append` has the entries that a log does not give back as they were.
-/

namespace Detour

/-! ### Entries -/

namespace Miss

variable {m : Miss}

/-- What may be absent is read back as it was. -/
theorem optional?_ofOption (o : Option Text) : optional? (some (.ofOption .ofText o)) = some o := by
  cases o with
  | none => rfl
  | some s => simp [Json.ofOption, Json.ofText, optional?, Json.toText?, Json.unescape?_escape]

/-- An entry is stored in a well spelled document. -/
theorem isSpelled_toJson (m : Miss) : m.toJson.IsSpelled := by
  have htext : ∀ s : Text, (Json.ofText s).IsSpelled := Json.isBody_escape
  have hoption : ∀ o : Option Text, (Json.ofOption Json.ofText o).IsSpelled := by
    rintro (_ | s)
    · exact trivial
    · exact htext s
  exact ⟨Json.isBody_escape _, htext _, Json.isBody_escape _, hoption _, Json.isBody_escape _,
    hoption _, Json.isBody_escape _, htext _, trivial⟩

/-- An entry as it is read back. -/
def settled (m : Miss) : Miss := ⟨m.request, m.loggedAt.settled⟩

/-- An entry is read back from its document as it settles. -/
theorem ofJson?_toJson (h : m.loggedAt.IsRepresentable) : ofJson? m.toJson = some m.settled := by
  have hfields : Json.fields? ["request_uri".toList, "referrer".toList, "user_agent".toList,
      "logged_at".toList] m.toJson =
      some [some (.ofText m.request.uri), some (.ofOption .ofText m.request.referrer),
        some (.ofOption .ofText m.request.userAgent), some (.ofText m.loggedAt.write)] := by
    simp [toJson, Json.ofMembers, Json.fields?, Json.keyed?, Json.unescape?_escape]
  have htext : ∀ s : Text, (Json.ofText s).toText? = some s := Json.unescape?_escape
  rw [ofJson?, hfields]
  simp [htext, optional?_ofOption, Instant.readLoose?_write_settled h, settled]

/-- The entries that stay as they are are those whose instants are dates and times of day. -/
theorem map_settled_eq_iff {ms : List Miss} (h : ∀ m ∈ ms, m.loggedAt.IsRepresentable) :
    ms.map settled = ms ↔ ∀ m ∈ ms, m.loggedAt.IsCivil := by
  have hone (m : Miss) (hm : m ∈ ms) : m.settled = m ↔ m.loggedAt.IsCivil := by
    rw [← Instant.settled_eq_iff (h m hm)]
    exact ⟨congrArg loggedAt, fun heq => congrArg (Miss.mk m.request) heq⟩
  constructor
  · intro heq m hm
    exact (hone m hm).1 (List.map_inj_left.1 (heq.trans (List.map_id ms).symm) m hm)
  · intro hall
    exact (List.map_congr_left fun m hm => (hone m hm).2 (hall m hm)).trans (List.map_id ms)

/-- The document of an entry stands on one line. -/
theorem newLine_notMem_write (m : Miss) : '\n' ∉ m.toJson.write := by
  have hescape : ∀ s : Text, '\n' ∉ Json.escape s := fun s hmem =>
    absurd (Json.le_of_mem_escape hmem) (by decide)
  have hoption : ∀ o : Option Text, '\n' ∉ (Json.ofOption Json.ofText o).write := by
    rintro (_ | s)
    · decide
    · simp [Json.ofOption, Json.ofText, Json.write, hescape]
  simp [toJson, Json.ofMembers, Json.write, Json.writeMembers, Json.ofText, hescape, hoption]

end Miss

/-! ### Lines -/

namespace MissLog

/-- A file without a last line that is still open. -/
def EndsLine (content : Bytes) : Prop := content = [] ∨ content.getLast? = some 10

instance (content : Bytes) : Decidable (EndsLine content) :=
  inferInstanceAs (Decidable (content = [] ∨ content.getLast? = some 10))

variable {content body : Bytes} {lines : List Bytes} {d : Disk} {p : Path} {m : Miss}
  {es ms : List Miss}

/-- A file that is not empty has a line. -/
theorem linesOf_ne_nil (h : content ≠ []) : linesOf content ≠ [] := by
  cases content with
  | nil => exact absurd rfl h
  | cons b content =>
    unfold linesOf
    split
    · simp
    · split <;> simp

/-- What stands behind the end of a line makes lines of its own. -/
theorem linesOf_append (h : EndsLine content) (more : Bytes) :
    linesOf (content ++ more) = linesOf content ++ linesOf more := by
  induction content with
  | nil => rfl
  | cons b content ih =>
    rcases h with h | h
    · cases h
    cases content with
    | nil =>
      obtain rfl : b = 10 := by simpa using h
      rfl
    | cons c content =>
      have hrest := ih (.inr (by rwa [List.getLast?_cons_cons] at h))
      obtain ⟨first, rest, hlines⟩ := List.exists_cons_of_ne_nil
        (linesOf_ne_nil (List.cons_ne_nil c content))
      rw [hlines] at hrest
      rw [List.cons_append, linesOf, hrest, linesOf, hlines]
      by_cases hb : b = 10
      · rw [if_pos hb, if_pos hb]
        rfl
      · rw [if_neg hb, if_neg hb]
        rfl

/-- Bytes among which no line ends are one line, when one ends behind them. -/
theorem linesOf_line (h : 10 ∉ body) : linesOf (body ++ [10]) = [body] := by
  induction body with
  | nil => rfl
  | cons b body ih =>
    have hb : b ≠ 10 := fun heq => h (heq ▸ List.mem_cons_self)
    rw [List.cons_append, linesOf, if_neg hb, ih fun hmem => h (List.mem_cons_of_mem b hmem)]

/-- A file that ends a line still does so with one more line behind. -/
theorem endsLine_append (content body : Bytes) : EndsLine (content ++ (body ++ [10])) := by
  rw [EndsLine, ← List.append_assoc]
  exact .inr List.getLast?_concat

/-- The bytes of an entry in front of the end of its line. -/
def written (m : Miss) : Bytes := Utf8.encode m.toJson.write

/-- The line of an entry ends in the end of a line and has none elsewhere. -/
theorem line_eq_written (m : Miss) : m.line = written m ++ [10] ∧ 10 ∉ written m := by
  refine ⟨?_, fun hmem => ?_⟩
  · rw [Miss.line, Utf8.encode, List.flatMap_append]
    rfl
  · obtain ⟨c, hc, hbyte⟩ := List.mem_flatMap.1 hmem
    have hcode := Utf8.toNat_of_mem_encodeChar hbyte (by decide)
    obtain rfl : c = '\n' := Char.toNat_inj.1 hcode
    exact m.newLine_notMem_write hc

/-- A text whose first character is not blank is not blank. -/
theorem trim_ne_nil {c : Char} (h : isBlank c = false) (s : Text) : Text.trim (c :: s) ≠ [] := by
  rw [Text.trim, Text.trimBoth, Text.trimStart, List.dropWhile_cons_of_neg (by simp [h]),
    Text.trimEnd, ne_eq, List.reverse_eq_nil_iff, List.dropWhile_eq_nil_iff]
  intro hall
  exact absurd (hall c (by simp)) (by simp [h])

/-- The line of an entry is read as what that entry settles to. -/
theorem ofLine_written (h : m.loggedAt.IsRepresentable) : ofLine (written m) = .ok (some m.settled) := by
  obtain ⟨rest, hwrite⟩ : ∃ rest, m.toJson.write = '\x7b' :: rest := ⟨_, rfl⟩
  have htrim : (Text.trim m.toJson.write).isEmpty = false := by
    rw [hwrite, List.isEmpty_eq_false_iff]
    exact trim_ne_nil (by decide) rest
  have hread : (Json.read? m.toJson.write).bind Miss.ofJson? = some m.settled := by
    rw [Json.read?_write m.isSpelled_toJson, Option.bind_some, Miss.ofJson?_toJson h]
  simp [ofLine, written, Utf8.decode?_encode, htrim, hread]

/-- An entry on the last line is read behind those on the others. -/
theorem ofLines_append {bytes : Bytes} (hlines : ofLines lines = .ok es)
    (hline : ofLine bytes = .ok (some m)) : ofLines (lines ++ [bytes]) = .ok (es ++ [m]) := by
  induction lines generalizing es with
  | nil =>
    obtain rfl : [] = es := Except.ok.inj hlines
    simp [ofLines, hline]
  | cons first lines ih =>
    rw [ofLines] at hlines
    rw [List.cons_append, ofLines]
    rcases hfirst : ofLine first with e | o
    · rw [hfirst] at hlines
      cases hlines
    · rw [hfirst] at hlines
      rcases hrest : ofLines lines with e | rest
      · rw [hrest] at hlines
        cases hlines
      · rw [hrest] at hlines
        obtain rfl := Except.ok.inj hlines
        simp [ih hrest]

/-! ### One append -/

/-- What an append does to a disk: the bytes of the log stay, one line stands behind them, and no other
file is touched. -/
structure Grows (p : Path) (before after : Disk) : Prop where
  /-- the log has one more line -/
  line : ∃ body : Bytes, 10 ∉ body ∧
    after.at? p = some (.file (before.content p ++ (body ++ [10])))
  /-- the other files are as they were -/
  others : ∀ q, q ≠ p → after.at? q = before.at? q

/-- An append puts the line of the entry behind the log, or the log cannot be written. -/
theorem append_cases (d : Disk) (p : Path) (m : Miss) :
    (d.isWritable p ∧ append d p m = .ok (d.put p (.file (d.content p ++ m.line)))) ∨
      (d.isWritable p = false ∧ append d p m = .error .io) := by
  rw [append, Disk.append?]
  rcases d.write?_cases p (d.content p ++ m.line) with ⟨hwritable, hwrite⟩ | ⟨hwritable, hwrite⟩
  · rw [hwrite]
    exact .inl ⟨hwritable, rfl⟩
  · rw [hwrite]
    exact .inr ⟨hwritable, rfl⟩

/-- An append only adds a line. -/
theorem grows_of_append {after : Disk} (h : append d p m = .ok after) : Grows p d after := by
  obtain ⟨hline, hbody⟩ := line_eq_written m
  rcases append_cases d p m with ⟨hwritable, happend⟩ | ⟨-, happend⟩
  · rw [happend] at h
    obtain rfl := Except.ok.inj h
    refine ⟨⟨written m, hbody, ?_⟩, fun q hq => Disk.at?_put_ne hq⟩
    rw [Disk.at?_put (Disk.isOrigin_of_isWritable hwritable), hline]
  · rw [happend] at h
    cases h

/-- The entries of a log are those on the lines of its content. -/
theorem ofLines_content (h : load d p = .ok es) : ofLines (linesOf (d.content p)) = .ok es := by
  rw [load] at h
  rw [Disk.content]
  rcases hat : d.at? p with _ | content | _
  · rw [hat] at h
    exact h
  · rw [hat] at h
    exact h
  · rw [hat] at h
    cases h

/-- **One append.** What the entry settles to is read behind the entries that were read before, and the file
can be appended to again. -/
theorem load_append {after : Disk} (hload : load d p = .ok es) (hend : EndsLine (d.content p))
    (hm : m.loggedAt.IsRepresentable) (h : append d p m = .ok after) :
    load after p = .ok (es ++ [m.settled]) ∧ EndsLine (after.content p) := by
  obtain ⟨hline, hbody⟩ := line_eq_written m
  rcases append_cases d p m with ⟨hwritable, happend⟩ | ⟨-, happend⟩
  · rw [happend] at h
    obtain rfl := Except.ok.inj h
    have horigin := Disk.isOrigin_of_isWritable hwritable
    have hlines : linesOf (d.content p ++ m.line) = linesOf (d.content p) ++ [written m] := by
      rw [linesOf_append hend, hline, linesOf_line hbody]
    refine ⟨?_, ?_⟩
    · rw [load, Disk.at?_put horigin]
      dsimp only
      rw [hlines]
      exact ofLines_append (ofLines_content hload) (ofLine_written hm)
    · rw [Disk.content_put horigin, hline]
      exact endsLine_append _ _
  · rw [happend] at h
    cases h

/-! ### Any number of appends -/

/-- The disk with some entries appended to the log at a path, one after the other. -/
def appendAll (d : Disk) (p : Path) : List Miss → Except StoreError Disk
  | [] => .ok d
  | m :: ms =>
    match append d p m with
    | .error e => .error e
    | .ok d => appendAll d p ms

/-- The first entry is appended, and the others to the log that it leaves. -/
theorem appendAll_cons_iff {last : Disk} : appendAll d p (m :: ms) = .ok last ↔
    ∃ next, append d p m = .ok next ∧ appendAll next p ms = .ok last := by
  rw [appendAll]
  rcases append d p m with e | next <;> simp

/-- Appending succeeds exactly if the log can be written, as far as there is anything to append. -/
theorem exists_appendAll_iff : (∃ last, appendAll d p ms = .ok last) ↔ ms = [] ∨ d.isWritable p := by
  induction ms generalizing d with
  | nil => exact ⟨fun _ => .inl rfl, fun _ => ⟨d, rfl⟩⟩
  | cons m ms ih =>
    rcases append_cases d p m with ⟨hwritable, happend⟩ | ⟨hwritable, happend⟩
    · have hagain : (d.put p (.file (d.content p ++ m.line))).isWritable p :=
        Disk.isWritable_put hwritable
      simp [appendAll_cons_iff, happend, ih, hagain, hwritable]
    · simp [appendAll_cons_iff, happend, hwritable]

/-- What was appended is read, as it settles, behind the entries that were read before. -/
theorem load_of_appendAll {last : Disk} (hload : load d p = .ok es) (hend : EndsLine (d.content p))
    (hms : ∀ m ∈ ms, m.loggedAt.IsRepresentable) (h : appendAll d p ms = .ok last) :
    load last p = .ok (es ++ ms.map Miss.settled) := by
  induction ms generalizing d es with
  | nil =>
    obtain rfl : d = last := Except.ok.inj h
    rw [List.map_nil, List.append_nil, hload]
  | cons m ms ih =>
    obtain ⟨next, happend, hrest⟩ := appendAll_cons_iff.1 h
    obtain ⟨hnext, hmore⟩ := load_append hload hend (hms m List.mem_cons_self) happend
    rw [ih hnext hmore (fun m' hm' => hms m' (List.mem_cons_of_mem m hm')) hrest, List.append_assoc]
    rfl

/-- What is appended behind some entries is appended to the log that they left. -/
theorem exists_append_of_appendAll {past rest : List Miss} {last : Disk}
    (h : appendAll d p (past ++ m :: rest) = .ok last) : ∃ before after,
      appendAll d p past = .ok before ∧ append before p m = .ok after := by
  induction past generalizing d with
  | nil =>
    obtain ⟨after, happend, -⟩ := appendAll_cons_iff.1 h
    exact ⟨d, after, rfl, happend⟩
  | cons first past ih =>
    obtain ⟨next, hfirst, hrest⟩ := appendAll_cons_iff.1 h
    obtain ⟨before, after, hpast, happend⟩ := ih hrest
    exact ⟨before, after, appendAll_cons_iff.2 ⟨next, hfirst, hpast⟩, happend⟩

/-- **What was appended is read back.** Entries can be appended whenever the log can be written, and
then they are read in order behind those that were read before, each as it settles. These are the entries
themselves if and only if their instants are dates and times of day. Every append only adds a line. -/
theorem load_appendAll (hload : load d p = .ok es) (hend : EndsLine (d.content p))
    (hms : ∀ m ∈ ms, m.loggedAt.IsRepresentable) :
    ((∃ last, appendAll d p ms = .ok last) ↔ ms = [] ∨ d.isWritable p) ∧
      (∀ last, appendAll d p ms = .ok last → load last p = .ok (es ++ ms.map Miss.settled) ∧
        ∀ past m rest, ms = past ++ m :: rest → ∃ before after,
          appendAll d p past = .ok before ∧ append before p m = .ok after ∧ Grows p before after) ∧
      (ms.map Miss.settled = ms ↔ ∀ m ∈ ms, m.loggedAt.IsCivil) := by
  refine ⟨exists_appendAll_iff, fun last hlast => ⟨load_of_appendAll hload hend hms hlast, ?_⟩,
    Miss.map_settled_eq_iff hms⟩
  rintro past m rest rfl
  obtain ⟨before, after, hpast, happend⟩ := exists_append_of_appendAll hlast
  exact ⟨before, after, hpast, happend, grows_of_append happend⟩

/-- The path of a log in the folder that others begin in. -/
def kept : Path := ["m".toList]

/-- A disk with a log of one entry, written by another hand: a line end of two characters, a blank
line, and no referrer. -/
def worn : Disk :=
  ⟨[(kept, .file (Utf8.encode
    "\x7b\"logged_at\": \"2024-06-01 12:00:00Z\", \"request_uri\": \"/old\"\x7d\r\n \n".toList))]⟩

/-- The entry of that log. -/
def wornMiss : Miss := ⟨⟨"/old".toList, none, none⟩, ⟨1717243200, 0⟩⟩

/-- A request with line ends of all kinds, and one without any characters in a leap second. -/
def oddMisses : List Miss :=
  [⟨⟨"/a\nb\r\u0085\u2028\\\"".toList, some "\x00\t".toList, none⟩, ⟨0, 1⟩⟩,
    ⟨⟨[], none, some []⟩, ⟨1483228799, 1500000000⟩⟩]

/-- Both requests are read back behind the first entry, as they were. -/
theorem load_appendAll_worn : load worn kept = .ok [wornMiss] ∧ EndsLine (worn.content kept) ∧
    (∀ m ∈ oddMisses, m.loggedAt.IsRepresentable) ∧
    ∃ last, appendAll worn kept oddMisses = .ok last ∧ load last kept = .ok (wornMiss :: oddMisses) := by
  have hload : load worn kept = .ok [wornMiss] := by decide +kernel
  have hend : EndsLine (worn.content kept) := by decide +kernel
  have hms : ∀ m ∈ oddMisses, m.loggedAt.IsRepresentable := by decide
  obtain ⟨hiff, hrun, hsame⟩ := load_appendAll hload hend hms
  obtain ⟨last, hlast⟩ := hiff.2 (.inr (by decide))
  have hlogged := (hrun last hlast).1
  rw [hsame.2 (by decide)] at hlogged
  exact ⟨hload, hend, hms, last, hlast, hlogged⟩

/-- An entry of a second that has leapt within a minute. -/
def leaptMiss : Miss := ⟨⟨[], none, none⟩, ⟨30, 1500000000⟩⟩

/-- An entry of a second that has leapt within a minute is appended to an empty log, and another is read back.
And a log in a folder that there is not is read, without entries, but nothing can be appended to it. -/
theorem lost_append :
    (leaptMiss.loggedAt.IsRepresentable ∧ load ⟨[]⟩ kept = .ok [] ∧ ∃ last,
      append ⟨[]⟩ kept leaptMiss = .ok last ∧ load last kept = .ok [leaptMiss.settled] ∧
        leaptMiss.settled ≠ leaptMiss) ∧
    load ⟨[]⟩ ["missing".toList, "m".toList] = .ok [] ∧
      append ⟨[]⟩ ["missing".toList, "m".toList] wornMiss = .error .io := by
  have hleapt : leaptMiss.loggedAt.IsRepresentable := by decide
  have happend : append ⟨[]⟩ kept leaptMiss = .ok (Disk.put ⟨[]⟩ kept (.file ([] ++ leaptMiss.line))) := rfl
  have hload : load ⟨[]⟩ kept = .ok [] := rfl
  exact ⟨⟨hleapt, hload, _, happend, (load_append hload (.inl rfl) hleapt happend).1, by decide⟩, rfl, rfl⟩

end MissLog

end Detour
