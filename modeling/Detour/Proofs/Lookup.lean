import Detour.Proofs.Cleaning
import Detour.Rewrite.Collection

/-!
# Looking up mapped values

A collection is stored as text, and a key is looked up in all collections of a pass. What is found is what
a search backwards would find: the last collection of the name, and in it the last line with the key.

* `Text.lines`: the lines of a text, which end at a line feed with or without a carriage return.
* `Collection.Gives`: what a line says, and `Collection.Keeps`: what the last line with a key says. By
  `Collection.get?_values_eq_some_iff` this is the value of the key.
* `Collections.IsLatest`: the last collection of a name; by `Collections.get?_load_eq_some_iff` its values are
  loaded. `Collections.lookup_latest` puts both together.
-/

namespace Detour

namespace Text

/-! ### Lines and parts -/

/-- The lines of a text. A line ends at a line feed, and a carriage return in front of that belongs to the
end; behind the last end there is no line. -/
def lines : Text → List Text
  | [] => []
  | '\n' :: s => [] :: lines s
  | '\r' :: '\n' :: s => [] :: lines s
  | c :: s =>
    match lines s with
    | [] => [[c]]
    | first :: rest => (c :: first) :: rest

example : lines "a\r\nb\rc\n\nd".toList = ["a".toList, "b\rc".toList, [], "d".toList] := by decide

/-- A text without separators is its only part. -/
theorem split_of_notMem {sep : Char} {s : Text} (h : sep ∉ s) : split sep s = [s] := by
  induction s with
  | nil => rfl
  | cons c s ih =>
    rw [List.mem_cons, not_or] at h
    rw [split, if_neg (Ne.symm h.1), ih h.2]

/-- What stands before the first separator is a part, and so are the parts behind it. -/
theorem split_append {sep : Char} {part : Text} (h : sep ∉ part) (s : Text) :
    split sep (part ++ sep :: s) = part :: split sep s := by
  induction part with
  | nil => rw [List.nil_append, split, if_pos rfl]
  | cons c part ih =>
    rw [List.mem_cons, not_or] at h
    rw [List.cons_append, split, if_neg (Ne.symm h.1), ih h.2]

/-- Only the empty text has no lines. -/
theorem lines_eq_nil {s : Text} (h : lines s = []) : s = [] := by
  unfold lines at h
  split at h
  · rfl
  · cases h
  · cases h
  · split at h <;> cases h

/-- **The lines are the parts between line feeds**, up to a carriage return at the end of a part, and without
an empty part at the end. -/
theorem lines_parts (s : Text) : ∃ rest, (rest = [] ∨ rest = [[]]) ∧
    List.Forall₂ (fun part line => part = line ∨ part = line ++ ['\r']) (split '\n' s)
      (lines s ++ rest) := by
  fun_induction lines s with
  | case1 => exact ⟨[[]], .inr rfl, .cons (.inl rfl) .nil⟩
  | case2 s ih =>
    obtain ⟨rest, hrest, hparts⟩ := ih
    exact ⟨rest, hrest, .cons (.inl rfl) hparts⟩
  | case3 s ih =>
    obtain ⟨rest, hrest, hparts⟩ := ih
    exact ⟨rest, hrest, .cons (.inr rfl) hparts⟩
  | case4 c s hfeed _ hnil _ =>
    obtain rfl := lines_eq_nil hnil
    refine ⟨[], .inl rfl, ?_⟩
    rw [split_of_notMem (by simpa using Ne.symm hfeed)]
    exact .cons (.inl rfl) .nil
  | case5 c s hfeed _ first others hcons ih =>
    obtain ⟨rest, hrest, hparts⟩ := ih
    refine ⟨rest, hrest, ?_⟩
    rw [hcons, List.cons_append] at hparts
    rw [split, if_neg hfeed]
    cases hsplit : split '\n' s with
    | nil => exact absurd hsplit (split_ne_nil _ s)
    | cons part parts =>
      rw [hsplit] at hparts
      obtain ⟨hsame, hothers⟩ := List.forall₂_cons.1 hparts
      refine .cons ?_ hothers
      rcases hsame with rfl | rfl
      · exact .inl rfl
      · exact .inr rfl

/-- White space at the end makes no difference to a trimmed text. -/
theorem trim_concat {c : Char} (hc : isBlank c) (s : Text) : trim (s ++ [c]) = trim s := by
  obtain ⟨front, back, hs, hfront, hback, hfirst, hlast⟩ := exists_trimBoth isBlank s
  have hmore : ∀ d ∈ back ++ [c], isBlank d := fun d hd => by
    rcases List.mem_append.1 hd with hd | hd
    · exact hback d hd
    · rwa [List.mem_singleton.1 hd]
  calc trim (s ++ [c]) = trimBoth isBlank (front ++ trimBoth isBlank s ++ (back ++ [c])) := by
        rw [trim, ← List.append_assoc, ← hs]
    _ = trim s := trimBoth_append hfront hmore hfirst hlast

end Text

/-- Lists that are told apart by nothing that is looked at give the same. -/
theorem filterMap_eq_of_forall₂ {α β : Type} {f : α → Option β} {l l' : List α}
    (h : List.Forall₂ (fun a b => f a = f b) l l') : l.filterMap f = l'.filterMap f := by
  induction h with
  | nil => rfl
  | cons h _ ih => rw [List.filterMap_cons, List.filterMap_cons, h, ih]

/-! ### Lines of a collection -/

namespace Collection

/-- Whether a line gives a key a value: the key stands before the first equals sign, and the value between
it and the second one or the end of the line. Both are trimmed. -/
def Gives (line key value : Text) : Prop :=
  ∃ before between rest, line = before ++ '=' :: (between ++ rest) ∧ '=' ∉ before ∧ '=' ∉ between ∧
    (rest = [] ∨ rest.head? = some '=') ∧ Text.trim before = key ∧ Text.trim between = value

/-- Whether the last line with a key gives it a value. -/
def Keeps (c : Collection) (key value : Text) : Prop :=
  ∃ above line below, Text.lines c.mappings = above ++ line :: below ∧ Gives line key value ∧
    ∀ l ∈ below, ∀ other, ¬ Gives l key other

/-- A line without an equals sign is no entry. -/
theorem entry?_of_notMem {line : Text} (h : '=' ∉ line) : entry? line = none := by
  rw [ entry?, Text.split_of_notMem h]

/-- A line with an equals sign is the entry of the texts before and behind it. -/
theorem entry?_of_parts {before between rest : Text} (hbefore : '=' ∉ before) (hbetween : '=' ∉ between)
    (hrest : rest = [] ∨ rest.head? = some '=') :
    entry? (before ++ '=' :: (between ++ rest)) = some (Text.trim before, Text.trim between) := by
  rw [ entry?, Text.split_append hbefore]
  rcases hrest with rfl | hrest
  · rw [List.append_nil, Text.split_of_notMem hbetween]
  · obtain ⟨rest, rfl⟩ := List.head?_eq_some_iff.1 hrest
    rw [Text.split_append hbetween]

/-- The texts before and behind the first equals sign of a line, if it has one. -/
theorem line_cases (line : Text) : '=' ∉ line ∨ ∃ before between rest,
    line = before ++ '=' :: (between ++ rest) ∧ '=' ∉ before ∧ '=' ∉ between ∧
      (rest = [] ∨ rest.head? = some '=') := by
  by_cases hline : '=' ∈ line
  · obtain ⟨before, behind, rfl, hbefore⟩ := List.eq_append_cons_of_mem hline
    by_cases hbehind : '=' ∈ behind
    · obtain ⟨between, rest, rfl, hbetween⟩ := List.eq_append_cons_of_mem hbehind
      exact .inr ⟨before, between, '=' :: rest, rfl, hbefore, hbetween, .inr rfl⟩
    · exact .inr ⟨before, behind, [], by rw [List.append_nil], hbefore, hbehind, .inl rfl⟩
  · exact .inl hline

/-- The entry of a line is what the line gives. -/
theorem entry?_eq_some_iff {line key value : Text} :
    entry? line = some (key, value) ↔ Gives line key value := by
  constructor
  · intro h
    rcases line_cases line with hline | ⟨before, between, rest, rfl, hbefore, hbetween, hrest⟩
    · rw [entry?_of_notMem hline] at h
      cases h
    · rw [entry?_of_parts hbefore hbetween hrest] at h
      obtain ⟨hkey, hvalue⟩ := Prod.mk.inj (Option.some.inj h)
      exact ⟨before, between, rest, rfl, hbefore, hbetween, hrest, hkey, hvalue⟩
  · rintro ⟨before, between, rest, rfl, hbefore, hbetween, hrest, rfl, rfl⟩
    exact entry?_of_parts hbefore hbetween hrest

/-- A carriage return at the end of a line makes no difference to its entry. -/
theorem entry?_return (line : Text) : entry? (line ++ ['\r']) = entry? line := by
  rcases line_cases line with hline | ⟨before, between, rest, rfl, hbefore, hbetween, hrest⟩
  · have hmore : '=' ∉ line ++ ['\r'] := by simpa using hline
    rw [entry?_of_notMem hline, entry?_of_notMem hmore]
  rw [entry?_of_parts hbefore hbetween hrest]
  rcases hrest with rfl | hrest
  · have hmore : '=' ∉ between ++ ['\r'] := by simpa using hbetween
    have hline : before ++ '=' :: (between ++ []) ++ ['\r'] =
        before ++ '=' :: ((between ++ ['\r']) ++ []) := by simp
    rw [hline, entry?_of_parts hbefore hmore (.inl rfl), Text.trim_concat (by decide)]
  · obtain ⟨rest, rfl⟩ := List.head?_eq_some_iff.1 hrest
    have hline : before ++ '=' :: (between ++ '=' :: rest) ++ ['\r'] =
        before ++ '=' :: (between ++ '=' :: (rest ++ ['\r'])) := by simp
    rw [hline, entry?_of_parts hbefore hbetween (.inr rfl)]

/-- The entries of a collection are those of its lines. -/
theorem entries_eq (c : Collection) : c.entries = (Text.lines c.mappings).filterMap entry? := by
  obtain ⟨rest, hrest, hparts⟩ := Text.lines_parts c.mappings
  have hsame : List.Forall₂ (fun part line => entry? part = entry? line)
      (Text.split '\n' c.mappings) (Text.lines c.mappings ++ rest) := by
    refine hparts.imp fun part line h => ?_
    rcases h with rfl | rfl
    · rfl
    · exact entry?_return line
  have hnone : rest.filterMap entry? = [] := by
    rcases hrest with rfl | rfl <;> rfl
  rw [entries, filterMap_eq_of_forall₂ hsame, List.filterMap_append, hnone, List.append_nil]

/-- **The value of a key** is what the last line with the key says. -/
theorem get?_values_eq_some_iff {c : Collection} {key value : Text} :
    c.values.get? key = some value ↔ c.Keeps key value := by
  rw [values, Map.get?_ofList_eq_some_iff, entries_eq]
  constructor
  · rintro ⟨front, back, hentries, hback⟩
    obtain ⟨above, rest, hlines, -, hrest⟩ := List.filterMap_eq_append_iff.1 hentries
    obtain ⟨blank, line, below, rfl, -, hline, hbelow⟩ := List.filterMap_eq_cons_iff.1 hrest
    refine ⟨above ++ blank, line, below, by rw [hlines, List.append_assoc],
      entry?_eq_some_iff.1 hline, fun l hl other hgives => ?_⟩
    have hmem : (key, other) ∈ back := by
      rw [← hbelow]
      exact List.mem_filterMap.2 ⟨l, hl, entry?_eq_some_iff.2 hgives⟩
    exact hback _ hmem rfl
  · rintro ⟨above, line, below, hlines, hline, hbelow⟩
    refine ⟨above.filterMap entry?, below.filterMap entry?, ?_, ?_⟩
    · rw [hlines, List.filterMap_append, List.filterMap_cons, entry?_eq_some_iff.2 hline]
    · rintro ⟨_, other⟩ hentry rfl
      obtain ⟨l, hl, hgives⟩ := List.mem_filterMap.1 hentry
      exact hbelow l hl other (entry?_eq_some_iff.1 hgives)

end Collection

/-! ### All collections of a pass -/

namespace Collections

/-- Whether a collection is the last one of a name. -/
def IsLatest (cs : Collections) (name : Text) (c : Collection) : Prop :=
  c.name = name ∧ ∃ front back, cs = front ++ c :: back ∧ ∀ d ∈ back, d.name ≠ name

/-- The values that are loaded under a name are those of the last collection of that name. -/
theorem get?_load_eq_some_iff {cs : Collections} {name : Text} {values : Map Text Text} :
    (load cs).get? name = some values ↔ ∃ c, cs.IsLatest name c ∧ c.values = values := by
  rw [load, Map.get?_ofList_eq_some_iff]
  constructor
  · rintro ⟨front, back, hcs, hback⟩
    obtain ⟨before, rest, rfl, -, hrest⟩ := List.map_eq_append_iff.1 hcs
    obtain ⟨c, behind, rfl, hc, rfl⟩ := List.map_eq_cons_iff.1 hrest
    obtain ⟨hname, hvalues⟩ := Prod.mk.inj hc
    exact ⟨c, ⟨hname, before, behind, rfl, fun d hd => hback (d.name, d.values) (List.mem_map_of_mem hd)⟩,
      hvalues⟩
  · rintro ⟨c, ⟨rfl, front, back, rfl, hback⟩, rfl⟩
    refine ⟨front.map fun d => (d.name, d.values), back.map fun d => (d.name, d.values), by simp, ?_⟩
    intro e he
    obtain ⟨d, hd, rfl⟩ := List.mem_map.1 he
    exact hback d hd

/-- A key has a value if the last line with the key, in the last collection of the name, gives it that. -/
theorem lookup_eq_some_iff {cs : Collections} {name key value : Text} :
    cs.lookup name key = some value ↔ ∃ c, cs.IsLatest name c ∧ c.Keeps key value := by
  simp only [lookup, Option.bind_eq_some_iff, get?_load_eq_some_iff, ← Collection.get?_values_eq_some_iff]
  constructor
  · rintro ⟨_, ⟨c, hlatest, rfl⟩, hvalue⟩
    exact ⟨c, hlatest, hvalue⟩
  · rintro ⟨c, hlatest, hvalue⟩
    exact ⟨c.values, ⟨c, hlatest, rfl⟩, hvalue⟩

/-- Collections in front of one with the same name make no difference. -/
theorem lookup_append (front others back : Collections) (c : Collection) (key : Text) :
    lookup (front ++ c :: back) c.name key = lookup (others ++ c :: back) c.name key := by
  have hload (front : Collections) : (load (front ++ c :: back)).get? c.name =
      (load (c :: back)).get? c.name := by
    rw [load, List.map_append, Map.get?_ofList_append (by simp), load]
  rw [lookup, lookup, hload, hload]

/-- As many names are listed as there are different ones. -/
theorem length_names (cs : Collections) :
    cs.names.length = (cs.map Collection.name).toFinset.card := by
  rw [names, ← List.toFinset_card_of_nodup (load cs).distinct]
  congr 1
  ext name
  rw [List.mem_toFinset, List.mem_toFinset, load, Map.mem_keys_ofList, List.map_map]
  rfl

/-- **Looking up goes backwards** through the collections and through the lines: a key has a value exactly if
the last collection of the name has a line with the key, and the last such line gives it. Collections
in front of it do not count, a key without a value stands for itself, and there are as many tables as
different names. -/
theorem lookup_latest (cs : Collections) (name key : Text) :
    (∀ value, cs.lookup name key = some value ↔ ∃ c, cs.IsLatest name c ∧ c.Keeps key value) ∧
      (∀ front others back c, lookup (front ++ c :: back) c.name key =
        lookup (others ++ c :: back) c.name key) ∧
      (∀ value, cs.mapOrSelf name key = value ↔ (∃ c, cs.IsLatest name c ∧ c.Keeps key value) ∨
        value = key ∧ ∀ c, cs.IsLatest name c → ∀ other, ¬ c.Keeps key other) ∧
      cs.names.length = (cs.map Collection.name).toFinset.card := by
  refine ⟨fun value => lookup_eq_some_iff, fun front others back c => lookup_append front others back c key,
    fun value => ?_, length_names cs⟩
  rw [← lookup_eq_some_iff, mapOrSelf]
  cases hlookup : cs.lookup name key with
  | none =>
    have hnone : ∀ c, cs.IsLatest name c → ∀ other, ¬ c.Keeps key other := fun c hc other hkeeps => by
      rw [lookup_eq_some_iff.2 ⟨c, hc, hkeeps⟩] at hlookup
      cases hlookup
    rw [Option.getD_none]
    exact ⟨fun hkey => .inr ⟨hkey.symm, hnone⟩, fun h => (h.resolve_left nofun).1.symm⟩
  | some found =>
    obtain ⟨c, hc, hkeeps⟩ := lookup_eq_some_iff.1 hlookup
    have hsome : ¬ ∀ c, cs.IsLatest name c → ∀ other, ¬ c.Keeps key other := fun hnone =>
      hnone c hc found hkeeps
    rw [Option.getD_some, Option.some_inj]
    exact ⟨.inl, fun h => h.resolve_right fun hkey => hsome hkey.2⟩

end Collections

end Detour
