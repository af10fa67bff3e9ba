import Detour.Directory
import Detour.Rewrite.Collection
import Detour.Rule
import Detour.Store.Ledger
import Detour.Toml.Reading

/-!
# Tables of rules

The file that rules are kept in: the rules in the order in which they are tried, the collections of
mappings, and the paths of pages and selectors. It is a TOML document; a part that is left out is empty,
and unknown parts are passed over.
-/

namespace Detour

/-- The rule that a TOML table gives; its bounds, hits and last hit may be left out. -/
def Rule.ofToml? (v : Toml) : Option Rule := do
  match ← Toml.fields? ["id".toList, "source".toList, "destination".toList, "date_start".toList,
      "date_end".toList, "hits".toList, "last_hit".toList] v with
  | [some id, some source, some destination, start, stop, hits, lastHit] =>
    some ⟨← id.toUInt64?, ← source.toText?, ← destination.toText?,
      ← Toml.ifPresent Toml.toText? start, ← Toml.ifPresent Toml.toText? stop,
      ← Toml.orDefault 0 Toml.toUInt64? hits, ← Toml.ifPresent Toml.toText? lastHit⟩
  | _ => none

/-- The collection that a TOML table gives. -/
def Collection.ofToml? (v : Toml) : Option Collection := do
  match ← Toml.fields? ["name".toList, "mappings".toList] v with
  | [some name, some mappings] => some ⟨← name.toText?, ← mappings.toText?⟩
  | _ => none

/-- A table of rules. -/
structure RuleTable where
  /-- the rules in the order in which they are tried -/
  rules : List Rule
  /-- the collections of mappings -/
  collections : List Collection
  /-- the path of each page under its key -/
  pages : List (Text × Text)
  /-- the path of each selector -/
  selectors : List (Text × Text)
deriving Repr, DecidableEq

namespace RuleTable

/-- The table without rules. -/
def empty : RuleTable := ⟨[], [], [], []⟩

/-- The table that a document gives. -/
def ofToml? (v : Toml) : Option RuleTable := do
  match ← Toml.fields? ["jumplinks".toList, "collections".toList, "pages".toList,
      "selectors".toList] v with
  | [rules, collections, pages, selectors] =>
    some ⟨← Toml.orDefault [] (Toml.toList? Rule.ofToml?) rules,
      ← Toml.orDefault [] (Toml.toList? Collection.ofToml?) collections,
      ← Toml.orDefault [] Toml.toTexts? pages, ← Toml.orDefault [] Toml.toTexts? selectors⟩
  | _ => none

/-- The table in a file. -/
def ofEntry (e : Entry) : Except StoreError RuleTable :=
  match Disk.text? e with
  | none => .error .io
  | some s =>
    match (Toml.read? s).bind ofToml? with
    | none => .error .table
    | some t => .ok t

/-- The table at a path; empty if there is no file. -/
def load (d : Disk) (p : Path) : Except StoreError RuleTable :=
  match d.at? p with
  | none => .ok empty
  | some e => ofEntry e

/-- How pages and selectors are found. -/
def directory (t : RuleTable) : Directory := .ofEntries t.pages t.selectors

end RuleTable

end Detour
