import Detour.Toml.Basic

/-!
# Tables under construction

A TOML document defines its tables piece by piece: by a header, by a key with dots, or on the way to
another table. `Node` remembers how a table came to be, because a table may be opened by a header only
once, and keys with dots may only extend tables that such keys have made.

* `Node.descend` changes the table at the end of a path and makes the tables on the way;
* `Node.openTable`, `Node.openElement` and `Node.assign` are what headers and entries do.
-/

namespace Detour

namespace Toml

/-- What stands under a key while a document is read. -/
inductive Node where
  /-- a finished value -/
  | value (v : Toml)
  /-- a table; `opened` tells whether a header has opened it, and `dotted` whether a key with dots has
  made it -/
  | table (opened dotted : Bool) (entries : List (Text × Node))
  /-- a list of tables opened by headers, the latest first -/
  | tables (elements : List (List (Text × Node)))

namespace Node

/-- The entries of a table under construction. -/
abbrev Entries := List (Text × Node)

/-- Entries with what stands under one key put in or replaced. -/
def set (key : Text) (n : Node) : Entries → Entries
  | [] => [(key, n)]
  | (k, m) :: rest => if k = key then (k, n) :: rest else (k, m) :: set key n rest

/-- Entries after a change to the table at the end of a path. With `dotted` the path is that of a key,
which may only pass tables that no header has opened; the change is told whether a key with dots has
made the table. -/
def descend (dotted : Bool) (change : Bool → Entries → Option Entries) :
    (path : List Text) → (made : Bool) → Entries → Option Entries
  | [], made, entries => change made entries
  | key :: path, _, entries =>
    match entries.lookup key with
    | none =>
      (descend dotted change path dotted []).map fun sub => set key (table false dotted sub) entries
    | some (value _) => none
    | some (tables []) => none
    | some (tables (latest :: others)) =>
      (descend dotted change path false latest).map fun sub =>
        set key (tables (sub :: others)) entries
    | some (table opened made sub) =>
      if dotted && opened then none
      else
        (descend dotted change path made sub).map fun sub => set key (table opened made sub) entries

/-- Entries after a header that opens the table under the last key of a path. -/
def openTable (path : List Text) (key : Text) (root : Entries) : Option Entries :=
  descend false (fun _ entries =>
    match entries.lookup key with
    | none => some (set key (table true false []) entries)
    | some (table false false sub) => some (set key (table true false sub) entries)
    | some _ => none) path false root

/-- Entries after a header that adds a table to the list under the last key of a path. -/
def openElement (path : List Text) (key : Text) (root : Entries) : Option Entries :=
  descend false (fun _ entries =>
    match entries.lookup key with
    | none => some (set key (tables [[]]) entries)
    | some (tables elements) => some (set key (tables ([] :: elements)) entries)
    | some _ => none) path false root

/-- Entries with one more value under a key, which may have dots before its last part. -/
def assign (path : List Text) (key : Text) (v : Toml) (entries : Entries) : Option Entries :=
  descend true (fun made entries =>
    if made == path.isEmpty then none
    else match entries.lookup key with
      | none => some (set key (value v) entries)
      | some _ => none) path false entries

/-- Entries after an assignment in the table at the end of a path. -/
def assignAt (current path : List Text) (key : Text) (v : Toml) (root : Entries) : Option Entries :=
  descend false (fun _ entries => assign path key v entries) current false root

mutual

/-- The value that a node has become. -/
def finish : Node → Toml
  | value v => v
  | table _ _ entries => .table (finishEntries entries)
  | tables elements => .array (finishElements elements [])

/-- The entries that have become of those under construction. -/
def finishEntries : List (Text × Node) → List (Text × Toml)
  | [] => []
  | (k, n) :: rest => (k, n.finish) :: finishEntries rest

/-- The elements of a list, given in reverse, in front of others. -/
def finishElements : List (List (Text × Node)) → List Toml → List Toml
  | [], others => others
  | e :: rest, others => finishElements rest (.table (finishEntries e) :: others)

end

end Node

end Toml

end Detour
