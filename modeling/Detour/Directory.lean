import Detour.Map
import Detour.Text.Digits
import Detour.Text.Word

/-!
# Pages and selectors

Destinations may name a page by its number or by a selector. A `Directory` says which paths these
have; `Directory.ofEntries` is the directory of two written tables, whose entries are put into maps in the
order of their keys. In the table of pages a key may be written with blanks around it, zeros before it and a
plus sign; a key that is no number is passed over.
-/

namespace Detour

/-- How pages and selectors are found. -/
structure Directory where
  /-- the path of a page -/
  page : UInt64 → Option Text
  /-- the path of the page that a selector finds -/
  selector : Text → Option Text

namespace Directory

/-- The directory that finds nothing. -/
def empty : Directory := ⟨fun _ => none, fun _ => none⟩

/-- The number of a page as its key is written. -/
def pageId? (key : Text) : Option UInt64 := readUInt64? (Text.trim key)

/-- The entries of a table in the order of their keys. -/
def inOrder (table : List (Text × Text)) : List (Text × Text) := table.mergeSort fun a b => Text.le a.1 b.1

/-- The paths of the pages of a table under their numbers. -/
def loadPages (pages : List (Text × Text)) : Map UInt64 Text :=
  (inOrder pages).foldl
    (fun paths e =>
      match pageId? e.1 with
      | some id => paths.insert id e.2
      | none => paths)
    .empty

/-- The paths of the selectors of a table. -/
def loadSelectors (selectors : List (Text × Text)) : Map Text Text :=
  (inOrder selectors).foldl (fun paths e => paths.insert e.1 e.2) .empty

/-- The path of a page in a table. -/
def findPage (pages : List (Text × Text)) (id : UInt64) : Option Text := (loadPages pages).get? id

/-- The path of a selector in a table, blanks around the selector passed over. -/
def findSelector (selectors : List (Text × Text)) (selector : Text) : Option Text :=
  (loadSelectors selectors).get? (Text.trim selector)

/-- The directory of a table of pages and one of selectors. -/
def ofEntries (pages selectors : List (Text × Text)) : Directory :=
  ⟨findPage pages, findSelector selectors⟩

end Directory

end Detour
