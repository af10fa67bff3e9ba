import Detour.Map
import Detour.Text.Piece
import Detour.Text.Folding
import Detour.Text.Word

/-!
# Mapping collections

A collection maps keys to values, one line `key=value` for each. Destinations refer to it as
`{name|collection}` for a captured value, and as `(key|collection)` for a key that is written out. A
key that has no entry stands for itself.

The collections of a pass are loaded into a map of maps, so that of several collections with one name the last
counts, and in a collection the last line with a key.
-/

namespace Detour

/-- A mapping collection as it is stored. -/
structure Collection where
  /-- the name by which destinations refer to it -/
  name : Text
  /-- lines of a key and a value -/
  mappings : Text
deriving Repr, DecidableEq

namespace Collection

/-- The entry of a line: the text before the first equals sign and the text between it and the
second, both trimmed. -/
def entry? (line : Text) : Option (Text × Text) :=
  match Text.split '=' line with
  | key :: value :: _ => some (Text.trim key, Text.trim value)
  | _ => none

/-- The entries of a collection in order; lines without an equals sign have none. -/
def entries (c : Collection) : List (Text × Text) := (Text.split '\n' c.mappings).filterMap entry?

/-- The values of a collection under their keys. -/
def values (c : Collection) : Map Text Text := .ofList c.entries

end Collection

/-- The collections of one pass in stored order. -/
abbrev Collections := List Collection

namespace Collections

/-- The values of the collections under their names. -/
def load (cs : Collections) : Map Text (Map Text Text) := .ofList (cs.map fun c => (c.name, c.values))

/-- The names of the collections, each once. -/
def names (cs : Collections) : List Text := (load cs).entries.map Prod.fst

/-- The value of a key in the collection of a name. -/
def lookup (cs : Collections) (name key : Text) : Option Text :=
  ((load cs).get? name).bind fun values => values.get? key

/-- The value of a key in the collection of a name, or else the key itself. -/
def mapOrSelf (cs : Collections) (name key : Text) : Text := (lookup cs name key).getD key

/-- Whether a character may stand in the key of a marker. -/
def isKeyChar (c : Char) : Bool := isWord c || c == '-' || c == '/'

/-- A marker `(key|collection)`, read as its key and its collection. -/
def markerForm : Form (Text × Text)
  | '(' :: s =>
    let key := s.takeWhile isKeyChar
    match s.drop key.length with
    | '|' :: s =>
      let name := s.takeWhile isBasicLetter
      if key.isEmpty || name.isEmpty || (s.drop name.length).head? != some ')' then none
      else some ((key, name), key.length + name.length + 3)
    | _ => none
  | _ => none

/-- A text with every marker replaced by the value it refers to. -/
def apply (cs : Collections) (s : Text) : Text :=
  Text.rewrite markerForm (fun (key, name) => mapOrSelf cs name key) s

end Collections

end Detour
