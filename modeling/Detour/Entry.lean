import Detour.Text.Basic

/-!
# The entry script

Requests for `index.php` need care, because the site itself answers the bare entry script. Inside the
engine the script of a source pattern, and of a request that continues behind it, carries a mark that
no request has by itself. `unmark` takes the mark off again before anything is shown.
-/

namespace Detour

/-- The name of the entry script. -/
def entryScript : Text := "index.php".toList

/-- The mark behind the name of the entry script. -/
def entryMark : Text := ".jumplink".toList

/-- The marked name of the entry script. -/
def markedEntry : Text := entryScript ++ entryMark

/-- A text with every mark taken off. -/
def unmark (s : Text) : Text := Text.replaceAll entryMark [] s

end Detour
