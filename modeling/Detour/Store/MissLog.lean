import Detour.Instant.Reading
import Detour.Json.Reading
import Detour.Request.Basic
import Detour.Store.Ledger

/-!
# The log of missing pages

Requests that no rule redirects are logged, one JSON object on a line for each. Lines are only ever
appended. When the log is read, blank lines are passed over and the first line that is no entry stops
the reading.
-/

namespace Detour

/-- A logged request. -/
structure Miss where
  /-- the request -/
  request : Request
  /-- when it was logged -/
  loggedAt : Instant
deriving Repr, DecidableEq

namespace Miss

/-- An entry as it is stored. -/
def toJson (m : Miss) : Json :=
  .ofMembers [("request_uri", .ofText m.request.uri),
    ("referrer", .ofOption .ofText m.request.referrer),
    ("user_agent", .ofOption .ofText m.request.userAgent),
    ("logged_at", .ofText m.loggedAt.write)]

/-- The line of an entry. -/
def line (m : Miss) : Bytes := Utf8.encode (m.toJson.write ++ ['\n'])

/-- A stored text that may be absent or `null`. -/
def optional? : Option Json → Option (Option Text)
  | none | some .null => some none
  | some j => j.toText?.map some

/-- A stored entry. -/
def ofJson? (j : Json) : Option Miss := do
  match ← Json.fields? ["request_uri".toList, "referrer".toList, "user_agent".toList,
      "logged_at".toList] j with
  | [some uri, referrer, userAgent, some loggedAt] =>
    some ⟨⟨← uri.toText?, ← optional? referrer, ← optional? userAgent⟩,
      ← Instant.readLoose? (← loggedAt.toText?)⟩
  | _ => none

end Miss

namespace MissLog

/-- The lines of a file without their ends; there is no line behind the last line end. -/
def linesOf : Bytes → List Bytes
  | [] => []
  | b :: bytes =>
    if b = 10 then [] :: linesOf bytes
    else match linesOf bytes with
      | [] => [[b]]
      | first :: rest => (b :: first) :: rest

/-- The entry on a line, if the line is not blank. -/
def ofLine (bytes : Bytes) : Except StoreError (Option Miss) :=
  match Utf8.decode? bytes with
  | none => .error .io
  | some s =>
    if (Text.trim s).isEmpty then .ok none
    else match (Json.read? s).bind Miss.ofJson? with
      | some m => .ok (some m)
      | none => .error .json

/-- The entries on some lines, up to the first that cannot be read. -/
def ofLines : List Bytes → Except StoreError (List Miss)
  | [] => .ok []
  | bytes :: rest =>
    match ofLine bytes with
    | .error e => .error e
    | .ok m =>
      match ofLines rest with
      | .error e => .error e
      | .ok ms => .ok (m.toList ++ ms)

/-- The entries of the log at a path; none if there is no file. -/
def load (d : Disk) (p : Path) : Except StoreError (List Miss) :=
  match d.at? p with
  | none => .ok []
  | some .folder => .error .io
  | some (.file content) => ofLines (linesOf content)

/-- The disk with one more entry in the log at a path. -/
def append (d : Disk) (p : Path) (m : Miss) : Except StoreError Disk :=
  match d.append? p m.line with
  | some d => .ok d
  | none => .error .io

end MissLog

end Detour
