import Detour.Command.Run
import Std.Time.DateTime.Timestamp

/-!
# The program

The outer layer of the command line: it puts the files that a run needs on a disk, takes the time, runs
the command, and puts back the files that have changed, the ledger by way of a second file and the log by
appending to it. A file that cannot be written is left as it is. What the legacy site answers is for the
caller of `Program.run` to say; `main` has no way to reach it, so that there it never answers.
-/

namespace Detour

namespace Program

/-- What stands at a path. -/
def entry? (name : Text) : IO (Option Entry) := do
  try
    let bytes ← IO.FS.readBinFile (String.ofList name)
    return some (.file bytes.toList)
  catch
    | .noFileOrDirectory .. => return none
    | _ => return some .folder

/-- A disk with what stands at a path put on it. -/
def load (d : Disk) (name : Text) : IO Disk := do
  let path := Path.ofText name
  let d := if path.dropLast.isEmpty then d else d.put path.dropLast .folder
  match ← entry? name with
  | some e => return d.put path e
  | none => return d

/-- Puts a content at a path by way of a second file. -/
def replace (process : Nat) (name : Text) (content : Bytes) : IO Unit := do
  let second := String.ofList (name ++ '.' :: (writeNat process ++ ".tmp".toList))
  IO.FS.writeBinFile second ⟨content.toArray⟩
  IO.FS.rename second (String.ofList name)

/-- Puts something behind the content of a file, which is made if there is none. -/
def append (name : Text) (line : Bytes) : IO Unit :=
  IO.FS.withFile (String.ofList name) .append fun file => file.write ⟨line.toArray⟩

/-- Puts the file at a path back if it has changed. What has only grown may be appended to. -/
def store (process : Nat) (before after : Disk) (grows : Bool) (name : Text) : IO Unit := do
  let path := Path.ofText name
  match after.at? path with
  | some (.file content) =>
    if before.at? path ≠ some (.file content) then
      let old := before.content path
      try
        if grows && old.isPrefixOf content then append name (content.drop old.length)
        else replace process name content
      catch _ => return
  | _ => return

/-- The present instant. -/
def now : IO Instant := do
  let nanos := (← Std.Time.Timestamp.now).toNanosecondsSinceUnixEpoch.val
  return ⟨nanos / 1000000000, (nanos % 1000000000).toNat⟩

/-- The disk with the files that a run with some arguments may need, and where they are kept. -/
def prepare (args : List Text) : IO (Disk × Option Storage) := do
  match Invocation.read args with
  | .error _ => return (⟨[]⟩, none)
  | .ok i =>
    let d ← load ⟨[]⟩ i.config
    match Config.loadFrom d (Path.ofText i.config) with
    | .error _ => return (d, none)
    | .ok c =>
      return (← [c.storage.table, c.storage.hits, c.storage.misses].foldlM load d, some c.storage)

/-- Runs the program, if the legacy site answers as `probe` says. -/
def run (probe : Text → Option UInt16) (args : List Text) : IO UInt32 := do
  let process ← IO.monoNanosNow
  let (before, storage?) ← prepare args
  let (ending, after) := Invocation.run probe (← now) before args process
  if let some storage := storage? then
    store process before after false storage.hits
    -- the ledger and the log may be one file
    if Path.ofText storage.misses ≠ Path.ofText storage.hits then
      store process before after true storage.misses
  IO.print (String.ofList ending.text)
  IO.eprint (String.ofList ending.complaint)
  return ending.code.toUInt32

end Program

end Detour

/-- Runs the program. -/
def main (args : List String) : IO UInt32 :=
  Detour.Program.run (fun _ => none) (args.map String.toList)
