import Detour.Command.Arguments
import Detour.Command.Report
import Detour.Config.Reading
import Detour.Expr.Room
import Detour.Rewrite.Letters
import Detour.Store.RuleTable
import Detour.Url.Absolute

/-!
# Runs of the program

What a command line does to the files on a disk at an instant, and how the run ends. The program reads
its configuration and its table afresh in every run, so that runs one after another do what one session
would do.
-/

namespace Detour

/-- How a run ends. -/
inductive Ending where
  /-- with a document as its result -/
  | printed (j : Json)
  /-- with help -/
  | helped
  /-- in failure -/
  | failed
  /-- at once, because the command line makes no sense -/
  | misused
  /-- by breaking down -/
  | broke
deriving Repr

namespace Ending

/-- The code that a run ends with. -/
def code : Ending → UInt8
  | printed _ | helped => 0
  | failed => 1
  | misused => 2
  | broke => 101

/-- The words that help. -/
def usage : Text :=
  ("Usage: jumplinks [--config PATH] resolve PATH [--referrer R] [--user-agent UA] [--diagnose]\n" ++
    "       jumplinks [--config PATH] compile SOURCE\n" ++
    "       jumplinks [--config PATH] hits\n").toList

/-- What a run prints. -/
def text : Ending → Text
  | printed j => j.writeLines ++ ['\n']
  | helped => usage
  | failed | misused | broke => []

/-- What a run says besides its result. -/
def complaint : Ending → Text
  | misused => usage
  | failed => "The command failed.\n".toList
  | broke => "The program broke down.\n".toList
  | printed _ | helped => []

end Ending

section Run

variable [Dictionary] [UrlReader] [Limits]

namespace Command

/-- The session that a configuration and a table of rules describe. -/
def session (c : Config) (probe : Text → Option UInt16) (t : RuleTable) : Session :=
  ⟨Engine.ofConfigured c probe t.directory, t.rules, t.collections⟩

/-- The books that a configuration describes; a ledger that cannot be read counts as empty. -/
def files (c : Config) (d : Disk) : Files :=
  ⟨d, HitBook.loadOrEmpty d (Path.ofText c.storage.hits), Path.ofText c.storage.misses⟩

/-- What a request asks of a session. -/
def demand (request : Request) (diagnose : Bool) (now : Instant) : Demand :=
  if diagnose then .diagnose request now else .resolve request now

/-- How a run ends with an answer of a session. -/
def ending : Answer → Ending
  | .broken => .broke
  | a => .printed (Report.answer a)

/-- How a command ends in a process with a number, and the disk after it. -/
def run (c : Config) (probe : Text → Option UInt16) (now : Instant) (d : Disk) (process : Nat) :
    Command → Ending × Disk
  | resolve request diagnose =>
    match RuleTable.load d (Path.ofText c.storage.table) with
    | .error _ => (.failed, d)
    | .ok t =>
      let (a, _, files) :=
        (session c probe t).step (.files process) (files c d) (demand request diagnose now)
      (ending a, files.disk)
  | compile source => (.printed (Report.pattern source), d)
  | hits =>
    match Ledger.load d (Path.ofText c.storage.hits) with
    | .error _ => (.failed, d)
    | .ok l => (.printed (Report.hits l), d)

end Command

/-- How a run with some arguments ends in a process with a number, and the disk after it. -/
def Invocation.run (probe : Text → Option UInt16) (now : Instant) (d : Disk) (args : List Text)
    (process : Nat := 1) : Ending × Disk :=
  match read args with
  | .error .help => (.helped, d)
  | .error .misuse => (.misused, d)
  | .ok i =>
    match Config.loadFrom d (Path.ofText i.config) with
    | .error _ => (.failed, d)
    | .ok c => i.command.run c probe now d process

end Run

end Detour
