import Detour.Legacy
import Detour.Rewrite.Cleaning
import Detour.Text.Lowercase
import Detour.Text.Word

/-!
# Configurations

What a site may set: how requests are handled, how captured values are cleaned, the legacy site, where
files are kept and how much is logged. Everything has a standard setting.
-/

namespace Detour

/-- How requests are handled. -/
structure Handling where
  /-- the path that the site is mounted at -/
  root : Text := ['/']
  /-- the URL put in front of destinations without a scheme; none if blank -/
  site : Text := []
  /-- whether the books are left alone and the legacy site is not redirected to -/
  diagnostic : Bool := false
  /-- whether requests that nothing is found for are logged -/
  logMisses : Bool := true
deriving Repr, DecidableEq

/-- How captured values are cleaned. -/
structure CleaningSettings where
  /-- what is cleaned -/
  mode : CleaningMode := .fullClean
  /-- whether words and numbers are written apart -/
  enhanced : Bool := false
deriving Repr, DecidableEq

/-- What is known of the legacy site. -/
structure LegacySettings where
  /-- the URL of its root; there is no legacy site if it is blank -/
  domain : Text := []
  /-- the statuses that stand for an existing page -/
  accepted : List UInt16 := Legacy.usualStatuses
  /-- the number of seconds that an answer may take -/
  timeout : UInt64 := 5
deriving Repr, DecidableEq

/-- Where files are kept. -/
structure Storage where
  /-- the path of the table of rules -/
  table : Text := "jumplinks-table.toml".toList
  /-- the path of the hit ledger -/
  hits : Text := "jumplinks-hits.json".toList
  /-- the path of the log of missing pages -/
  misses : Text := "jumplinks-404.jsonl".toList
deriving Repr, DecidableEq

/-- A configuration. -/
structure Config where
  /-- how requests are handled -/
  handling : Handling := {}
  /-- how captured values are cleaned -/
  cleaner : CleaningSettings := {}
  /-- the legacy site -/
  legacy : LegacySettings := {}
  /-- where files are kept -/
  storage : Storage := {}
  /-- how much is logged -/
  logLevel : Text := "info".toList
deriving Repr, DecidableEq

/-- The cleaner with these settings, by the dictionary at hand. -/
def CleaningSettings.cleaner [Dictionary] (s : CleaningSettings) : Cleaner := ⟨s.mode, s.enhanced⟩

namespace LegacySettings

/-- The domain without blanks around it. -/
def trimmed (l : LegacySettings) : Text := Text.trim l.domain

/-- Whether there is a legacy site. -/
def isEnabled (l : LegacySettings) : Bool := !l.trimmed.isEmpty

/-- The legacy site, if there is one, that answers as `probe` says. -/
def legacy? (l : LegacySettings) (probe : Text → Option UInt16) : Option Legacy :=
  if l.isEnabled then some ⟨l.trimmed, l.accepted, probe⟩ else none

end LegacySettings

namespace Config

/-- The configuration in which everything has its standard setting. -/
def standard : Config := {}

/-- The directive by which a log keeps what a level asks for. -/
def logDirective (level : Text) : Text := "jumplinks=".toList ++ Text.lower (Text.trim level)

/-- **Levels are told by their letters**, in capitals or not, and whatever blanks stand around them. -/
theorem logDirective_blanks {before level after : Text} (hbefore : ∀ c ∈ before, isBlank c)
    (hafter : ∀ c ∈ after, isBlank c) (hlevel : ∀ c ∈ level, c.toNat < 128 ∧ isBlank c = false) :
    logDirective (before ++ level ++ after) = "jumplinks=".toList ++ level.map Char.toLower := by
  have htrim : Text.trim (before ++ level ++ after) = level :=
    Text.trimBoth_append hbefore hafter (fun c hc => (hlevel c (List.mem_of_mem_head? hc)).2)
      (fun c hc => (hlevel c (List.mem_of_getLast? hc)).2)
  have hlower : Text.lower level = level.map Char.toLower :=
    lowerFrom_of_ascii (fun c hc => (hlevel c hc).1) []
  unfold logDirective
  rw [htrim, hlower]

example : logDirective "DEBUG ".toList = "jumplinks=debug".toList := by decide

end Config

end Detour
