import Detour.Config.Fault
import Detour.Store.Disk
import Detour.Toml.Reading

/-!
# Reading configurations

A configuration is written as a TOML document with a table for each of its parts. A part or a setting
that is left out has its standard setting, and unknown ones are passed over.

* `Config.read` gives the configuration that a text writes, if it is well formed and valid;
* `Config.load` does so for the content of a file, and `Config.loadFrom` for a path, where no file stands
  for the standard configuration.
-/

namespace Detour

/-- Why there is no configuration. -/
inductive ConfigError where
  /-- the file cannot be read -/
  | io
  /-- the document is malformed, or a setting has a value of the wrong kind -/
  | parse
  /-- the configuration has faults -/
  | invalid (faults : List Fault)
deriving Repr, DecidableEq

namespace Config

/-- The way in which requests are handled, as a table gives it. -/
def handling? (v : Toml) : Option Handling := do
  let usual : Handling := {}
  match ← Toml.fields? ["root_url".toList, "site_url".toList, "diagnostic_mode".toList,
      "not_found_log".toList] v with
  | [root, site, diagnostic, logMisses] =>
    some ⟨← Toml.orDefault usual.root Toml.toText? root,
      ← Toml.orDefault usual.site Toml.toText? site,
      ← Toml.orDefault usual.diagnostic Toml.toBool? diagnostic,
      ← Toml.orDefault usual.logMisses Toml.toBool? logMisses⟩
  | _ => none

/-- A cleaning mode: its name, or a table with the name as its only key and nothing under it. -/
def mode? : Toml → Option CleaningMode
  | .text s => CleaningMode.ofName? s
  | .table [(s, .array [])] | .table [(s, .table [])] => CleaningMode.ofName? s
  | _ => none

/-- The way in which captured values are cleaned, as a table gives it. -/
def cleaner? (v : Toml) : Option CleaningSettings := do
  match ← Toml.fields? ["mode".toList, "enhanced".toList] v with
  | [mode, enhanced] =>
    some ⟨← Toml.orDefault standard.cleaner.mode mode? mode,
      ← Toml.orDefault standard.cleaner.enhanced Toml.toBool? enhanced⟩
  | _ => none

/-- What is known of the legacy site, as a table gives it. -/
def legacy? (v : Toml) : Option LegacySettings := do
  let usual : LegacySettings := {}
  match ← Toml.fields? ["domain".toList, "accepted_status_codes".toList, "timeout_secs".toList] v with
  | [domain, accepted, timeout] =>
    some ⟨← Toml.orDefault usual.domain Toml.toText? domain,
      ← Toml.orDefault usual.accepted (Toml.toList? Toml.toUInt16?) accepted,
      ← Toml.orDefault usual.timeout Toml.toUInt64? timeout⟩
  | _ => none

/-- Where files are kept, as a table gives it. -/
def storage? (v : Toml) : Option Storage := do
  let usual : Storage := {}
  match ← Toml.fields? ["table_path".toList, "hits_path".toList, "not_found_path".toList] v with
  | [table, hits, misses] =>
    some ⟨← Toml.orDefault usual.table Toml.toText? table,
      ← Toml.orDefault usual.hits Toml.toText? hits,
      ← Toml.orDefault usual.misses Toml.toText? misses⟩
  | _ => none

/-- How much is logged, as a table gives it. -/
def logLevel? (v : Toml) : Option Text := do
  match ← Toml.fields? ["log_level".toList] v with
  | [level] => Toml.orDefault standard.logLevel Toml.toText? level
  | _ => none

/-- The configuration that a document gives. -/
def ofToml? (v : Toml) : Option Config := do
  match ← Toml.fields? ["engine".toList, "cleaning".toList, "legacy".toList, "storage".toList,
      "observability".toList] v with
  | [handling, cleaner, legacy, storage, logLevel] =>
    some ⟨← Toml.orDefault standard.handling handling? handling,
      ← Toml.orDefault standard.cleaner cleaner? cleaner,
      ← Toml.orDefault standard.legacy legacy? legacy,
      ← Toml.orDefault standard.storage storage? storage,
      ← Toml.orDefault standard.logLevel logLevel? logLevel⟩
  | _ => none

section Valid

variable [UrlReader]

/-- A configuration if it is valid. -/
def validate (c : Config) : Except ConfigError Config :=
  if c.faults.isEmpty then .ok c else .error (.invalid c.faults)

/-- The configuration that a text writes. -/
def read (s : Text) : Except ConfigError Config :=
  match (Toml.read? s).bind ofToml? with
  | none => .error .parse
  | some c => c.validate

/-- The configuration in a file. -/
def load (e : Entry) : Except ConfigError Config :=
  match Disk.text? e with
  | none => .error .io
  | some s => read s

/-- The configuration at a path; the standard one if there is no file. -/
def loadFrom (d : Disk) (p : Path) : Except ConfigError Config :=
  match d.at? p with
  | none => .ok standard
  | some e => load e

end Valid

end Config

end Detour
