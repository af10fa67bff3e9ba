import Detour.Text.Basic

/-!
# TOML values

The values of a configuration or table file, and how records are read off them: a record is a table
whose other keys are passed over, or a list that has the fields in order. A date acts as a table with
one entry of a reserved name.
-/

namespace Detour

/-- A value of a TOML document. -/
inductive Toml where
  /-- a text -/
  | text (s : Text)
  /-- a whole number -/
  | integer (n : Int)
  /-- any other number -/
  | float
  /-- a truth value -/
  | bool (b : Bool)
  /-- a date, a time or both, as it is written -/
  | moment (s : Text)
  /-- a list of values -/
  | array (elements : List Toml)
  /-- entries under keys, each key once -/
  | table (entries : List (Text × Toml))
deriving Repr

namespace Toml

/-- The reserved name of the only entry of a date that is read as a table. -/
def momentKey : Text := "$__toml_private_datetime".toList

/-- The entries of a value that acts as a table. -/
def entries? : Toml → Option (List (Text × Toml))
  | table entries => some entries
  | moment s => some [(momentKey, text s)]
  | _ => none

/-- The fields of a record in the given order; `none` for one that is missing. -/
def fields? (names : List Text) : Toml → Option (List (Option Toml))
  | array elements => some ((List.range names.length).map fun i => elements[i]?)
  | v => v.entries?.map fun entries => names.map fun name => entries.lookup name

/-- The text that a value is. -/
def toText? : Toml → Option Text
  | text s => some s
  | _ => none

/-- The truth value that a value is. -/
def toBool? : Toml → Option Bool
  | bool b => some b
  | _ => none

/-- The whole number from 0 up to `most` that a value is. -/
def toNat? (most : Nat) : Toml → Option Nat
  | integer n => if 0 ≤ n && n ≤ most then some n.toNat else none
  | _ => none

/-- The number of 64 bits that a value is. -/
def toUInt64? (v : Toml) : Option UInt64 := (v.toNat? (UInt64.size - 1)).map UInt64.ofNat

/-- The number of 16 bits that a value is. -/
def toUInt16? (v : Toml) : Option UInt16 := (v.toNat? (UInt16.size - 1)).map UInt16.ofNat

/-- The list that a value is, each element read in one way. -/
def toList? (read : Toml → Option α) : Toml → Option (List α)
  | array elements => elements.mapM read
  | _ => none

/-- The entries of a table of texts. -/
def toTexts? (v : Toml) : Option (List (Text × Text)) := do
  (← v.entries?).mapM fun (k, v) => v.toText?.map fun s => (k, s)

/-- A field that is read in one way, or has a default if it is missing. -/
def orDefault (default : α) (read : Toml → Option α) : Option Toml → Option α
  | none => some default
  | some v => read v

/-- A field that may be missing. -/
def ifPresent (read : Toml → Option α) : Option Toml → Option (Option α)
  | none => some none
  | some v => (read v).map some

end Toml

end Detour
