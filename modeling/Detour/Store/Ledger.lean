import Detour.Instant.Reading
import Detour.Json.Reading
import Detour.Map
import Detour.Rule
import Detour.Store.Disk

/-!
# The hit ledger

How often each rule has redirected and when it did so last. A count goes round at the end of its 64
bits. A ledger is shown in the order of the rules' numbers (`Ledger.records`), and stored, in whatever
order it is kept, as a JSON object from numbers to records; a file that cannot be read as such is refused
as a whole.
-/

namespace Detour

/-- Why something stored cannot be read or written. -/
inductive StoreError where
  /-- a file cannot be reached -/
  | io
  /-- a table of rules is malformed -/
  | table
  /-- a ledger or a log is malformed -/
  | json
deriving Repr, DecidableEq

/-- The hits of one rule. -/
structure HitRecord where
  /-- how often the rule has redirected -/
  hits : UInt64
  /-- when it did so last -/
  lastHit : Instant
deriving Repr, DecidableEq

/-- The hits of all rules. -/
structure Ledger where
  /-- the record of each rule that has hits, under its number -/
  map : Map RuleId HitRecord
deriving Repr, DecidableEq

namespace Ledger

/-- The ledger without hits. -/
def empty : Ledger := ⟨Map.empty⟩

/-- The record of a rule, if it has hits. -/
def get? (l : Ledger) (id : RuleId) : Option HitRecord := l.map.get? id

/-- How often a rule has redirected, by the ledger. -/
def countOf (l : Ledger) (id : RuleId) : Nat := ((l.get? id).map fun r => r.hits.toNat).getD 0

/-- When a rule has redirected last, by the ledger. -/
def lastHit? (l : Ledger) (id : RuleId) : Option Instant := (l.get? id).map HitRecord.lastHit

/-- The number of rules that have hits. -/
def count (l : Ledger) : Nat := l.map.size

/-- All records in the order of the rules' numbers. -/
def records (l : Ledger) : List (RuleId × HitRecord) := l.map.entries.mergeSort fun a b => a.1 ≤ b.1

/-- A ledger with the record of one rule put in or replaced. -/
def insert (l : Ledger) (id : RuleId) (r : HitRecord) : Ledger := ⟨l.map.insert id r⟩

/-- The record of a rule after one more hit. -/
def next (l : Ledger) (id : RuleId) (now : Instant) : HitRecord :=
  ⟨((l.get? id).map HitRecord.hits).getD 0 + 1, now⟩

/-- A ledger after one more hit of a rule. -/
def record (l : Ledger) (id : RuleId) (now : Instant) : Ledger := l.insert id (l.next id now)

/-- One more hit of a rule is the next record of that rule, and no other record changes. -/
theorem get?_record (l : Ledger) (id other : RuleId) (now : Instant) :
    (l.record id now).get? other = if other = id then some (l.next id now) else l.get? other :=
  l.map.get?_insert id other _

section Record

variable {l : Ledger} {id other : RuleId} {now : Instant}

/-- A count has 64 bits. -/
theorem countOf_lt (l : Ledger) (id : RuleId) : l.countOf id < UInt64.size := by
  unfold countOf
  rcases l.get? id with _ | r
  · exact Nat.two_pow_pos 64
  · exact r.hits.toNat_lt_size

/-- A hit counts one more, and the count goes round at the end of its bits. -/
theorem countOf_record_self (l : Ledger) (id : RuleId) (now : Instant) :
    (l.record id now).countOf id = (l.countOf id + 1) % UInt64.size := by
  rw [countOf, get?_record, if_pos rfl, Option.map_some, Option.getD_some, next, countOf]
  rcases l.get? id with _ | r
  · rfl
  · exact UInt64.toNat_add r.hits 1

/-- A hit is none of another rule. -/
theorem countOf_record_ne (l : Ledger) (now : Instant) (h : other ≠ id) :
    (l.record id now).countOf other = l.countOf other := by
  rw [countOf, get?_record, if_neg h, countOf]

/-- The instant of a hit is the last one of its rule. -/
theorem lastHit?_record_self (l : Ledger) (id : RuleId) (now : Instant) :
    (l.record id now).lastHit? id = some now := by
  rw [lastHit?, get?_record, if_pos rfl]
  rfl

/-- The last hit of another rule stays. -/
theorem lastHit?_record_ne (l : Ledger) (now : Instant) (h : other ≠ id) :
    (l.record id now).lastHit? other = l.lastHit? other := by
  rw [lastHit?, get?_record, if_neg h, lastHit?]

end Record

/-- One more hit of a rule counts one more, as long as the count does not go round. -/
theorem hits_record_self {l : Ledger} {id : RuleId} {n : Nat} (now : Instant)
    (h : (l.get? id).map (fun r => r.hits.toNat) = if n = 0 then none else some n)
    (hn : n + 1 < UInt64.size) :
    ((l.record id now).get? id).map (fun r => r.hits.toNat) = some (n + 1) := by
  rw [get?_record, if_pos rfl, Option.map_some, next]
  rcases hget : l.get? id with _ | r
  · rw [hget] at h
    split at h
    · rename_i hzero
      rw [hzero]
      rfl
    · cases h
  · rw [hget] at h
    have hr : r.hits.toNat = n := by
      split at h
      · cases h
      · exact Option.some.inj h
    have hnext : (r.hits + 1).toNat = r.hits.toNat + 1 := by
      rw [UInt64.toNat_add, UInt64.toNat_one]
      exact Nat.mod_eq_of_lt (hr ▸ hn)
    change some (r.hits + 1).toNat = some (n + 1)
    rw [hnext, hr]

/-! ### Files -/

/-- A record as it is stored. -/
def recordJson (r : HitRecord) : Json :=
  .ofMembers [("hits", .ofNat r.hits.toNat), ("last_hit", .ofText r.lastHit.write)]

/-- A ledger as it is stored. -/
def toJson (l : Ledger) : Json :=
  .object (l.map.entries.map fun (id, r) => (writeNat id.toNat, recordJson r))

/-- The number of a rule as it is stored: the digits of a JSON number. -/
def storedId? (key : Text) : Option RuleId :=
  match Json.number? key with
  | some (n, []) => (Json.number n).toUInt64?
  | _ => none

/-- A stored record. -/
def storedRecord? (j : Json) : Option HitRecord := do
  match ← Json.fields? ["hits".toList, "last_hit".toList] j with
  | [some hits, some lastHit] =>
    some ⟨← hits.toUInt64?, ← Instant.readLoose? (← lastHit.toText?)⟩
  | _ => none

/-- A stored ledger; of two records of one rule the later counts. -/
def ofJson? : Json → Option Ledger
  | .object members => do
    let records ← members.mapM fun (k, v) => do some (← storedId? k, ← storedRecord? v)
    some ⟨Map.ofList records⟩
  | _ => none

/-- The content of the file of a ledger. -/
def contents (l : Ledger) : Bytes := Utf8.encode l.toJson.writeLines

/-- The ledger in a file. -/
def ofEntry (e : Entry) : Except StoreError Ledger :=
  match ((Disk.text? e).bind Json.read?).bind ofJson? with
  | some l => .ok l
  | none => .error .json

/-- The ledger at a path; empty if there is no file. -/
def load (d : Disk) (p : Path) : Except StoreError Ledger :=
  match d.at? p with
  | none => .ok empty
  | some e => ofEntry e

end Ledger

end Detour
