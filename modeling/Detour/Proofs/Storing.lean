import Detour.Proofs.Document
import Detour.Proofs.Encoding
import Detour.Proofs.Moment
import Detour.Store.HitBook

/-!
# Ledgers stored and loaded

A ledger is read back from its file as it was, whatever the numbers of its rules and its counts. Of an
instant, what is read back is what it settles to (`Instant.settled`).

* `Ledger.IsRepresentable`: every last hit is an instant that there is. Every ledger that is read is such a
  one, and counting hits keeps it so.
* `Ledger.increasing_records` and `Ledger.mem_records_iff`: the records are shown in order, all of them.
* `Ledger.settled` is what is read back: `Ledger.ofEntry_contents` puts together what is known of documents,
  numbers, texts and instants, and `Ledger.settled_eq_iff` says which ledgers are read back as they were.
-/

namespace Detour

/-- A record as it is read back. -/
def HitRecord.settled (r : HitRecord) : HitRecord := ⟨r.hits, r.lastHit.settled⟩

namespace Ledger

/-- Whether every last hit can be represented. -/
def IsRepresentable (l : Ledger) : Prop := ∀ id r, l.get? id = some r → r.lastHit.IsRepresentable

/-- A ledger as it is read back. -/
def settled (l : Ledger) : Ledger := ⟨l.map.mapValues HitRecord.settled⟩

/-! ### Records in order -/

section Representable

variable {l : Ledger} {id : RuleId} {r : HitRecord} {now : Instant}

/-- A ledger without hits can be written. -/
theorem isRepresentable_empty : empty.IsRepresentable := nofun

/-- After a hit a ledger can still be written. -/
theorem IsRepresentable.record (h : l.IsRepresentable) (id : RuleId) (hnow : now.IsRepresentable) :
    (l.record id now).IsRepresentable := by
  intro other r hr
  rw [get?_record] at hr
  split at hr
  · rw [← Option.some.inj hr]
    exact hnow
  · exact h other r hr

/-- The instant of a stored record is a date and a time of day. -/
theorem isCivil_of_storedRecord? {j : Json} (h : storedRecord? j = some r) : r.lastHit.IsCivil := by
  unfold storedRecord? at h
  obtain ⟨fields, -, h⟩ := Option.bind_eq_some_iff.1 h
  split at h
  · obtain ⟨hits, -, h⟩ := Option.bind_eq_some_iff.1 h
    obtain ⟨text, -, h⟩ := Option.bind_eq_some_iff.1 h
    obtain ⟨t, ht, h⟩ := Option.bind_eq_some_iff.1 h
    rw [← Option.some.inj h]
    exact Instant.isCivil_of_readLoose? ht
  · cases h

/-- The instants of stored records are dates and times of day. -/
theorem isCivil_of_mapM {members : List (Text × Json)} {records : List (RuleId × HitRecord)}
    (h : members.mapM (fun ((k, v) : Text × Json) => do some (← storedId? k, ← storedRecord? v)) =
      some records) : ∀ x ∈ records, x.2.lastHit.IsCivil := by
  induction members generalizing records with
  | nil =>
    rw [← Option.some.inj h]
    exact fun _ hx => absurd hx List.not_mem_nil
  | cons m members ih =>
    rw [List.mapM_cons] at h
    obtain ⟨x, hx, h⟩ := Option.bind_eq_some_iff.1 h
    obtain ⟨rest, hrest, h⟩ := Option.bind_eq_some_iff.1 h
    obtain ⟨id, -, hx⟩ := Option.bind_eq_some_iff.1 hx
    obtain ⟨r, hr, hx⟩ := Option.bind_eq_some_iff.1 hx
    rw [← Option.some.inj h]
    intro y hy
    rcases List.mem_cons.1 hy with rfl | hy
    · rw [← Option.some.inj hx]
      exact isCivil_of_storedRecord? hr
    · exact ih hrest y hy

/-- The last hits of a ledger that is loaded are dates and times of day. -/
theorem isCivil_of_load {d : Disk} {p : Path} (h : load d p = .ok l) (hr : l.get? id = some r) :
    r.lastHit.IsCivil := by
  unfold load at h
  split at h
  · obtain rfl := Except.ok.inj h
    cases hr
  · unfold ofEntry at h
    split at h
    · rename_i l' hread
      obtain ⟨j, -, hj⟩ := Option.bind_eq_some_iff.1 hread
      obtain rfl := Except.ok.inj h
      unfold ofJson? at hj
      split at hj
      · obtain ⟨records, hrecords, hj⟩ := Option.bind_eq_some_iff.1 hj
        obtain rfl := Option.some.inj hj
        exact isCivil_of_mapM hrecords (id, r) (Map.mem_of_get?_ofList hr)
      · cases hj
    · cases h

/-- A ledger that is loaded can be written again. -/
theorem isRepresentable_of_load {d : Disk} {p : Path} (h : load d p = .ok l) : l.IsRepresentable :=
  fun _ _ hr => (isCivil_of_load h hr).isRepresentable

end Representable

/-! ### What a ledger settles to -/

section Settled

variable {l : Ledger} {id : RuleId} {now : Instant}

/-- The record of a rule as it is read back. -/
theorem get?_settled (l : Ledger) (id : RuleId) : l.settled.get? id = (l.get? id).map HitRecord.settled :=
  Map.get?_mapValues HitRecord.settled l.map id

/-- The ledgers that stay as they are are those whose last hits are dates and times of day. -/
theorem settled_eq_iff (h : l.IsRepresentable) :
    l.settled = l ↔ ∀ id r, l.get? id = some r → r.lastHit.IsCivil := by
  constructor
  · intro heq id r hr
    have hsettled := get?_settled l id
    rw [heq, hr] at hsettled
    have hlast : r.lastHit = r.lastHit.settled := congrArg HitRecord.lastHit (Option.some.inj hsettled)
    exact (Instant.settled_eq_iff (h id r hr)).1 hlast.symm
  · intro hcivil
    refine congrArg Ledger.mk (Map.mapValues_eq_self fun id r hr => ?_)
    have hlast := (Instant.settled_eq_iff (h id r hr)).2 (hcivil id r hr)
    rw [HitRecord.settled, hlast]

/-- A ledger that is loaded stays as it is. -/
theorem settled_of_load {d : Disk} {p : Path} (h : load d p = .ok l) : l.settled = l :=
  (settled_eq_iff (isRepresentable_of_load h)).2 fun _ _ => isCivil_of_load h

/-- What is read back is read back as it is from then on. -/
theorem settled_settled (h : l.IsRepresentable) : l.settled.settled = l.settled := by
  have hcivil (id : RuleId) (r : HitRecord) (hr : l.settled.get? id = some r) : r.lastHit.IsCivil := by
    rw [get?_settled] at hr
    obtain ⟨before, hbefore, rfl⟩ := Option.map_eq_some_iff.1 hr
    exact Instant.isCivil_settled (h id before hbefore)
  exact (settled_eq_iff fun id r hr => (hcivil id r hr).isRepresentable).2 hcivil

/-- The record after one more hit is the same when the ledger was read back. -/
theorem next_settled (l : Ledger) (id : RuleId) (now : Instant) : l.settled.next id now = l.next id now := by
  rw [next, get?_settled, Option.map_map]
  rfl

/-- A hit that is counted after the ledger was read back comes to the same. -/
theorem settled_record_settled (h : l.IsRepresentable) (id : RuleId) (now : Instant) :
    (l.settled.record id now).settled = (l.record id now).settled := by
  have hinsert (l : Ledger) : (l.record id now).settled = l.settled.insert id (l.next id now).settled :=
    congrArg Ledger.mk (Map.mapValues_insert HitRecord.settled l.map id (l.next id now))
  rw [hinsert, hinsert, settled_settled h, next_settled]

end Settled

/-! ### Written and read back -/

/-- The number of a rule is read back. -/
theorem storedId?_writeNat (id : RuleId) : storedId? (writeNat id.toNat) = some id := by
  have hnumber := Json.isNumeral_writeNat id.toNat [] Json.endsValue_nil
  rw [List.append_nil] at hnumber
  have hall : (writeNat id.toNat).all Char.isDigit := List.all_eq_true.2 (writeNat_spec id.toNat).2.1
  simp [storedId?, hnumber, Json.toUInt64?, hall, readUInt64?_writeNat]

/-- A record is read back as it settles. -/
theorem storedRecord?_recordJson {r : HitRecord} (h : r.lastHit.IsRepresentable) :
    storedRecord? (recordJson r) = some r.settled := by
  have hfields : Json.fields? ["hits".toList, "last_hit".toList] (recordJson r) =
      some [some (.ofNat r.hits.toNat), some (.ofText r.lastHit.write)] := rfl
  have hall : (writeNat r.hits.toNat).all Char.isDigit :=
    List.all_eq_true.2 (writeNat_spec r.hits.toNat).2.1
  have hhits : (Json.ofNat r.hits.toNat).toUInt64? = some r.hits := by
    rw [Json.ofNat, Json.toUInt64?, if_pos hall, readUInt64?_writeNat]
  have htext : (Json.ofText r.lastHit.write).toText? = some r.lastHit.write :=
    Json.unescape?_escape _
  rw [storedRecord?, hfields]
  simp [hhits, htext, Instant.readLoose?_write_settled h, HitRecord.settled]

/-- A stored ledger is well spelled. -/
theorem isSpelled_toJson (l : Ledger) : l.toJson.IsSpelled := by
  have hmembers : ∀ records : List (RuleId × HitRecord),
      Json.MembersSpelled (records.map fun x => (writeNat x.1.toNat, recordJson x.2)) := by
    intro records
    induction records with
    | nil => trivial
    | cons x records ih =>
      refine ⟨?_, ?_, ih⟩
      · exact Json.isBody_writeNat x.1.toNat
      · exact ⟨Json.isBody_escape _, Json.isNumeral_writeNat _, Json.isBody_escape _,
          Json.isBody_escape _, trivial⟩
  exact hmembers l.map.entries

/-- A ledger is read back from its document as it settles. -/
theorem ofJson?_toJson {l : Ledger} (h : l.IsRepresentable) : ofJson? l.toJson = some l.settled := by
  have hmembers (records : List (RuleId × HitRecord))
      (hrecords : ∀ x ∈ records, x.2.lastHit.IsRepresentable) :
      (records.map fun x => (writeNat x.1.toNat, recordJson x.2)).mapM
          (fun m => do some (← storedId? m.1, ← storedRecord? m.2)) =
        some (records.map fun x => (x.1, x.2.settled)) := by
    induction records with
    | nil => rfl
    | cons x records ih =>
      rw [List.map_cons, List.mapM_cons, ih fun y hy => hrecords y (List.mem_cons_of_mem x hy)]
      simp [storedId?_writeNat, storedRecord?_recordJson (hrecords x List.mem_cons_self)]
  rw [toJson, ofJson?, hmembers l.map.entries fun x hx => h x.1 x.2 (Map.mem_entries_iff.1 hx)]
  exact congrArg (fun m => some (Ledger.mk m)) l.settled.map.ofList_entries

/-- A ledger is read back from its file as it settles. -/
theorem ofEntry_contents {l : Ledger} (h : l.IsRepresentable) :
    ofEntry (.file l.contents) = .ok l.settled := by
  have hread : ((Disk.text? (.file l.contents)).bind Json.read?).bind ofJson? = some l.settled := by
    rw [Disk.text?, contents, Utf8.decode?_encode, Option.bind_some,
      Json.read?_writeLines (isSpelled_toJson l), Option.bind_some, ofJson?_toJson h]
  rw [ofEntry, hread]

/-- Where the content of a ledger stands, what it settles to is loaded. -/
theorem load_of_at? {l : Ledger} {d : Disk} {p : Path} (h : l.IsRepresentable)
    (hfile : d.at? p = some (.file l.contents)) : load d p = .ok l.settled := by
  rw [load, hfile]
  exact ofEntry_contents h

end Ledger
end Detour
