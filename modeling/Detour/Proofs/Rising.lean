import Detour.Proofs.Keeping

/-!
# Hits in any order

Hits are handed to a ledger as passes finish, which need not be in the order of their instants. Each of them
is counted, and its instant takes the place of the rule's last one, whatever the record held before.

* `Hit` is a hit as it is handed in, and `Hit.event` what it does to an archive.
* `Ledger.Rises` says that a hit makes its rule's count greater and takes no rule's last hit back;
  `Ledger.rises_record_iff` is one hit, and `Ledger.rises_recordAll_iff` carries it over a run.
* `Archive.rises_after_iff` puts it together: what every hit leaves, and the runs in which all of them
  make the ledger rise. `Archive.falls_after` is a run of two hits that arrive in the wrong order.
-/

namespace Detour

/-- A hit that is handed in. -/
structure Hit where
  /-- the rule that has redirected -/
  id : RuleId
  /-- when it did so -/
  now : Instant
  /-- whether the ledger is stored at once, and where this breaks down; `none` counts in memory only -/
  storing : Option (Option Breakdown)

namespace Hit

/-- What a hit does to an archive. -/
def event (h : Hit) : Event :=
  match h.storing with
  | none => .count h.id h.now
  | some breakdown => .hit h.id h.now breakdown

/-- The instants of the hits of a rule, in the order in which they are handed in. -/
def instants (id : RuleId) (hits : List Hit) : List Instant :=
  (hits.filter fun h => h.id = id).map now

/-- A hit of the rule comes before the others. -/
theorem instants_cons_self (h : Hit) (hits : List Hit) :
    instants h.id (h :: hits) = h.now :: instants h.id hits := by
  simp [instants]

/-- A hit of another rule is none of this one. -/
theorem instants_cons_ne {id : RuleId} {h : Hit} (hits : List Hit) (hid : id ≠ h.id) :
    instants id (h :: hits) = instants id hits := by
  simp [instants, Ne.symm hid]

/-- A hit counts in the ledger, stored or not. -/
theorem counted_event (h : Hit) (l : Ledger) : h.event.counted l = l.record h.id h.now := by
  unfold event
  split <;> rfl

/-- A hit does not load the ledger. -/
theorem event_ne_reload (h : Hit) : h.event ≠ .reload := by
  unfold event
  split <;> exact nofun

end Hit

/-- Whether no instant comes behind a later one. -/
def Instant.InOrder (instants : List Instant) : Prop := instants.IsChain fun a b => a.le b

/-- What holds at every place of a list holds at its first place and at every place behind that. -/
theorem forall_place_cons {α : Type} {P : List α → α → Prop} {a : α} {l : List α} :
    (∀ past b rest, a :: l = past ++ b :: rest → P past b) ↔
      P [] a ∧ ∀ past b rest, l = past ++ b :: rest → P (a :: past) b := by
  refine ⟨fun h => ⟨h [] a l rfl, ?_⟩, ?_⟩
  · rintro past b rest rfl
    exact h (a :: past) b rest rfl
  · rintro ⟨hfirst, hmore⟩ past b rest hsplit
    cases past with
    | nil =>
      obtain ⟨rfl, -⟩ := List.cons.inj hsplit
      exact hfirst
    | cons c past =>
      obtain ⟨rfl, hrest⟩ := List.cons.inj hsplit
      exact hmore past b rest hrest

namespace Ledger

variable {l : Ledger} {id other : RuleId} {now : Instant}

/-- A ledger after some hits. -/
def recordAll (l : Ledger) (hits : List Hit) : Ledger := hits.foldl (fun l h => l.record h.id h.now) l

/-- Whether a ledger rises with a hit of a rule: the rule's count is greater than before, and the last hit of
no rule is lost or moved to an earlier instant. -/
structure Rises (id : RuleId) (before after : Ledger) : Prop where
  /-- the count of the rule -/
  count : before.countOf id < after.countOf id
  /-- the last hits of all rules -/
  last : ∀ other t, before.lastHit? other = some t → ∃ u, after.lastHit? other = some u ∧ t.le u

/-! ### One hit -/

/-- **A ledger rises with a hit** exactly if the count is not at the end of its bits and the hit is not before
the last one of its rule. -/
theorem rises_record_iff : Rises id l (l.record id now) ↔
    l.countOf id + 1 < UInt64.size ∧ ∀ t, l.lastHit? id = some t → t.le now := by
  constructor
  · rintro ⟨hcount, hlast⟩
    refine ⟨?_, fun t ht => ?_⟩
    · rw [countOf_record_self] at hcount
      by_contra hend
      -- the count goes round
      have hsize : l.countOf id + 1 = UInt64.size := by
        have := l.countOf_lt id
        omega
      rw [hsize, Nat.mod_self] at hcount
      exact Nat.not_lt_zero _ hcount
    · obtain ⟨u, hu, hle⟩ := hlast id t ht
      rw [lastHit?_record_self] at hu
      rwa [Option.some.inj hu]
  · rintro ⟨hend, horder⟩
    refine ⟨?_, fun other t ht => ?_⟩
    · rw [countOf_record_self, Nat.mod_eq_of_lt hend]
      exact Nat.lt_succ_self _
    · by_cases hother : other = id
      · subst hother
        exact ⟨now, lastHit?_record_self l other now, horder t ht⟩
      · exact ⟨t, (lastHit?_record_ne l now hother).trans ht, t.le_refl⟩

/-! ### Runs -/

/-- What a rule has to have in store for some hits: room for their number, and a last hit before them. -/
def HasRoom (l : Ledger) (hits : List Hit) (id : RuleId) : Prop :=
  l.countOf id + (Hit.instants id hits).length < UInt64.size ∧
    Instant.InOrder ((l.lastHit? id).toList ++ Hit.instants id hits)

/-- There is room for no hits. -/
theorem hasRoom_nil (l : Ledger) (id : RuleId) : l.HasRoom [] id := by
  refine ⟨l.countOf_lt id, ?_⟩
  rcases l.lastHit? id with _ | t
  · exact .nil
  · exact .singleton t

/-- There is room for a hit and others of its rule exactly if the hit makes the ledger rise and there is room
for the others behind it. -/
theorem hasRoom_cons_self (l : Ledger) (h : Hit) (hits : List Hit) :
    l.HasRoom (h :: hits) h.id ↔
      Rises h.id l (l.record h.id h.now) ∧ (l.record h.id h.now).HasRoom hits h.id := by
  have hlast : Instant.InOrder ((l.lastHit? h.id).toList ++ h.now :: Hit.instants h.id hits) ↔
      (∀ t, l.lastHit? h.id = some t → t.le h.now) ∧
        Instant.InOrder (h.now :: Hit.instants h.id hits) := by
    rcases l.lastHit? h.id with _ | t
    · simp
    · simp [Instant.InOrder]
  rw [HasRoom, HasRoom, rises_record_iff, Hit.instants_cons_self, hlast, countOf_record_self,
    lastHit?_record_self, List.length_cons]
  constructor
  · rintro ⟨hcount, hfirst, horder⟩
    have hend : l.countOf h.id + 1 < UInt64.size := by omega
    refine ⟨⟨hend, hfirst⟩, ?_, horder⟩
    rw [Nat.mod_eq_of_lt hend]
    omega
  · rintro ⟨⟨hend, hfirst⟩, hcount, horder⟩
    rw [Nat.mod_eq_of_lt hend] at hcount
    exact ⟨by omega, hfirst, horder⟩

/-- A hit takes no room of another rule. -/
theorem hasRoom_cons_ne (l : Ledger) {h : Hit} (hits : List Hit) (hid : id ≠ h.id) :
    l.HasRoom (h :: hits) id ↔ (l.record h.id h.now).HasRoom hits id := by
  rw [HasRoom, HasRoom, Hit.instants_cons_ne hits hid, countOf_record_ne l h.now hid,
    lastHit?_record_ne l h.now hid]

/-- **A ledger rises with every hit of a run** exactly if every rule has room for its hits. -/
theorem rises_recordAll_iff {hits : List Hit} :
    (∀ past h rest, hits = past ++ h :: rest →
      Rises h.id (l.recordAll past) (l.recordAll (past ++ [h]))) ↔ ∀ id, l.HasRoom hits id := by
  induction hits generalizing l with
  | nil => exact ⟨fun _ => l.hasRoom_nil, fun _ past h rest hsplit => absurd hsplit (by simp)⟩
  | cons h hits ih =>
    rw [forall_place_cons]
    change Rises h.id l (l.record h.id h.now) ∧ (∀ past b rest, hits = past ++ b :: rest →
      Rises b.id ((l.record h.id h.now).recordAll past)
        ((l.record h.id h.now).recordAll (past ++ [b]))) ↔ _
    rw [ih]
    constructor
    · rintro ⟨hfirst, hmore⟩ id
      by_cases hid : id = h.id
      · subst hid
        exact (l.hasRoom_cons_self h hits).2 ⟨hfirst, hmore h.id⟩
      · exact (l.hasRoom_cons_ne hits hid).2 (hmore id)
    · intro hall
      have hself := (l.hasRoom_cons_self h hits).1 (hall h.id)
      refine ⟨hself.1, fun id => ?_⟩
      by_cases hid : id = h.id
      · rw [hid]
        exact hself.2
      · exact (l.hasRoom_cons_ne hits hid).1 (hall id)

end Ledger

namespace Archive

/-- A run of hits records them all, whatever becomes of storing. -/
theorem ledger_after_hits (process : Nat) (start : Archive) (hits : List Hit) :
    (start.after process (hits.map Hit.event)).book.ledger = start.book.ledger.recordAll hits := by
  induction hits generalizing start with
  | nil => rfl
  | cons h hits ih =>
    have hbook := book_step process start h.event_ne_reload
    have hrest := ih (start.step process h.event).2
    rw [hbook, h.counted_event] at hrest
    exact hrest

/-- **Hits in any order.** Every hit of a run is counted, up to the end of the count's bits, and its instant
is the last one of its rule from then on; the records of other rules stay as they are. So the ledger rises
with every hit exactly if the count of no rule comes to the end of its bits and the hits of each rule are
handed in by their instants, behind the last one that the ledger has. -/
theorem rises_after_iff (process : Nat) (start : Archive) (hits : List Hit) :
    (∀ past h rest, hits = past ++ h :: rest →
      let before := (start.after process (past.map Hit.event)).book.ledger
      let after := (start.after process ((past ++ [h]).map Hit.event)).book.ledger
      after.countOf h.id = (before.countOf h.id + 1) % 2 ^ 64 ∧ after.lastHit? h.id = some h.now ∧
        ∀ other ≠ h.id, after.get? other = before.get? other) ∧
    ((∀ past h rest, hits = past ++ h :: rest →
      Ledger.Rises h.id (start.after process (past.map Hit.event)).book.ledger
        (start.after process ((past ++ [h]).map Hit.event)).book.ledger) ↔
      ∀ id, start.book.ledger.countOf id + (Hit.instants id hits).length < 2 ^ 64 ∧
        Instant.InOrder ((start.book.ledger.lastHit? id).toList ++ Hit.instants id hits)) := by
  simp only [ledger_after_hits]
  refine ⟨fun past h rest _ => ?_, Ledger.rises_recordAll_iff⟩
  have hlast : start.book.ledger.recordAll (past ++ [h]) =
      (start.book.ledger.recordAll past).record h.id h.now := List.foldl_append
  simp only [hlast]
  refine ⟨Ledger.countOf_record_self _ _ _, Ledger.lastHit?_record_self _ _ _, fun other hother => ?_⟩
  rw [Ledger.get?_record, if_neg hother]

/-- The file of a ledger whose only rule has been counted as often as its bits allow. -/
def worn : Disk :=
  ⟨[(["h".toList], .file (Utf8.encode
    "\x7b\"7\":\x7b\"hits\":18446744073709551615,\"last_hit\":\"2024-06-02T12:00:00Z\"\x7d\x7d".toList))]⟩

/-- Of two hits that are handed in in the wrong order, the second takes the last hit of its rule back. A hit
behind the greatest count, which a file may hold, makes it zero. -/
theorem falls_after :
    (let start : Archive := ⟨HitBook.empty none, ⟨[]⟩⟩
     let first : Hit := ⟨1, ⟨1717329600, 0⟩, none⟩
     let second : Hit := ⟨1, ⟨1717243200, 0⟩, none⟩
     (start.after 1 [first.event]).book.ledger.lastHit? 1 = some ⟨1717329600, 0⟩ ∧
       (start.after 1 [first.event, second.event]).book.ledger.lastHit? 1 = some ⟨1717243200, 0⟩ ∧
       ¬ Ledger.Rises 1 (start.after 1 [first.event]).book.ledger
          (start.after 1 [first.event, second.event]).book.ledger) ∧
      ∃ b, HitBook.load worn ["h".toList] = .ok b ∧ b.ledger.countOf 7 = 18446744073709551615 ∧
        (after 1 ⟨b, worn⟩ [(⟨7, ⟨1717416000, 0⟩, none⟩ : Hit).event]).book.ledger.countOf 7 = 0 := by
  have hload : HitBook.load worn ["h".toList] =
      .ok ⟨⟨⟨[(7, ⟨18446744073709551615, ⟨1717329600, 0⟩⟩)], by decide⟩⟩, some ["h".toList]⟩ := by
    decide +kernel
  refine ⟨⟨rfl, rfl, fun h => ?_⟩, _, hload, rfl, rfl⟩
  obtain ⟨u, hu, hle⟩ := h.last 1 ⟨1717329600, 0⟩ rfl
  obtain rfl : (⟨1717243200, 0⟩ : Instant) = u := Option.some.inj hu
  exact absurd hle (by decide)

end Archive

end Detour
