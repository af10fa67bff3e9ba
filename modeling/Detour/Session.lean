import Detour.Engine
import Detour.Store.MissLog
import Detour.Store.Staging

/-!
# Sessions

One engine serves many requests, while its table of rules may be replaced and its diagnostic mode
switched. Hits and missing pages are entered in books by a keeper, who answers every entry with a
receipt. Receipts are disregarded: whatever the keeper does with the books, even when entries are
refused or the keeper breaks down, no decision depends on it.

* `Session.serve` is a pass and what it enters in the books, `Session.step` serves one demand with it, and
  `Session.run` a list of them;
* `Keeper.journal` keeps the books in memory, `Keeper.files` in files.
-/

namespace Detour

/-- How an entry was taken. -/
inductive Receipt where
  /-- it is in the books -/
  | entered
  /-- it was refused -/
  | refused (e : StoreError)
  /-- the keeper broke down over it -/
  | broke
deriving Repr, DecidableEq

/-- The receipt for an attempt to write. -/
def Receipt.ofWriting {α : Type} : Except StoreError α → Receipt
  | .error e => refused e
  | .ok _ => entered

/-- Who keeps the books. -/
structure Keeper (σ : Type) where
  /-- how a hit of a rule at an instant is taken, and the books after it -/
  hit : RuleId → Instant → σ → Receipt × σ
  /-- how a request without an answer at an instant is taken, and the books after it -/
  miss : Request → Instant → σ → Receipt × σ

namespace Keeper

/-- How what a pass notes is taken, and the books after it. -/
def enter (k : Keeper σ) (request : Request) (now : Instant) : Note → σ → Receipt × σ
  | .hit id, books => k.hit id now books
  | .miss, books => k.miss request now books
  | .nothing, books => (.entered, books)

/-- The keeper that enters nothing. -/
def idle : Keeper σ := ⟨fun _ _ books => (.entered, books), fun _ _ books => (.entered, books)⟩

end Keeper

/-! ### Books -/

/-- Books in memory. -/
structure Journal where
  /-- the hits of all rules -/
  ledger : Ledger
  /-- the requests without an answer, in order -/
  misses : List Miss
deriving Repr, DecidableEq

namespace Journal

/-- Books without entries. -/
def empty : Journal := ⟨Ledger.empty, []⟩

end Journal

/-- The keeper of books in memory. -/
def Keeper.journal : Keeper Journal :=
  ⟨fun id now j => (.entered, { j with ledger := j.ledger.record id now }),
    fun request now j => (.entered, { j with misses := j.misses ++ [⟨request, now⟩] })⟩

/-- Books in files. -/
structure Files where
  /-- all files -/
  disk : Disk
  /-- the hits of all rules, and where they are stored -/
  hits : HitBook
  /-- the path of the log of missing pages -/
  misses : Path
deriving Repr, DecidableEq

/-- The disk after an attempt to write. -/
def Disk.orElse (d : Disk) : Except StoreError Disk → Disk
  | .error _ => d
  | .ok d => d

/-- The keeper of books in files, who works in a process with a number. -/
def Keeper.files (process : Nat) : Keeper Files :=
  ⟨fun id now f =>
      let hits := f.hits.count id now
      let (stored, disk) := hits.stage process none f.disk
      (.ofWriting stored, { f with hits := hits, disk := disk }),
    fun request now f =>
      let written := MissLog.append f.disk f.misses ⟨request, now⟩
      (.ofWriting written, { f with disk := f.disk.orElse written })⟩

/-! ### Sessions -/

/-- What a session may be asked for. -/
inductive Demand where
  /-- a decision on a request at an instant -/
  | resolve (request : Request) (now : Instant)
  /-- a diagnosis of a request at an instant -/
  | diagnose (request : Request) (now : Instant)
  /-- to switch the diagnostic mode -/
  | diagnostic (enabled : Bool)
  /-- to replace the rules -/
  | rules (rules : List Rule)
  /-- to replace the collections -/
  | collections (collections : Collections)
deriving Repr, DecidableEq

/-- What a session answers. -/
inductive Answer where
  /-- a decision, with the pass that led to it -/
  | decided (p : Pass)
  /-- a diagnosis -/
  | diagnosed (p : Pass)
  /-- nothing, as the pass broke down -/
  | broken
  /-- the diagnostic mode -/
  | mode (enabled : Bool)
  /-- the number of rules or collections -/
  | size (n : Nat)
deriving Repr, DecidableEq

/-- An engine at work. -/
structure Session where
  /-- the engine -/
  engine : Engine
  /-- the rules in the order in which they are tried -/
  rules : List Rule
  /-- the collections of mappings -/
  collections : Collections

namespace Session

/-- A pass of a session and the books after it; there is no pass if it breaks down. -/
def serve (s : Session) (k : Keeper σ) (diagnostic : Bool) (request : Request) (now : Instant)
    (books : σ) : Option Pass × σ :=
  match s.engine.pass diagnostic s.rules s.collections request now with
  | none => (none, books)
  | some p =>
    let (_, books) := k.enter request now (s.engine.note diagnostic p.decision) books
    (some p, books)

/-- The answer to a demand, the session behind it and the books after it. -/
def step (s : Session) (k : Keeper σ) (books : σ) : Demand → Answer × Session × σ
  | .resolve request now =>
    let (p, books) := s.serve k s.engine.diagnostic request now books
    ((p.map .decided).getD .broken, s, books)
  | .diagnose request now =>
    let (p, books) := s.serve k true request now books
    ((p.map .diagnosed).getD .broken, s, books)
  | .diagnostic enabled =>
    (.mode enabled, { s with engine := { s.engine with diagnostic := enabled } }, books)
  | .rules rules => (.size rules.length, { s with rules := rules }, books)
  | .collections collections =>
    (.size collections.length, { s with collections := collections }, books)

/-- The answers to some demands, each with the books after it. -/
def run (s : Session) (k : Keeper σ) (books : σ) : List Demand → List (Answer × σ)
  | [] => []
  | demand :: rest =>
    let (a, next, books) := s.step k books demand
    (a, books) :: next.run k books rest

/-- A pass is entered in the books. -/
theorem serve_of_pass {s : Session} {k : Keeper σ} {diagnostic : Bool} {request : Request} {now : Instant}
    {books : σ} {p : Pass} (h : s.engine.pass diagnostic s.rules s.collections request now = some p) :
    s.serve k diagnostic request now books =
      (some p, (k.enter request now (s.engine.note diagnostic p.decision) books).2) := by
  rw [serve, h]

/-- A pass that breaks down is not entered. -/
theorem serve_of_broken {s : Session} {k : Keeper σ} {diagnostic : Bool} {request : Request} {now : Instant}
    {books : σ} (h : s.engine.pass diagnostic s.rules s.collections request now = none) :
    s.serve k diagnostic request now books = (none, books) := by
  rw [serve, h]

/-- A pass does not depend on who keeps the books. -/
theorem serve_fst (s : Session) (k : Keeper σ) (diagnostic : Bool) (request : Request) (now : Instant)
    (books : σ) : (s.serve k diagnostic request now books).1 =
      s.engine.pass diagnostic s.rules s.collections request now := by
  rcases h : s.engine.pass diagnostic s.rules s.collections request now with _ | p
  · rw [serve_of_broken h]
  · rw [serve_of_pass h]

/-- The answer and the session behind it do not depend on who keeps the books. -/
theorem step_keeper (s : Session) (k : Keeper σ) (books : σ) (l : Keeper τ) (other : τ)
    (demand : Demand) :
    (s.step k books demand).1 = (s.step l other demand).1 ∧
      (s.step k books demand).2.1 = (s.step l other demand).2.1 := by
  cases demand with
  | resolve | diagnose => simp [step, serve_fst]
  | diagnostic | rules | collections => exact ⟨rfl, rfl⟩

/-- A diagnostic pass leaves the books as they are. -/
theorem serve_diagnostic (s : Session) (k : Keeper σ) (request : Request) (now : Instant) (books : σ) :
    (s.serve k true request now books).2 = books := by
  rcases h : s.engine.pass true s.rules s.collections request now with _ | p
  · rw [serve_of_broken h]
  · rw [serve_of_pass h, Engine.note_diagnostic]
    rfl

end Session

end Detour
