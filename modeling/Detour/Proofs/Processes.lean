import Detour.Command.Run
import Detour.Proofs.Agreement
import Detour.Proofs.Storing
import Mathlib

/-!
# Runs one after another

Runs of the program that each resolve one request come to the same as one session that resolves all of
them. A run opens the books afresh and leaves them in its files, while the session goes on with the
ledger in its memory. Every run is a process with a number of its own, by which its second file is named.

* `Files.opened` are the books that a run opens, and `Files.InStep` says what the books of a session
  have to do with the disk that runs have left: it agrees with that of the session but for the ledger, and as
  long as the ledger can be stored, its file has what the ledger in memory settles to.
* `Files.InStep.enter` says that an entry in either books keeps them in step.
* `Command.runs_eq_session` carries this over all runs. The command line and the file of the
  configuration are read afresh each time, which `Invocation.runs_eq_runs` deals with.
* `Files.IsShared` are books whose ledger and log are one file, where runs and a session part:
  `Command.lost_run` has two spellings of one path, so that different paths are not enough.
-/

namespace Detour

namespace Ledger

/-- There is no folder where a ledger can be loaded. -/
theorem ne_folder_of_load {l : Ledger} {d : Disk} {p : Path} (h : load d p = .ok l) :
    d.at? p ≠ some .folder := by
  intro hfolder
  rw [load, hfolder] at h
  cases h

/-- The same file has the same ledger. -/
theorem load_congr {d e : Disk} {p : Path} (h : d.at? p = e.at? p) : load d p = load e p := by
  rw [load, load, h]

/-- A ledger with the line of an entry of a log behind it is none. -/
theorem load_of_line {l : Ledger} {m : Miss} {d : Disk} {p : Path}
    (h : d.at? p = some (.file (l.contents ++ m.line))) : load d p = .error .json := by
  have hline : m.toJson.write ++ ['\n'] = '\x7b' :: (m.toJson.write ++ ['\n']).tail := rfl
  have hread : Json.read? (l.toJson.writeLines ++ (m.toJson.write ++ ['\n'])) = none := by
    rw [hline]
    exact (Json.reads_writeAt 0 l.toJson (isSpelled_toJson l)).read?_append (by decide)
      (Json.endsValue_cons (by decide) _)
  have htext : l.contents ++ m.line =
      Utf8.encode (l.toJson.writeLines ++ (m.toJson.write ++ ['\n'])) := List.flatMap_append.symm
  rw [load, h, htext]
  dsimp only
  rw [ofEntry, Disk.text?, Utf8.decode?_encode, Option.bind_some, hread]
  rfl

end Ledger

/-! ### Books -/

namespace Files

/-- The books that a run opens, given the paths of the ledger and of the log. -/
def opened (p m : Path) (d : Disk) : Files := ⟨d, HitBook.loadOrEmpty d p, m⟩

/-- What the books of a session have to do with the disk that runs have left: they are kept at the same
paths, the disks agree but for the ledger, and the file of the ledger, the same on both, has what the
ledger in memory settles to, as long as it can be stored. -/
structure InStep (p m : Path) (processes : List Nat) (d : Disk) (f : Files) : Prop where
  /-- where the ledger is stored -/
  hits : f.hits.path = some p
  /-- where the log is -/
  misses : f.misses = m
  /-- the ledger in memory can be written -/
  representable : f.hits.ledger.IsRepresentable
  /-- the disks -/
  agrees : d.Agrees p processes f.disk
  /-- the ledger in its file -/
  stored : ∃ l, Ledger.load d p = .ok l ∧ Ledger.load f.disk p = .ok l ∧
    (f.disk.isStorable p → l = f.hits.ledger.settled)

variable {p m q : Path} {processes : List Nat} {process other : Nat} {d : Disk} {f : Files} {l : Ledger}
  {request : Request} {now : Instant}

/-- The books that a run opens are kept at the path of the ledger. -/
theorem path_opened (p m : Path) (d : Disk) : (opened p m d).hits.path = some p := by
  rw [opened, HitBook.loadOrEmpty, HitBook.load]
  rcases Ledger.load d p with e | l <;> rfl

/-- A run opens the ledger that is loaded. -/
theorem ledger_opened (m : Path) (h : Ledger.load d p = .ok l) : (opened p m d).hits.ledger = l := by
  rw [opened, HitBook.loadOrEmpty, HitBook.load, h]

/-- A run opens an empty ledger if none is loaded. -/
theorem ledger_opened_of_error {e : StoreError} (m : Path) (h : Ledger.load d p = .error e) :
    (opened p m d).hits.ledger = .empty := by
  rw [opened, HitBook.loadOrEmpty, HitBook.load, h]
  rfl

/-- Books that were just opened are in step, if the ledger can be read. -/
theorem inStep_opened (h : Ledger.load d p = .ok l) (hclear : d.IsClear p processes) :
    InStep p m processes d (opened p m d) := by
  have hledger := ledger_opened m h
  refine ⟨path_opened p m d, rfl, ?_, .refl hclear, l, h, h, fun _ => ?_⟩
  · rw [hledger]
    exact Ledger.isRepresentable_of_load h
  · rw [hledger]
    exact (Ledger.settled_of_load h).symm

/-- A hit counts in memory. It is stored, or it cannot be stored and the file is as before; no other file is
touched but that by way of which it is stored. -/
theorem hit_cases (h : f.hits.path = some p) (hclear : f.disk.IsClear p processes)
    (hprocess : process ∈ processes) (id : RuleId) (now : Instant) :
    ∃ after, ((Keeper.files process).hit id now f).2 = ⟨after, f.hits.count id now, f.misses⟩ ∧
      f.disk.Agrees p processes after ∧
      ((f.disk.isStorable p ∧ after.at? p = some (.file (f.hits.ledger.record id now).contents)) ∨
        (f.disk.isStorable p = false ∧ after.at? p = f.disk.at? p)) := by
  have horigin := Disk.isOrigin_of_ne_folder hclear.place
  refine ⟨(f.disk.stage process none (f.hits.ledger.record id now).contents p).2, ?_,
    Disk.agrees_stage hclear hprocess _, ?_⟩
  · simp [Keeper.files, HitBook.stage, HitBook.count, Ledger.stage, h]
  · rcases Disk.stage_cases_of_clear hclear hprocess (f.hits.ledger.record id now).contents with
      ⟨hstorable, hstage⟩ | ⟨hstorable, error, rest, hrest, hstage⟩
    · rw [hstage]
      exact .inl ⟨hstorable, Disk.at?_put horigin⟩
    · rw [hstage]
      refine .inr ⟨hstorable, ?_⟩
      rcases hrest with rfl | rfl
      · rfl
      · exact Disk.at?_put_ne (Path.staging_ne process p).symm

/-- A miss is put into the log, or it cannot be written and the disk is as before. -/
theorem miss_cases (process : Nat) (request : Request) (now : Instant) (f : Files) :
    (f.disk.isWritable f.misses ∧ ((Keeper.files process).miss request now f).2 =
      ⟨f.disk.put f.misses (.file (f.disk.content f.misses ++ Miss.line ⟨request, now⟩)), f.hits,
        f.misses⟩) ∨
    (f.disk.isWritable f.misses = false ∧ ((Keeper.files process).miss request now f).2 = f) := by
  have hmiss : ((Keeper.files process).miss request now f).2 =
      { f with disk := f.disk.orElse (MissLog.append f.disk f.misses ⟨request, now⟩) } := rfl
  rw [hmiss, MissLog.append, Disk.append?]
  rcases f.disk.write?_cases f.misses (f.disk.content f.misses ++ Miss.line ⟨request, now⟩) with
    ⟨hwritable, hwrite⟩ | ⟨hwritable, hwrite⟩
  · rw [hwrite]
    exact .inl ⟨hwritable, rfl⟩
  · rw [hwrite]
    exact .inr ⟨hwritable, rfl⟩

/-- A hit that a session counts and a run counts alike keeps the books in step. -/
theorem InStep.hit (h : InStep p m processes d f) (hprocess : process ∈ processes)
    (hother : other ∈ processes) (hnow : now.IsRepresentable) (id : RuleId) :
    InStep p m processes ((Keeper.files other).hit id now (opened p m d)).2.disk
      ((Keeper.files process).hit id now f).2 := by
  obtain ⟨l, hload, hfile, hsame⟩ := h.stored
  obtain ⟨after, hhit, hagrees, hafter⟩ := hit_cases h.hits h.agrees.right hprocess id now
  obtain ⟨left, hrun, hrunAgrees, hleft⟩ :=
    hit_cases (path_opened p m d) (f := opened p m d) h.agrees.left hother id now
  rw [hhit, hrun]
  refine ⟨h.hits, h.misses, h.representable.record id hnow,
    hrunAgrees.symm.trans (h.agrees.trans hagrees), ?_⟩
  have hstorable : d.isStorable p = f.disk.isStorable p := h.agrees.isStorable_eq
  rw [ledger_opened m hload] at hleft
  rcases hafter with ⟨hyes, hafter⟩ | ⟨hno, hafter⟩
  · rcases hleft with ⟨-, hleft⟩ | ⟨hno, -⟩
    · have hrecorded : (l.record id now).settled = (f.hits.ledger.record id now).settled := by
        rw [hsame hyes, Ledger.settled_record_settled h.representable]
      refine ⟨(f.hits.ledger.record id now).settled, ?_, ?_, fun _ => rfl⟩
      · rw [← hrecorded]
        exact Ledger.load_of_at? ((Ledger.isRepresentable_of_load hload).record id hnow) hleft
      · exact Ledger.load_of_at? (h.representable.record id hnow) hafter
    · exact absurd ((hstorable.symm.trans hno).symm.trans hyes) (by decide)
  · rcases hleft with ⟨hyes, -⟩ | ⟨-, hleft⟩
    · exact absurd ((hstorable.symm.trans hyes).symm.trans hno) (by decide)
    · refine ⟨l, (Ledger.load_congr hleft).trans hload, (Ledger.load_congr hafter).trans hfile, ?_⟩
      intro hyes
      exact absurd (hno.symm.trans (hagrees.isStorable_eq.trans hyes)) (by decide)

/-- A miss that a session and a run put into the log keeps the books in step. -/
theorem InStep.miss (h : InStep p m processes d f) (hplace : m ≠ p)
    (hseconds : ∀ n ∈ processes, m ≠ p.staging n) (process other : Nat) (request : Request)
    (now : Instant) :
    InStep p m processes ((Keeper.files other).miss request now (opened p m d)).2.disk
      ((Keeper.files process).miss request now f).2 := by
  obtain ⟨l, hload, hfile, hsame⟩ := h.stored
  have hwritable : d.isWritable m = f.disk.isWritable m := h.agrees.isWritable_eq m
  have hcontent : d.content m = f.disk.content m := by
    rw [Disk.content, Disk.content, h.agrees.elsewhere m hplace hseconds]
  obtain rfl := h.misses
  rcases miss_cases process request now f with ⟨hyes, hmiss⟩ | ⟨hno, hmiss⟩
  · rcases miss_cases other request now (opened p f.misses d) with ⟨-, hrun⟩ | ⟨hno, -⟩
    · rw [hmiss, hrun]
      have horigin := Disk.isOrigin_of_isWritable hyes
      refine ⟨h.hits, rfl, h.representable, ?_, l, ?_, ?_, fun hstorable => ?_⟩
      · change Disk.Agrees p processes (d.put f.misses (.file (d.content f.misses ++ _))) _
        rw [hcontent]
        exact h.agrees.put hplace hseconds horigin _
      · exact (Ledger.load_congr (Disk.at?_put_ne hplace.symm)).trans hload
      · exact (Ledger.load_congr (Disk.at?_put_ne hplace.symm)).trans hfile
      · exact hsame (Disk.isStorable_of_put hyes hplace hstorable)
    · exact absurd ((hwritable.symm.trans hno).symm.trans hyes) (by decide)
  · rcases miss_cases other request now (opened p f.misses d) with ⟨hyes, -⟩ | ⟨-, hrun⟩
    · exact absurd ((hwritable.symm.trans hyes).symm.trans hno) (by decide)
    · rw [hmiss, hrun]
      exact h

/-- **An entry keeps the books in step**, whether a session makes it or a run of its own. -/
theorem InStep.enter (h : InStep p m processes d f) (hplace : m ≠ p)
    (hseconds : ∀ n ∈ processes, m ≠ p.staging n) (hprocess : process ∈ processes)
    (hother : other ∈ processes) (hnow : now.IsRepresentable) (request : Request) (note : Note) :
    InStep p m processes ((Keeper.files other).enter request now note (opened p m d)).2.disk
      ((Keeper.files process).enter request now note f).2 := by
  cases note with
  | nothing => exact h
  | hit id => exact h.hit hprocess hother hnow id
  | miss => exact h.miss hplace hseconds process other request now

/-- An entry touches no file but those of the books, and no folder comes in their way. -/
theorem enter_elsewhere (hhits : f.hits.path = some p) (hclear : f.disk.IsClear p processes)
    (hplace : f.misses ≠ p) (hseconds : ∀ n ∈ processes, f.misses ≠ p.staging n)
    (hprocess : process ∈ processes) (request : Request) (now : Instant) (note : Note) :
    ((Keeper.files process).enter request now note f).2.disk.IsClear p processes ∧
      ∀ q, q ≠ p → q ≠ f.misses → (∀ n ∈ processes, q ≠ p.staging n) →
        ((Keeper.files process).enter request now note f).2.disk.at? q = f.disk.at? q := by
  cases note with
  | nothing => exact ⟨hclear, fun _ _ _ _ => rfl⟩
  | hit id =>
    obtain ⟨after, hhit, hagrees, -⟩ := hit_cases hhits hclear hprocess id now
    rw [Keeper.enter, hhit]
    exact ⟨hagrees.right, fun q hq _ hseconds => (hagrees.elsewhere q hq hseconds).symm⟩
  | miss =>
    rw [Keeper.enter]
    rcases miss_cases process request now f with ⟨hyes, hmiss⟩ | ⟨-, hmiss⟩
    · rw [hmiss]
      have hagrees := (Disk.Agrees.refl hclear).put hplace hseconds (Disk.isOrigin_of_isWritable hyes)
        (f.disk.content f.misses ++ Miss.line ⟨request, now⟩)
      exact ⟨hagrees.left, fun q _ hq _ => Disk.at?_put_ne hq⟩
    · rw [hmiss]
      exact ⟨hclear, fun _ _ _ _ => rfl⟩

/-! ### One file for the ledger and the log -/

/-- Books whose ledger and log are one file, which can be written. -/
structure IsShared (p : Path) (processes : List Nat) (f : Files) : Prop where
  /-- the ledger is there -/
  hits : f.hits.path = some p
  /-- the log is there -/
  misses : f.misses = p
  /-- no folder is in the way -/
  clear : f.disk.IsClear p processes
  /-- the ledger can be stored -/
  storable : f.disk.isStorable p
  /-- the log can be written -/
  writable : f.disk.isWritable p

/-- What an entry leaves can be written as before. -/
theorem IsShared.of_agrees {e : Disk} {hits : HitBook} (h : IsShared p processes f)
    (hagrees : f.disk.Agrees p processes e) (hhits : hits.path = some p) :
    IsShared p processes ⟨e, hits, p⟩ where
  hits := hhits
  misses := rfl
  clear := hagrees.right
  storable := hagrees.isStorable_eq.symm.trans h.storable
  writable := (hagrees.isWritable_eq p).symm.trans h.writable

/-- A run that opens them anew has such books. -/
theorem IsShared.anew (h : IsShared p processes f) : IsShared p processes (opened p p f.disk) :=
  h.of_agrees (.refl h.clear) (path_opened p p f.disk)

/-- A hit is stored in them. -/
theorem IsShared.hit (h : IsShared p processes f) (hprocess : process ∈ processes) (id : RuleId)
    (now : Instant) :
    IsShared p processes ((Keeper.files process).hit id now f).2 ∧
      f.disk.Agrees p processes ((Keeper.files process).hit id now f).2.disk ∧
      ((Keeper.files process).hit id now f).2.hits = f.hits.count id now ∧
      ((Keeper.files process).hit id now f).2.disk.at? p =
        some (.file (f.hits.ledger.record id now).contents) := by
  obtain ⟨after, hhit, hagrees, ⟨-, hfile⟩ | ⟨hno, -⟩⟩ := hit_cases h.hits h.clear hprocess id now
  · rw [hhit, h.misses]
    exact ⟨h.of_agrees hagrees h.hits, hagrees, rfl, hfile⟩
  · exact absurd (hno.symm.trans h.storable) (by decide)

/-- What is missing makes their ledger unreadable. -/
theorem IsShared.miss (h : IsShared p processes f) (hfile : f.disk.at? p = some (.file l.contents))
    (process : Nat) (request : Request) (now : Instant) :
    IsShared p processes ((Keeper.files process).miss request now f).2 ∧
      f.disk.Agrees p processes ((Keeper.files process).miss request now f).2.disk ∧
      ((Keeper.files process).miss request now f).2.hits = f.hits ∧
      Ledger.load ((Keeper.files process).miss request now f).2.disk p = .error .json := by
  obtain rfl := h.misses
  have horigin := Disk.isOrigin_of_isWritable h.writable
  rcases miss_cases process request now f with ⟨-, hmiss⟩ | ⟨hno, -⟩
  · have hagrees := Disk.agrees_put h.clear horigin (f.disk.content f.misses ++ Miss.line ⟨request, now⟩)
    rw [hmiss]
    refine ⟨h.of_agrees hagrees h.hits, hagrees, rfl, ?_⟩
    refine Ledger.load_of_line (l := l) (m := ⟨request, now⟩) ?_
    rw [Disk.at?_put horigin, Disk.content, hfile]
  · exact absurd (hno.symm.trans h.writable) (by decide)

/-- Runs forget the hits before what is missing; they touch no other file. -/
theorem IsShared.load_runs (h : IsShared p processes (opened p p d)) {a c : Nat}
    (ha : a ∈ processes) (hc : c ∈ processes) {last : Instant} (hlast : last.IsRepresentable) (b : Nat)
    (id : RuleId) (first : Instant) (request : Request) (now : Instant) :
    let d₁ := ((Keeper.files a).hit id first (opened p p d)).2.disk
    let d₂ := ((Keeper.files b).miss request now (opened p p d₁)).2.disk
    let d₃ := ((Keeper.files c).hit id last (opened p p d₂)).2.disk
    d.Agrees p processes d₁ ∧ d.Agrees p processes d₂ ∧
      Ledger.load d₃ p = .ok (Ledger.empty.record id last).settled := by
  obtain ⟨h₁, hagrees₁, -, hfile₁⟩ := h.hit ha id first
  obtain ⟨h₂, hagrees₂, -, hunread⟩ := h₁.anew.miss hfile₁ b request now
  obtain ⟨-, -, -, hfile₃⟩ := h₂.anew.hit hc id last
  rw [ledger_opened_of_error p hunread] at hfile₃
  exact ⟨hagrees₁, hagrees₁.trans hagrees₂,
    Ledger.load_of_at? (Ledger.isRepresentable_empty.record id hlast) hfile₃⟩

/-- A session goes on with the hits in its memory. -/
theorem IsShared.load_session (h : IsShared p processes (opened p p d))
    (hload : Ledger.load d p = .ok l) (hprocess : process ∈ processes) {first last : Instant}
    (hfirst : first.IsRepresentable) (hlast : last.IsRepresentable) (id : RuleId) (request : Request)
    (now : Instant) :
    let f₁ := ((Keeper.files process).hit id first (opened p p d)).2
    let f₂ := ((Keeper.files process).miss request now f₁).2
    let f₃ := ((Keeper.files process).hit id last f₂).2
    Ledger.load f₃.disk p = .ok ((l.record id first).record id last).settled := by
  obtain ⟨h₁, -, hhits₁, hfile₁⟩ := h.hit hprocess id first
  obtain ⟨h₂, -, hhits₂, -⟩ := h₁.miss hfile₁ process request now
  obtain ⟨-, -, -, hfile₃⟩ := h₂.hit hprocess id last
  rw [hhits₂, hhits₁, HitBook.count, ledger_opened p hload] at hfile₃
  have hl := Ledger.isRepresentable_of_load hload
  exact Ledger.load_of_at? ((hl.record id hfirst).record id hlast) hfile₃

end Files

/-! ### Command lines -/

/-- An argument that does not begin with a hyphen is a word. -/
theorem Argument.next?_word {s : Text} (h : s.head? ≠ some '-') (o : Options) (rest : List Text) :
    next? o (s :: rest) = some (word s, rest) := by
  unfold next?
  split
  · rename_i heq
    cases heq
  · rename_i heq
    obtain ⟨rfl, rfl⟩ := List.cons.inj heq
    split
    case h_7 => rfl
    all_goals exact absurd rfl h

/-- What is given by an argument and those behind it. -/
theorem Given.gather_next {o : Options} {most : Nat} {g later : Given} {arg : Text} {a : Argument}
    {rest others : List Text} (harg : arg ≠ ['-', '-'])
    (hnext : Argument.next? o (arg :: rest) = some (a, others)) (hadd : g.add most a = .ok later) :
    g.gather o most (arg :: rest) = later.gather o most others := by
  rw [gather, if_neg harg]
  split
  · rename_i hnone
    rw [hnext] at hnone
    cases hnone
  · rename_i hsome
    rw [hnext] at hsome
    cases hsome
    rw [hadd]

/-! ### Runs -/

/-- A run of a session is its first step and the run of the rest. -/
theorem Session.run_cons (s : Session) (k : Keeper σ) (books : σ) (demand : Demand)
    (rest : List Demand) :
    s.run k books (demand :: rest) = ((s.step k books demand).1, (s.step k books demand).2.2) ::
      (s.step k books demand).2.1.run k (s.step k books demand).2.2 rest := rfl

/-- What a pass of a session leaves in the books. -/
def Session.noteFor (s : Session) (diagnostic : Bool) (request : Request) (now : Instant) : Note :=
  match s.engine.pass diagnostic s.rules s.collections request now with
  | none => .nothing
  | some p => s.engine.note diagnostic p.decision

/-- The books are those after that note. -/
theorem Session.serve_snd (s : Session) (k : Keeper σ) (diagnostic : Bool) (request : Request)
    (now : Instant) (books : σ) : (s.serve k diagnostic request now books).2 =
      (k.enter request now (s.noteFor diagnostic request now) books).2 := by
  rw [noteFor]
  rcases h : s.engine.pass diagnostic s.rules s.collections request now with _ | p
  · rw [serve_of_broken h]
    rfl
  · rw [serve_of_pass h]

/-- A command line by which a request is to be resolved at an instant. -/
structure Visit where
  /-- what stands on the command line -/
  args : List Text
  /-- the request -/
  request : Request
  /-- whether it is only to be told how the request would be resolved -/
  diagnose : Bool
  /-- when the program is run -/
  now : Instant
  /-- the number of the process in which it is run -/
  process : Nat

namespace Visit

/-- A visit for a path alone. -/
def ofPath (path : Text) (diagnose : Bool) (now : Instant) (process : Nat) : Visit :=
  ⟨"resolve".toList :: path :: if diagnose then ["--diagnose".toList] else [], ⟨path, none, none⟩,
    diagnose, now, process⟩

/-- What a visit tells the program to do. -/
def command (v : Visit) : Command := .resolve v.request v.diagnose

/-- What a visit asks of a session. -/
def demand (v : Visit) : Demand := Command.demand v.request v.diagnose v.now

/-- What a visit leaves in the books of a session. -/
def note (v : Visit) (s : Session) : Note :=
  s.noteFor (v.diagnose || s.engine.diagnostic) v.request v.now

/-- A visit leaves its note in the books and the session as it was. -/
theorem step_demand (v : Visit) (s : Session) (k : Keeper σ) (books : σ) :
    (s.step k books v.demand).2 = (s, (k.enter v.request v.now (v.note s) books).2) := by
  rcases hdiagnose : v.diagnose with _ | _
  · simp only [demand, note, hdiagnose, Bool.false_or, ← s.serve_snd k]
    rfl
  · simp only [demand, note, hdiagnose, Bool.true_or, ← s.serve_snd k]
    rfl

end Visit

section Runs

variable [Dictionary] [UrlReader] [Limits]

/-- Commands run one after another under one configuration, each in a process with a number: how each ends and
the disk after it. -/
def Command.runs (c : Config) (probe : Text → Option UInt16) :
    Disk → List (Command × Instant × Nat) → List (Ending × Disk)
  | _, [] => []
  | d, (command, now, process) :: rest =>
    let (ending, after) := command.run c probe now d process
    (ending, after) :: runs c probe after rest

/-- Runs of the program one after another, each in a process with a number: how each ends and the disk after
it. -/
def Invocation.runs (probe : Text → Option UInt16) :
    Disk → List (List Text × Instant × Nat) → List (Ending × Disk)
  | _, [] => []
  | d, (args, now, process) :: rest =>
    let (ending, after) := Invocation.run probe now d args process
    (ending, after) :: runs probe after rest

/-- Whether the files of a configuration are apart for some processes: they are different files, none of them
is the second file of one of the processes, and no folder stands in the place of a second file. -/
structure Config.KeepsApart (c : Config) (processes : List Nat) (d : Disk) : Prop where
  /-- the files of the configuration -/
  files : [c.storage.table, c.storage.hits, c.storage.misses].Pairwise fun a b =>
    Path.ofText a ≠ Path.ofText b
  /-- and the second files -/
  seconds : ∀ n ∈ processes, ∀ q ∈ [c.storage.table, c.storage.misses],
    Path.ofText q ≠ (Path.ofText c.storage.hits).staging n
  /-- no folders -/
  folders : ∀ n ∈ processes, d.at? ((Path.ofText c.storage.hits).staging n) ≠ some .folder

variable {c : Config} {probe : Text → Option UInt16} {t : RuleTable} {visits : List Visit}
  {processes : List Nat} {process : Nat} {d : Disk}

namespace Config.KeepsApart

/-- The table is not the ledger. -/
theorem table_ne_hits (h : c.KeepsApart processes d) :
    Path.ofText c.storage.table ≠ Path.ofText c.storage.hits :=
  List.rel_of_pairwise_cons h.files List.mem_cons_self

/-- The table is not the log. -/
theorem table_ne_misses (h : c.KeepsApart processes d) :
    Path.ofText c.storage.table ≠ Path.ofText c.storage.misses :=
  List.rel_of_pairwise_cons h.files (List.mem_cons_of_mem _ List.mem_cons_self)

/-- The log is not the ledger. -/
theorem misses_ne_hits (h : c.KeepsApart processes d) :
    Path.ofText c.storage.misses ≠ Path.ofText c.storage.hits :=
  (List.rel_of_pairwise_cons (List.pairwise_cons.1 h.files).2 List.mem_cons_self).symm

/-- The table is no second file. -/
theorem table_ne_staging (h : c.KeepsApart processes d) (n : Nat) (hn : n ∈ processes) :
    Path.ofText c.storage.table ≠ (Path.ofText c.storage.hits).staging n :=
  h.seconds n hn _ List.mem_cons_self

/-- The log is no second file. -/
theorem misses_ne_staging (h : c.KeepsApart processes d) (n : Nat) (hn : n ∈ processes) :
    Path.ofText c.storage.misses ≠ (Path.ofText c.storage.hits).staging n :=
  h.seconds n hn _ (List.mem_cons_of_mem _ List.mem_cons_self)

/-- Files that are apart stay so, unless a folder comes in their way. -/
theorem of_isClear {e : Disk} (h : c.KeepsApart processes d)
    (hclear : e.IsClear (Path.ofText c.storage.hits) processes) : c.KeepsApart processes e :=
  ⟨h.files, h.seconds, hclear.seconds⟩

end Config.KeepsApart

namespace Command

/-- Commands are one and those behind it. -/
theorem runs_cons (c : Config) (probe : Text → Option UInt16) (d : Disk) (command : Command)
    (now : Instant) (process : Nat) (rest : List (Command × Instant × Nat)) :
    runs c probe d ((command, now, process) :: rest) = command.run c probe now d process ::
      runs c probe (command.run c probe now d process).2 rest := rfl

/-- A run to resolve a request answers as a session does that it opens. -/
theorem run_visit (probe : Text → Option UInt16) (v : Visit)
    (htable : RuleTable.load d (Path.ofText c.storage.table) = .ok t) :
    v.command.run c probe v.now d v.process =
      (ending ((session c probe t).step (.files v.process) (files c d) v.demand).1,
        ((session c probe t).step (.files v.process) (files c d) v.demand).2.2.disk) := by
  rw [Visit.command, run, htable]
  rfl

/-- A run to resolve a request leaves its note in the books that it opens. -/
theorem disk_run_visit (c : Config) (probe : Text → Option UInt16) (v : Visit)
    (htable : RuleTable.load d (Path.ofText c.storage.table) = .ok t) :
    (v.command.run c probe v.now d v.process).2 = ((Keeper.files v.process).enter v.request v.now
      (v.note (session c probe t)) (files c d)).2.disk := by
  rw [run_visit probe v htable, v.step_demand]

/-- A run touches no file but the ledger, its second file and the log, and no folder comes in their way. -/
theorem run_elsewhere (probe : Text → Option UInt16)
    (hclear : d.IsClear (Path.ofText c.storage.hits) processes) (hapart : c.KeepsApart processes d)
    (v : Visit) (hprocess : v.process ∈ processes) :
    (v.command.run c probe v.now d v.process).2.IsClear (Path.ofText c.storage.hits) processes ∧
      ∀ q, q ≠ Path.ofText c.storage.hits → q ≠ Path.ofText c.storage.misses →
        (∀ n ∈ processes, q ≠ (Path.ofText c.storage.hits).staging n) →
        (v.command.run c probe v.now d v.process).2.at? q = d.at? q := by
  rcases htable : RuleTable.load d (Path.ofText c.storage.table) with e | t
  · rw [Visit.command, run, htable]
    exact ⟨hclear, fun _ _ _ _ => rfl⟩
  · rw [disk_run_visit c probe v htable]
    have hpath := Files.path_opened (Path.ofText c.storage.hits) (Path.ofText c.storage.misses) d
    exact Files.enter_elsewhere hpath hclear hapart.misses_ne_hits hapart.misses_ne_staging hprocess
      v.request v.now _

/-- Runs come to the same as a session whose books are in step. -/
theorem runs_inStep (probe : Text → Option UInt16) {f : Files}
    (hinstep : f.InStep (Path.ofText c.storage.hits) (Path.ofText c.storage.misses) processes d)
    (htable : RuleTable.load d (Path.ofText c.storage.table) = .ok t)
    (hapart : c.KeepsApart processes d) (hprocess : process ∈ processes)
    (hprocesses : ∀ v ∈ visits, v.process ∈ processes)
    (hvisits : ∀ v ∈ visits, v.now.IsRepresentable) :
    List.Forall₂ (fun alone together => alone.1 = ending together.1 ∧ together.2.InStep
        (Path.ofText c.storage.hits) (Path.ofText c.storage.misses) processes alone.2)
      (runs c probe d (visits.map fun v => (v.command, v.now, v.process)))
      ((session c probe t).run (.files process) f (visits.map Visit.demand)) := by
  induction visits generalizing d f with
  | nil => exact .nil
  | cons v visits ih =>
    let s := session c probe t
    have hv := hprocesses v List.mem_cons_self
    have hdisk : (v.command.run c probe v.now d v.process).2 =
        ((Keeper.files v.process).enter v.request v.now (v.note s) (files c d)).2.disk :=
      disk_run_visit c probe v htable
    have hnext := hinstep.enter hapart.misses_ne_hits hapart.misses_ne_staging hprocess hv
      (hvisits v List.mem_cons_self) v.request (v.note s)
    obtain ⟨hclear, hkeeps⟩ := run_elsewhere probe hinstep.agrees.left hapart v hv
    have htable' : RuleTable.load (v.command.run c probe v.now d v.process).2
        (Path.ofText c.storage.table) = .ok t := by
      rw [RuleTable.load, hkeeps _ hapart.table_ne_hits hapart.table_ne_misses hapart.table_ne_staging]
      exact htable
    have hrest := ih (d := (v.command.run c probe v.now d v.process).2)
      (f := ((Keeper.files process).enter v.request v.now (v.note s) f).2)
      (by rw [hdisk]; exact hnext) htable' (hapart.of_isClear hclear)
      (fun u hu => hprocesses u (List.mem_cons_of_mem v hu))
      (fun u hu => hvisits u (List.mem_cons_of_mem v hu))
    have hanswer := (s.step_keeper (.files v.process) (files c d) (.files process) f v.demand).1
    rw [List.map_cons, List.map_cons, runs_cons, Session.run_cons, v.step_demand]
    refine .cons ⟨?_, ?_⟩ hrest
    · rw [run_visit probe v htable, hanswer]
    · rw [hdisk]
      exact hnext

end Command

/-- Runs of the program are runs under the configuration that its file has at first, unless that file
is the ledger, one of its second files or the log. -/
theorem Invocation.runs_eq_runs {config : Text}
    (hconfig : Config.loadFrom d (Path.ofText config) = .ok c) (hapart : c.KeepsApart processes d)
    (hclear : d.IsClear (Path.ofText c.storage.hits) processes)
    (hown : ∀ q ∈ [c.storage.hits, c.storage.misses], Path.ofText config ≠ Path.ofText q)
    (hseconds : ∀ n ∈ processes, Path.ofText config ≠ (Path.ofText c.storage.hits).staging n)
    (hprocesses : ∀ v ∈ visits, v.process ∈ processes)
    (hread : ∀ v ∈ visits, read v.args = .ok ⟨config, v.command⟩) :
    runs probe d (visits.map fun v => (v.args, v.now, v.process)) =
      Command.runs c probe d (visits.map fun v => (v.command, v.now, v.process)) := by
  induction visits generalizing d with
  | nil => rfl
  | cons v visits ih =>
    have hrun : run probe v.now d v.args v.process = v.command.run c probe v.now d v.process := by
      rw [run, hread v List.mem_cons_self]
      dsimp only
      rw [hconfig]
    obtain ⟨hafter, hkeeps⟩ :=
      Command.run_elsewhere probe hclear hapart v (hprocesses v List.mem_cons_self)
    have hload : Config.loadFrom (v.command.run c probe v.now d v.process).2 (Path.ofText config) =
        .ok c := by
      rw [Config.loadFrom, hkeeps _ (hown _ (by simp)) (hown _ (by simp)) hseconds]
      exact hconfig
    have htail := ih hload (hapart.of_isClear hafter) hafter
      (fun u hu => hprocesses u (List.mem_cons_of_mem v hu))
      (fun u hu => hread u (List.mem_cons_of_mem v hu))
    rw [List.map_cons, List.map_cons, runs, Command.runs, hrun]
    exact congrArg (v.command.run c probe v.now d v.process :: ·) htail

/-- **Runs one after another are one session.** Whether each request is resolved by a run of its own, or
all by one session that opens its books once, the same is printed for each, and the same ledger and the
same log are loaded from the files that are left behind it. The ledger can be loaded from its file after
each of them, and as long as it can be stored it is what the ledger that the session has in its memory
settles to. The files have to be apart, whatever the numbers of the processes are. The runs may be told
the configuration by its file, as long as that is none of the files that they change. -/
theorem Command.runs_eq_session (probe : Text → Option UInt16) {l : Ledger}
    (htable : RuleTable.load d (Path.ofText c.storage.table) = .ok t)
    (hledger : Ledger.load d (Path.ofText c.storage.hits) = .ok l)
    (hapart : c.KeepsApart (process :: visits.map Visit.process) d)
    (hvisits : ∀ v ∈ visits, v.now.IsRepresentable) :
    let alone := runs c probe d (visits.map fun v => (v.command, v.now, v.process))
    let together := (session c probe t).run (.files process) (files c d) (visits.map Visit.demand)
    List.Forall₂ (fun a b => a.1 = ending b.1 ∧
        MissLog.load a.2 (Path.ofText c.storage.misses) =
          MissLog.load b.2.disk (Path.ofText c.storage.misses) ∧
        ∃ l, Ledger.load a.2 (Path.ofText c.storage.hits) = .ok l ∧
          Ledger.load b.2.disk (Path.ofText c.storage.hits) = .ok l ∧
          (b.2.disk.isStorable (Path.ofText c.storage.hits) → l = b.2.hits.ledger.settled))
      alone together ∧
    ∀ config : Text, Config.loadFrom d (Path.ofText config) = .ok c →
      (∀ q ∈ [c.storage.hits, c.storage.misses], Path.ofText config ≠ Path.ofText q) →
      (∀ v ∈ visits, Path.ofText config ≠ (Path.ofText c.storage.hits).staging v.process) →
      (∀ v ∈ visits, Invocation.read v.args = .ok ⟨config, v.command⟩) →
        Invocation.runs probe d (visits.map fun v => (v.args, v.now, v.process)) = alone := by
  intro alone together
  have hclear : d.IsClear (Path.ofText c.storage.hits) (process :: visits.map Visit.process) :=
    ⟨Ledger.ne_folder_of_load hledger, hapart.folders⟩
  have hprocesses : ∀ v ∈ visits, v.process ∈ process :: visits.map Visit.process :=
    fun v hv => List.mem_cons_of_mem _ (List.mem_map_of_mem hv)
  have hinstep := Files.inStep_opened (m := Path.ofText c.storage.misses) hledger hclear
  have hruns := runs_inStep probe hinstep htable hapart List.mem_cons_self hprocesses hvisits
  refine ⟨hruns.imp fun a b h => ?_, ?_⟩
  · obtain ⟨hending, hsteps⟩ := h
    refine ⟨hending, ?_, hsteps.stored⟩
    have hlog := hsteps.agrees.elsewhere _ hapart.misses_ne_hits hapart.misses_ne_staging
    rw [MissLog.load, MissLog.load, hlog]
  · intro config hconfig hown hseconds hread
    have hvisited : c.KeepsApart (visits.map Visit.process) d :=
      ⟨hapart.files, fun n hn => hapart.seconds n (List.mem_cons_of_mem _ hn),
        fun n hn => hapart.folders n (List.mem_cons_of_mem _ hn)⟩
    refine Invocation.runs_eq_runs hconfig hvisited ⟨hclear.place, hvisited.folders⟩ hown ?_
      (fun v hv => List.mem_map_of_mem hv) hread
    intro n hn
    obtain ⟨v, hv, rfl⟩ := List.mem_map.1 hn
    exact hseconds v hv

end Runs

/-- A path that does not begin with a hyphen may be resolved, or only be told of. -/
theorem Invocation.read_resolve {path : Text} (h : path.head? ≠ some '-') (diagnose : Bool) :
    read ("resolve".toList :: path :: if diagnose then ["--diagnose".toList] else []) =
      .ok ⟨usualConfig, .resolve ⟨path, none, none⟩ diagnose⟩ := by
  have hword : path ≠ ['-', '-'] := by
    rintro rfl
    exact h rfl
  have hcommand := Argument.next?_word (by decide : ("resolve".toList).head? ≠ some '-') outerOptions
    (path :: if diagnose then ["--diagnose".toList] else [])
  have hpath := Argument.next?_word h resolveOptions (if diagnose then ["--diagnose".toList] else [])
  have hgather : Given.empty.gather resolveOptions 1
      (path :: if diagnose then ["--diagnose".toList] else []) =
        .ok ⟨[], if diagnose then ["diagnose".toList] else [], [path]⟩ := by
    rw [Given.gather_next hword hpath rfl]
    cases diagnose with
    | false => rw [if_neg (by decide), if_neg (by decide), Given.gather]; rfl
    | true =>
      rw [if_pos rfl, if_pos rfl, Given.gather_next (by decide) rfl rfl, Given.gather]
      rfl
  rw [read, readFrom]
  split
  · rename_i hnext
    rw [hcommand] at hnext
    cases hnext
  · rename_i hnext
    rw [hcommand] at hnext
    cases hnext
    have hname : commands.contains "resolve".toList := by decide
    rw [if_pos hname]
    change (Given.gather resolveOptions 1 Given.empty _ >>= _) = _
    rw [hgather]
    cases diagnose <;> rfl
  · rename_i a _ hne hnext
    rw [hcommand] at hnext
    cases hnext
    exact absurd rfl (hne _)

namespace Command

/-- A table with one rule. -/
def sampleTable : Text := "[[jumplinks]]\nid=7\nsource='a'\ndestination='/b'".toList

/-- A disk with nothing but the table. -/
def sampleDisk : Disk := ⟨[(["jumplinks-table.toml".toList], .file (Utf8.encode sampleTable))]⟩

/-- Two requests that the rule redirects, the second in a leap second, one that is only told of, and one
that nothing is found for. -/
def sampleVisits : List Visit :=
  [Visit.ofPath "/a".toList false ⟨0, 0⟩ 11, Visit.ofPath "/a".toList true ⟨1, 0⟩ 12,
    Visit.ofPath "/c".toList false ⟨2, 0⟩ 13, Visit.ofPath "/a".toList false ⟨1483228799, 1500000000⟩ 14]

/-- The table as it is read. -/
def sampleRules : RuleTable := ⟨[Rule.new 7 "a".toList "/b".toList], [], [], []⟩

/-- The table has the rule. -/
theorem load_sampleTable : RuleTable.load sampleDisk (Path.ofText Config.standard.storage.table) =
    .ok sampleRules := by
  cbv

/-- The usual place of the ledger. -/
def sampleHits : Path := ["jumplinks-hits.json".toList]

/-- There are no hits yet. -/
theorem load_sampleHits : Ledger.load sampleDisk sampleHits = .ok Ledger.empty := by
  cbv

/-- The usual files are apart. -/
theorem keepsApart_sampleDisk : Config.standard.KeepsApart [10, 11, 12, 13, 14] sampleDisk :=
  ⟨by decide, by decide, by decide⟩

/-- What holds of the members of two lists holds at each place. -/
theorem exists_of_forall₂ {α β : Type} {R : α → β → Prop} {xs : List α} {ys : List β}
    (h : List.Forall₂ R xs ys) {i : Nat} {y : β} (hy : ys[i]? = some y) :
    ∃ x, xs[i]? = some x ∧ R x y := by
  obtain ⟨hi, rfl⟩ := List.getElem?_eq_some_iff.1 hy
  exact ⟨_, List.getElem?_eq_getElem (h.length_eq ▸ hi), h.get (h.length_eq ▸ hi) hi⟩

/-- Four runs leave two hits of the rule. -/
theorem runs_eq_session_sample :
    RuleTable.load sampleDisk (Path.ofText Config.standard.storage.table) =
        .ok sampleRules ∧
      Ledger.load sampleDisk (Path.ofText Config.standard.storage.hits) = .ok Ledger.empty ∧
      Config.standard.KeepsApart (10 :: sampleVisits.map Visit.process) sampleDisk ∧
      (∀ v ∈ sampleVisits, v.now.IsRepresentable) ∧
      ∃ after l, (Invocation.runs (fun _ => none) sampleDisk
          (sampleVisits.map fun v => (v.args, v.now, v.process)))[3]? = some after ∧
        Ledger.load after.2 (Path.ofText Config.standard.storage.hits) = .ok l ∧
        l.get? 7 = some ⟨2, ⟨1483228799, 1500000000⟩⟩ := by
  have hconfig : Config.loadFrom sampleDisk (Path.ofText Invocation.usualConfig) =
      .ok Config.standard := by cbv
  have hledger : Ledger.load sampleDisk (Path.ofText Config.standard.storage.hits) =
      .ok Ledger.empty := load_sampleHits
  have hread : ∀ v ∈ sampleVisits,
      Invocation.read v.args = .ok ⟨Invocation.usualConfig, v.command⟩ := by
    intro v hv
    simp only [sampleVisits, List.mem_cons, List.not_mem_nil, or_false] at hv
    rcases hv with rfl | rfl | rfl | rfl
    · exact Invocation.read_resolve (by decide) false
    · exact Invocation.read_resolve (by decide) true
    · exact Invocation.read_resolve (by decide) false
    · exact Invocation.read_resolve (by decide) false
  have hinstants : ∀ v ∈ sampleVisits, v.now.IsRepresentable := by decide
  refine ⟨load_sampleTable, hledger, keepsApart_sampleDisk, hinstants, ?_⟩
  obtain ⟨hsteps, hruns⟩ := runs_eq_session (fun _ => none) load_sampleTable hledger
    keepsApart_sampleDisk hinstants
  rw [hruns Invocation.usualConfig hconfig (by decide) (by decide) hread]
  obtain ⟨x, hx, hstorable, hhits⟩ : ∃ x, ((session Config.standard (fun _ => none)
      sampleRules).run (.files 10)
        (files Config.standard sampleDisk) (sampleVisits.map Visit.demand))[3]? = some x ∧
      x.2.disk.isStorable (Path.ofText Config.standard.storage.hits) ∧
      x.2.hits.ledger.get? 7 = some ⟨2, ⟨1483228799, 1500000000⟩⟩ := ⟨_, rfl, rfl, rfl⟩
  obtain ⟨after, hafter, -, -, l, hload, -, hsame⟩ := exists_of_forall₂ hsteps hx
  refine ⟨after, l, hafter, hload, ?_⟩
  rw [hsame hstorable, Ledger.get?_settled, hhits]
  rfl

/-- A configuration in which one file has two paths. -/
def sharedFile : Config :=
  { Config.standard with
    storage := { Config.standard.storage with misses := "./jumplinks-hits.json".toList } }

/-- A request that is redirected, one that nothing is found for, and the first again. -/
def sharedVisits : List Visit :=
  [Visit.ofPath "/a".toList false ⟨0, 0⟩ 11, Visit.ofPath "/c".toList false ⟨1, 0⟩ 12,
    Visit.ofPath "/a".toList false ⟨2, 0⟩ 13]

/-- What the requests leave in the books. -/
theorem note_sharedVisits :
    let s := session sharedFile (fun _ => none) sampleRules
    (Visit.ofPath "/a".toList false ⟨0, 0⟩ 11).note s = .hit 7 ∧
      (Visit.ofPath "/c".toList false ⟨1, 0⟩ 12).note s = .miss ∧
      (Visit.ofPath "/a".toList false ⟨2, 0⟩ 13).note s = .hit 7 := ⟨rfl, rfl, rfl⟩

/-- The ledger is where it usually is. -/
theorem hits_sharedFile : Path.ofText sharedFile.storage.hits = sampleHits := by
  decide

/-- The log is there, too. -/
theorem misses_sharedFile : Path.ofText sharedFile.storage.misses = sampleHits := by
  decide

/-- The books that a run opens. -/
theorem files_sharedFile (d : Disk) : files sharedFile d =
    Files.opened sampleHits sampleHits d := by
  rw [files, hits_sharedFile, misses_sharedFile]
  rfl

/-- The ledger and the log are one file that can be written. -/
theorem isShared_sampleDisk :
    Files.IsShared sampleHits [10, 11, 12, 13] (Files.opened sampleHits sampleHits sampleDisk) :=
  ⟨Files.path_opened _ _ _, rfl, ⟨by decide, by decide⟩, by decide, by decide⟩

/-- Runs count one hit. -/
theorem hits_runs_sharedVisits :
    ((runs sharedFile (fun _ => none) sampleDisk
      (sharedVisits.map fun v => (v.command, v.now, v.process)))[2]?.bind fun a =>
        (Ledger.load a.2 sampleHits).toOption.bind (·.get? 7)) =
          some ⟨1, ⟨2, 0⟩⟩ := by
  have hlast : (⟨2, 0⟩ : Instant).IsRepresentable := by decide
  obtain ⟨hagrees₁, hagrees₂, hload⟩ := isShared_sampleDisk.load_runs (by decide : 11 ∈ _)
    (by decide : 13 ∈ _) hlast 12 7 ⟨0, 0⟩ ⟨"/c".toList, none, none⟩ ⟨1, 0⟩
  have htable {d : Disk} (h : sampleDisk.Agrees sampleHits [10, 11, 12, 13] d) :
      RuleTable.load d (Path.ofText sharedFile.storage.table) = .ok sampleRules := by
    rw [RuleTable.load, ← h.elsewhere _ (by decide) (by decide)]
    exact load_sampleTable
  obtain ⟨hfirst, hsecond, hthird⟩ := note_sharedVisits
  have hdisk₁ := disk_run_visit sharedFile (fun _ => none)
    (Visit.ofPath "/a".toList false ⟨0, 0⟩ 11) load_sampleTable
  rw [hfirst, files_sharedFile] at hdisk₁
  have hdisk₂ := disk_run_visit sharedFile (fun _ => none)
    (Visit.ofPath "/c".toList false ⟨1, 0⟩ 12) (htable hagrees₁)
  rw [hsecond, files_sharedFile] at hdisk₂
  have hdisk₃ := disk_run_visit sharedFile (fun _ => none)
    (Visit.ofPath "/a".toList false ⟨2, 0⟩ 13) (htable hagrees₂)
  rw [hthird, files_sharedFile] at hdisk₃
  simp only [Visit.ofPath, Keeper.enter] at hdisk₁ hdisk₂ hdisk₃
  rw [sharedVisits]
  simp only [List.map_cons, List.map_nil, runs_cons, List.getElem?_cons_succ, List.getElem?_cons_zero,
    Option.bind_some, Visit.ofPath]
  rw [hdisk₁, hdisk₂, hdisk₃, hload, Except.toOption, Option.bind_some, Ledger.get?_settled]
  rfl

/-- A session counts two. -/
theorem hits_session_sharedVisits :
    (((session sharedFile (fun _ => none) sampleRules).run (.files 10) (files sharedFile sampleDisk)
      (sharedVisits.map Visit.demand))[2]?.bind fun b =>
        (Ledger.load b.2.disk sampleHits).toOption.bind (·.get? 7)) =
          some ⟨2, ⟨2, 0⟩⟩ := by
  have hfirst : (⟨0, 0⟩ : Instant).IsRepresentable := by decide
  have hlast : (⟨2, 0⟩ : Instant).IsRepresentable := by decide
  have hload := isShared_sampleDisk.load_session load_sampleHits (by decide : 10 ∈ _) hfirst hlast 7
    ⟨"/c".toList, none, none⟩ ⟨1, 0⟩
  obtain ⟨hone, htwo, hthree⟩ := note_sharedVisits
  rw [sharedVisits, List.map_cons, List.map_cons, List.map_cons, Session.run_cons, Session.run_cons,
    Session.run_cons, Visit.step_demand, Visit.step_demand, Visit.step_demand, hone, htwo, hthree,
    files_sharedFile]
  simp only [Visit.ofPath, Keeper.enter, List.getElem?_cons_succ, List.getElem?_cons_zero,
    Option.bind_some]
  rw [hload, Except.toOption, Option.bind_some, Ledger.get?_settled]
  rfl

/-- Paths that are spelled in different ways may be those of one file. What is missing is then put into the
ledger, which the next run can no longer read: it begins to count anew, where a session goes on. -/
theorem lost_run :
    sharedFile.faults = [] ∧
      [sharedFile.storage.table, sharedFile.storage.hits, sharedFile.storage.misses].Nodup ∧
      RuleTable.load sampleDisk (Path.ofText sharedFile.storage.table) = .ok sampleRules ∧
      Ledger.load sampleDisk (Path.ofText sharedFile.storage.hits) = .ok Ledger.empty ∧
      MissLog.load sampleDisk (Path.ofText sharedFile.storage.misses) = .ok [] ∧
      ((runs sharedFile (fun _ => none) sampleDisk
        (sharedVisits.map fun v => (v.command, v.now, v.process)))[2]?.bind fun a =>
          (Ledger.load a.2 (Path.ofText sharedFile.storage.hits)).toOption.bind (·.get? 7)) =
            some ⟨1, ⟨2, 0⟩⟩ ∧
      (((session sharedFile (fun _ => none) sampleRules).run (.files 10) (files sharedFile sampleDisk)
        (sharedVisits.map Visit.demand))[2]?.bind fun b =>
          (Ledger.load b.2.disk (Path.ofText sharedFile.storage.hits)).toOption.bind (·.get? 7)) =
            some ⟨2, ⟨2, 0⟩⟩ := by
  rw [hits_sharedFile, misses_sharedFile]
  exact ⟨rfl, by decide, load_sampleTable, load_sampleHits, by cbv, hits_runs_sharedVisits,
    hits_session_sharedVisits⟩

end Command
end Detour
