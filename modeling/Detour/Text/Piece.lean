import Detour.Text.Basic

/-!
# Scanning a text for pieces

A *form* recognises a construct at the front of a text and says what it means and how many
characters it takes. `Text.pieces` walks over a text once, from left to right: where the form
applies, the construct becomes one `Piece.hit`, and any other character stays a `Piece.plain`.
Every rewriting of patterns and destinations is such a walk followed by a rendering of the pieces.
-/

namespace Detour

/-- What a scan finds at one place of a text. -/
inductive Piece (β : Type) where
  /-- a character that belongs to no construct -/
  | plain (c : Char)
  /-- a construct with its meaning -/
  | hit (meaning : β)
deriving Repr, DecidableEq

/-- A construct looked for at the front of a text: its meaning and its length, which is never 0. -/
abbrev Form (β : Type) := Text → Option (β × Nat)

namespace Text

variable {β : Type}

/-- The walk of `pieces`; the first argument counts the characters that still belong to the
construct found last. -/
def piecesFrom (form : Form β) : Nat → Text → List (Piece β)
  | _, [] => []
  | skip + 1, _ :: s => piecesFrom form skip s
  | 0, c :: s =>
    match form (c :: s) with
    | some (meaning, size) => .hit meaning :: piecesFrom form (size - 1) s
    | none => .plain c :: piecesFrom form 0 s

/-- The constructs of one form in a text, from left to right and without overlaps, with the
characters between them. -/
def pieces (form : Form β) (s : Text) : List (Piece β) := piecesFrom form 0 s

/-- A text written back from its pieces. -/
def render (write : β → Text) (ps : List (Piece β)) : Text :=
  ps.flatMap fun
    | .plain c => [c]
    | .hit meaning => write meaning

/-- Every construct of one form rewritten. -/
def rewrite (form : Form β) (write : β → Text) (s : Text) : Text := render write (pieces form s)

/-- The meanings of the constructs in a list of pieces, in order. -/
def hits (ps : List (Piece β)) : List β :=
  ps.filterMap fun
    | .plain _ => none
    | .hit meaning => some meaning

/-- Skipping as many characters as a leading part has leaves the rest. -/
theorem piecesFrom_append (form : Form β) (lead s : Text) :
    piecesFrom form lead.length (lead ++ s) = piecesFrom form 0 s := by
  induction lead with
  | nil => rfl
  | cons c lead ih => simpa [piecesFrom] using ih

/-- A construct at the front is one piece, and the walk goes on behind it. -/
theorem pieces_append {form : Form β} {meaning : β} {lead s : Text} (h : lead ≠ [])
    (hf : form (lead ++ s) = some (meaning, lead.length)) :
    pieces form (lead ++ s) = .hit meaning :: pieces form s := by
  cases lead with
  | nil => exact absurd rfl h
  | cons c lead =>
    rw [List.cons_append] at hf
    simp [pieces, piecesFrom, hf, piecesFrom_append]

/-- A character at which no construct starts is a piece of its own. -/
theorem pieces_cons {form : Form β} {c : Char} {s : Text} (h : form (c :: s) = none) :
    pieces form (c :: s) = .plain c :: pieces form s := by
  simp [pieces, piecesFrom, h]

/-- Skipping characters is going on behind them. -/
theorem piecesFrom_eq (form : Form β) (skip : Nat) (s : Text) :
    piecesFrom form skip s = pieces form (s.drop skip) := by
  induction s generalizing skip with
  | nil => cases skip <;> rfl
  | cons c s ih =>
    cases skip with
    | zero => rfl
    | succ skip => exact ih skip

/-- Where a construct starts it is one piece, and the walk goes on behind as many characters as it
takes. -/
theorem pieces_hit {form : Form β} {c : Char} {s : Text} {meaning : β} {size : Nat}
    (h : form (c :: s) = some (meaning, size)) :
    pieces form (c :: s) = .hit meaning :: pieces form (s.drop (size - 1)) := by
  rw [← piecesFrom_eq]
  simp [pieces, piecesFrom, h]

/-- The walk over a text: what holds at its end, at a character if it holds behind it, and at a construct
if it holds behind that, holds of every text. -/
theorem walk_induction (form : Form β) {P : Text → Prop} (nil : P [])
    (plain : ∀ c s, form (c :: s) = none → P s → P (c :: s))
    (hit : ∀ c s meaning size, form (c :: s) = some (meaning, size) → P (s.drop (size - 1)) →
      P (c :: s)) (s : Text) : P s := by
  induction hlength : s.length using Nat.strongRecOn generalizing s with
  | _ n ih =>
    subst hlength
    cases s with
    | nil => exact nil
    | cons c s =>
      cases hform : form (c :: s) with
      | none => exact plain c s hform (ih s.length (Nat.lt_succ_self _) s rfl)
      | some found =>
        have hshort : (s.drop (found.2 - 1)).length < (c :: s).length := by
          rw [List.length_drop, List.length_cons]
          omega
        exact hit c s found.1 found.2 hform (ih _ hshort _ rfl)

/-- Characters at which no construct starts are pieces of their own. -/
theorem pieces_plain {form : Form β} {lead : Text} (s : Text)
    (h : ∀ c ∈ lead, ∀ rest, form (c :: rest) = none) :
    pieces form (lead ++ s) = lead.map .plain ++ pieces form s := by
  induction lead with
  | nil => rfl
  | cons c lead ih =>
    rw [List.cons_append, pieces_cons (h c List.mem_cons_self _),
      ih fun d hd => h d (List.mem_cons_of_mem c hd)]
    rfl

/-- Pieces are written back one after the other. -/
theorem render_append (write : β → Text) (ps qs : List (Piece β)) :
    render write (ps ++ qs) = render write ps ++ render write qs := List.flatMap_append

/-- Plain characters are written back as they are. -/
theorem render_plain (write : β → Text) (s : Text) : render write (s.map .plain) = s := by
  induction s with
  | nil => rfl
  | cons c s ih => exact congrArg (c :: ·) ih

/-- Plain characters in front are no constructs. -/
theorem hits_plain_append (s : Text) (ps : List (Piece β)) : hits (s.map .plain ++ ps) = hits ps := by
  induction s with
  | nil => rfl
  | cons c s ih => exact ih

/-- A part in which no construct starts is kept by every rewriting. -/
theorem rewrite_plain {form : Form β} (write : β → Text) {lead : Text} (s : Text)
    (h : ∀ c ∈ lead, ∀ rest, form (c :: rest) = none) :
    rewrite form write (lead ++ s) = lead ++ rewrite form write s := by
  rw [rewrite, pieces_plain s h, render_append, render_plain]
  rfl

/-- A text in which no construct starts is kept by every rewriting. -/
theorem rewrite_eq_self {form : Form β} (write : β → Text) {s : Text}
    (h : ∀ c ∈ s, ∀ rest, form (c :: rest) = none) : rewrite form write s = s := by
  have := rewrite_plain write [] h
  rw [List.append_nil] at this
  rw [this]
  exact List.append_nil s

/-- A character at which no construct starts is kept by every rewriting. -/
theorem rewrite_cons {form : Form β} (write : β → Text) {c : Char} {s : Text}
    (h : form (c :: s) = none) : rewrite form write (c :: s) = c :: rewrite form write s := by
  rw [rewrite, pieces_cons h]
  rfl

/-- Where a construct starts it is rewritten, and the rewriting goes on behind as many characters as it
takes. -/
theorem rewrite_hit {form : Form β} {c : Char} {s : Text} {meaning : β} {size : Nat} (write : β → Text)
    (h : form (c :: s) = some (meaning, size)) :
    rewrite form write (c :: s) = write meaning ++ rewrite form write (s.drop (size - 1)) := by
  rw [rewrite, pieces_hit h]
  rfl

/-- A construct at the front is rewritten, and the rewriting goes on behind it. -/
theorem rewrite_append {form : Form β} {meaning : β} (write : β → Text) {lead s : Text}
    (h : lead ≠ []) (hf : form (lead ++ s) = some (meaning, lead.length)) :
    rewrite form write (lead ++ s) = write meaning ++ rewrite form write s := by
  rw [rewrite, pieces_append h hf]
  rfl

/-- A word looked for wherever it occurs. -/
def wordForm (word : Text) : Form Unit := fun s =>
  if startsWith word s then some ((), word.length) else none

/-- Replacing every occurrence of a word is a rewriting. -/
theorem replaceAll_eq_rewrite (word new s : Text) :
    replaceAll word new s = rewrite (wordForm word) (fun _ => new) s := by
  have h : ∀ skip, replaceFrom word new skip s =
      render (fun _ => new) (piecesFrom (wordForm word) skip s) := by
    induction s with
    | nil => intro skip; cases skip <;> rfl
    | cons c s ih =>
      intro skip
      cases skip with
      | succ skip => exact ih skip
      | zero =>
        simp only [replaceFrom, piecesFrom, wordForm]
        split
        · exact congrArg (new ++ ·) (ih (word.length - 1))
        · exact congrArg (c :: ·) (ih 0)
  exact h 0

end Text

end Detour
