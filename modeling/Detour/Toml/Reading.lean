import Detour.Toml.Scalar
import Detour.Toml.Tree

/-!
# Reading TOML documents

`Toml.read?` reads a document line by line. A line is blank, a comment, a header of a table in single or
double brackets, or an entry `key = value`; keys may have dots. Lists may go over many lines, tables in
braces stand on one.
-/

namespace Detour

namespace Toml

/-- The greatest depth of nesting, and the greatest number of parts of a key. -/
def depthLimit : Nat := 79

/-- A text without leading blanks within a line. -/
def skipGap (s : Text) : Text := s.dropWhile isGap

/-- The text behind a comment; `none` if the comment holds a control. -/
def comment? (s : Text) : Option Text :=
  match s with
  | '#' :: s =>
    let rest := s.dropWhile isPlain
    if rest.isEmpty || (lineEnd? rest).isSome then some rest else none
  | s => some s

/-! ### Keys -/

/-- Whether a character may stand in a key without quotes. -/
def isBare (c : Char) : Bool := c.isAlphanum || c == '_' || c == '-'

/-- One part of a key and the text behind it. -/
def keyPart? (s : Text) : Option (Text × Text) :=
  match s with
  | '"' :: s => basic? (s.length + 1) s
  | '\'' :: s => literal? s
  | s =>
    let part := s.takeWhile isBare
    if part.isEmpty then none else some (part, s.drop part.length)

/-- The parts of a key and the text behind it and any blanks. Every part takes a character, so that
`fuel` need not exceed their number. -/
def keyParts? : (fuel : Nat) → Text → Option (List Text × Text)
  | 0, _ => none
  | fuel + 1, s => do
    let (part, s) ← keyPart? (skipGap s)
    match skipGap s with
    | '.' :: s => do
      let (parts, rest) ← keyParts? fuel s
      some (part :: parts, rest)
    | s => some ([part], s)

/-- A key as the parts before its last dot and its last part, and the text behind it. -/
def key? (s : Text) : Option (List Text × Text × Text) := do
  let (parts, rest) ← keyParts? (s.length + 1) s
  if parts.length ≤ depthLimit then some (parts.dropLast, ← parts.getLast?, rest) else none

/-! ### Values -/

/-- A text without leading blanks, line ends and comments. -/
def skipFiller : (fuel : Nat) → Text → Option Text
  | 0, s => some s
  | fuel + 1, s => do
    let s ← comment? (skipGap s)
    match lineEnd? s with
    | some rest => skipFiller fuel rest
    | none => some s

mutual

/-- A value at some depth of nesting and the text behind it. Every level and every element takes a
character, so that `fuel` need not exceed their number. -/
def value? : (fuel depth : Nat) → Text → Option (Toml × Text)
  | 0, _, _ => none
  | fuel + 1, depth, s =>
    match s with
    | '[' :: s => if depth < depthLimit then elements? fuel (depth + 1) s else none
    | '\x7b' :: s =>
      if depth < depthLimit then
        match skipGap s with
        | '\x7d' :: rest => some (.table [], rest)
        | s => members? fuel (depth + 1) [] s
      else none
    | '"' :: _ | '\'' :: _ => (quoted? s).map fun (t, rest) => (text t, rest)
    | s => (ofWord? (word s)).map fun v => (v, s.drop (word s).length)

/-- The elements of a list up to its closing bracket, and the text behind it. -/
def elements? : (fuel depth : Nat) → Text → Option (Toml × Text)
  | 0, _, _ => none
  | fuel + 1, depth, s => do
    match ← skipFiller (s.length + 1) s with
    | ']' :: rest => some (.array [], rest)
    | s => do
      let (v, s) ← value? fuel depth s
      match ← skipFiller (s.length + 1) s with
      | ']' :: rest => some (.array [v], rest)
      | ',' :: s =>
        match ← elements? fuel depth s with
        | (.array vs, rest) => some (.array (v :: vs), rest)
        | _ => none
      | _ => none

/-- The entries of a table in braces up to its closing brace, added to those before, and the text
behind it. -/
def members? : (fuel depth : Nat) → Node.Entries → Text → Option (Toml × Text)
  | 0, _, _, _ => none
  | fuel + 1, depth, before, s => do
    let (path, key, s) ← key? s
    match s with
    | '=' :: s => do
      let (v, s) ← value? fuel depth (skipGap s)
      let all ← Node.assign path key v before
      match skipGap s with
      | '\x7d' :: rest => some (.table (Node.finishEntries all), rest)
      | ',' :: s => members? fuel depth all s
      | _ => none
    | _ => none

end

/-! ### Documents -/

/-- A document up to some line: its entries and the path of the table that a header has opened last. -/
structure Reader where
  /-- the entries of the document -/
  root : Node.Entries
  /-- the path of the current table -/
  current : List Text

/-- The text behind a comment and the end of the line or of the document. -/
def endOfLine? (s : Text) : Option Text := do
  let s ← comment? (skipGap s)
  if s.isEmpty then some [] else lineEnd? s

/-- The reader behind one line that is not blank, and the text behind what the line says. -/
def line? (r : Reader) (s : Text) : Option (Reader × Text) :=
  match s with
  | '[' :: '[' :: s => do
    let (path, key, s) ← key? s
    match s with
    | ']' :: ']' :: rest => some (⟨← Node.openElement path key r.root, path ++ [key]⟩, rest)
    | _ => none
  | '[' :: s => do
    let (path, key, s) ← key? s
    match s with
    | ']' :: rest => some (⟨← Node.openTable path key r.root, path ++ [key]⟩, rest)
    | _ => none
  | s => do
    let (path, key, s) ← key? s
    match s with
    | '=' :: s => do
      let s := skipGap s
      let (v, rest) ← value? (s.length + 1) 0 s
      some (⟨← Node.assignAt r.current path key v r.root, r.current⟩, rest)
    | _ => none

/-- The entries of a document, read from some line on. Every line takes a character, so that `fuel`
need not exceed their number. -/
def lines? : (fuel : Nat) → Reader → Text → Option Node.Entries
  | 0, _, _ => none
  | fuel + 1, r, s =>
    let s := skipGap s
    match s with
    | [] => some r.root
    | c :: _ =>
      if c = '#' || c = '\n' || c = '\r' then
        match endOfLine? s with
        | some rest => lines? fuel r rest
        | none => none
      else match line? r s with
        | none => none
        | some (r, s) =>
          match endOfLine? s with
          | some rest => lines? fuel r rest
          | none => none

/-- The table that a text writes; a byte order mark in front is passed over. -/
def read? (s : Text) : Option Toml :=
  let s := (Text.after? ['\ufeff'] s).getD s
  (lines? (s.length + 1) ⟨[], []⟩ s).map fun root => .table (Node.finishEntries root)

end Toml

end Detour
