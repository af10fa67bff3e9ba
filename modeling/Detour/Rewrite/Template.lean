import Detour.Directory
import Detour.Rewrite.Cleaning
import Detour.Rewrite.Collection
import Detour.Url.Reader
import Detour.Wildcard.Pattern

/-!
# Destinations

A destination is a template for the URL of a redirect. `{name}` stands for a cleaned capture,
`{!name}` for the capture as it is, `{name|collection}` for the value that a collection has for it,
`(key|collection)` for the value of a fixed key, and `[[selector]]` for the path of the page that the
selector finds. A destination `page:7` is the path of a page, which is a template again.

`Expander.expand` puts captures in one wildcard after the other. The values of `{name|collection}`
are kept out of the text until the trailing slash is settled; a *slot* holds their place meanwhile.
-/

namespace Detour

/-- Why a destination has no URL. -/
inductive ExpansionError where
  /-- the text behind `page:` is no number -/
  | invalidPage (raw : Text)
  /-- there is no page with this number -/
  | missingPage (id : UInt64)
  /-- the selector finds no page -/
  | missingSelector (selector : Text)
deriving Repr, DecidableEq

/-- What is said about a destination without a URL. -/
def ExpansionError.message : ExpansionError → Text
  | invalidPage raw => "invalid page identifier `".toList ++ raw ++ ['`']
  | missingPage id => "page ".toList ++ writeNat id.toNat ++ " does not exist".toList
  | missingSelector s => "selector `".toList ++ s ++ "` did not return a page".toList

/-- What became of one captured value. -/
structure Substitution where
  /-- the name of the wildcard -/
  name : Text
  /-- the captured value -/
  captured : Text
  /-- the form in which `{name}` receives it -/
  injected : Text
deriving Repr, DecidableEq

/-- An expanded destination. -/
structure Expansion where
  /-- the template after a page is looked up -/
  template : Text
  /-- the URL -/
  url : Text
  /-- what became of each captured value -/
  substitutions : List Substitution
deriving Repr, DecidableEq

/-- What destinations are expanded with. -/
structure Expander where
  /-- how captured values are cleaned -/
  cleaner : Cleaner
  /-- the mapping collections -/
  collections : Collections
  /-- the pages and selectors -/
  directory : Directory
  /-- the URL that destinations without a scheme are put behind, unless blank -/
  site : Text
  /-- how URLs are read -/
  [urls : UrlReader]

namespace Template

/-- What a destination that names a page begins with. -/
def pageWord : Text := "page:".toList

/-- A mapping reference in round brackets, `({name}|collection)`, written as `{name|collection}`. -/
def bracketedForm : Form Text
  | '(' :: '\x7b' :: s =>
    let raw := s.head? == some '!'
    let s := if raw then s.drop 1 else s
    let name := s.takeWhile isBasicLetter
    match s.drop name.length with
    | '\x7d' :: '|' :: s =>
      let collection := s.takeWhile isBasicLetter
      if name.isEmpty || collection.isEmpty || (s.drop collection.length).head? != some ')' then none
      else
        some (['\x7b'] ++ name ++ ['|'] ++ collection ++ ['\x7d'],
          raw.toNat + name.length + collection.length + 5)
    | _ => none
  | _ => none

/-- A template with all mapping references in one form. -/
def unbracket (s : Text) : Text := Text.rewrite bracketedForm id s

/-- The rest of a text behind a word, letter case ignored. -/
def afterFolded? : (word s : Text) → Option Text
  | [], s => some s
  | _ :: _, [] => none
  | a :: word, c :: s => if sameLetter a c then afterFolded? word s else none

/-- A mapping reference to a wildcard, read as the name of its collection. -/
def mappingForm (name : Text) : Form Text
  | '\x7b' :: s =>
    match afterFolded? name s with
    | some ('|' :: s) =>
      let collection := s.takeWhile isBasicLetter
      if collection.isEmpty || (s.drop collection.length).head? != some '\x7d' then none
      else some (collection, name.length + collection.length + 3)
    | _ => none
  | _ => none

/-- The slot that holds the place of a mapped value. -/
def slot (n : Nat) : Text := ['\x01'] ++ writeNat n ++ ['\x01']

/-- Pieces written back with a slot for every mapping reference, numbered from `n` on. -/
def writeSlots (n : Nat) : List (Piece Text) → Text
  | [] => []
  | .plain c :: ps => c :: writeSlots n ps
  | .hit _ :: ps => slot n ++ writeSlots (n + 1) ps

/-- Every slot from number `n` on replaced by its value, one after the other. -/
def fillSlots (n : Nat) : (values : List Text) → Text → Text
  | [], s => s
  | value :: values, s => fillSlots (n + 1) values (Text.replaceAll (slot n) value s)

/-- A URL whose end is a slash exactly if the template's end is one, and then a single one. -/
def settleSlash (template url : Text) : Text :=
  Text.trimEnd (· == '/') url ++ if template.getLast? == some '/' then ['/'] else []

/-- Whether a character may stand in a selector. -/
def isSelectorChar (c : Char) : Bool :=
  isWord c || isBlank c || "-/=\",.'".toList.contains c

/-- A selector in double square brackets. -/
def selectorForm : Form Text
  | '[' :: '[' :: s =>
    let body := s.takeWhile isSelectorChar
    match s.drop body.length with
    | ']' :: ']' :: _ => if body.isEmpty then none else some (body, body.length + 4)
    | _ => none
  | _ => none

end Template

/-- A destination in which some captures have been put in. -/
structure Draft where
  /-- the text so far, with slots -/
  text : Text
  /-- the values of the slots -/
  mapped : List Text
deriving Repr, DecidableEq

namespace Expander

open Template

/-- The template of a destination, which is that of a page if the destination names one. -/
def template (x : Expander) (destination : Text) : Except ExpansionError Text :=
  match Text.after? pageWord destination with
  | none => .ok destination
  | some raw =>
    match readUInt64? (Text.trim raw) with
    | none => .error (.invalidPage raw)
    | some id =>
      match x.directory.page id with
      | none => .error (.missingPage id)
      | some path => .ok path

/-- The form in which `{name}` receives a captured value. -/
def inject (x : Expander) (w : Wildcard) (captured : Text) : Text :=
  if w.raw then captured else x.cleaner.apply captured

/-- A draft with one captured value put in wherever its wildcard is referred to. -/
def substitute (x : Expander) (w : Wildcard) (captured : Text) (d : Draft) : Draft :=
  let s := Text.replaceAll (['\x7b', '!'] ++ w.name ++ ['\x7d']) captured d.text
  let s := Text.replaceAll (['\x7b'] ++ w.name ++ ['\x7d']) (x.inject w captured) s
  let ps := Text.pieces (mappingForm w.name) s
  ⟨writeSlots d.mapped.length ps,
    d.mapped ++ (Text.hits ps).map fun name => x.collections.mapOrSelf name captured⟩

/-- A draft with all captured values put in, one wildcard after the other. -/
def substituteAll (x : Expander) (captures : List (Wildcard × Text)) (d : Draft) : Draft :=
  captures.foldl (fun d (w, captured) => x.substitute w captured d) d

/-- The URL of a draft before selectors are looked up. -/
def finish (x : Expander) (template : Text) (d : Draft) : Text :=
  fillSlots 0 d.mapped (x.collections.apply (settleSlash template d.text))

/-- The pieces of a URL with every selector replaced by the path it finds, and the first selector that finds
none, which is the one that was missing before if there is one. -/
def selectFrom (x : Expander) : Option Text → List (Piece Text) → Option Text × Text
  | missing, [] => (missing, [])
  | missing, .plain c :: ps =>
    let (missing, rest) := x.selectFrom missing ps
    (missing, c :: rest)
  | missing, .hit s :: ps =>
    match x.directory.selector s with
    | some path =>
      let (missing, rest) := x.selectFrom missing ps
      (missing, path ++ rest)
    | none => x.selectFrom (missing.or (some s)) ps

/-- A URL with every selector replaced by the path it finds. -/
def select (x : Expander) (url : Text) : Except ExpansionError Text :=
  match x.selectFrom none (Text.pieces selectorForm url) with
  | (some missing, _) => .error (.missingSelector missing)
  | (none, text) => .ok text

/-- One pass over the pieces renders them and finds the first selector that is missing. -/
theorem selectFrom_eq (x : Expander) (missing : Option Text) (ps : List (Piece Text)) :
    x.selectFrom missing ps =
      (missing.or ((Text.hits ps).find? fun s => (x.directory.selector s).isNone),
        Text.render (fun s => (x.directory.selector s).getD []) ps) := by
  induction ps generalizing missing with
  | nil => simp [selectFrom, Text.hits, Text.render]
  | cons piece ps ih =>
    cases piece with
    | plain c => simp [selectFrom, ih, Text.hits, Text.render]
    | hit s =>
      rcases hpath : x.directory.selector s with _ | path
      · simp [selectFrom, ih, hpath, Text.hits, Text.render]
      · simp [selectFrom, ih, hpath, Text.hits, Text.render]

/-- A URL has the paths of its selectors put in, unless one of them is missing. -/
theorem select_eq (x : Expander) (url : Text) : x.select url =
    match (Text.hits (Text.pieces selectorForm url)).find? fun s => (x.directory.selector s).isNone with
    | some missing => .error (.missingSelector missing)
    | none =>
      .ok (Text.render (fun s => (x.directory.selector s).getD []) (Text.pieces selectorForm url)) := by
  rw [select, selectFrom_eq, Option.none_or]
  cases (Text.hits (Text.pieces selectorForm url)).find? fun s => (x.directory.selector s).isNone <;> rfl

/-- A URL put behind that of the site if it has no scheme. -/
def absolutize (x : Expander) (url : Text) : Text :=
  if (Text.trim x.site).isEmpty || x.urls.isAbsolute url then url
  else Text.trimEnd (· == '/') x.site ++ ['/'] ++ Text.trimStart (· == '/') url

/-- Without a site a URL stays as it is. -/
theorem absolutize_of_blank {x : Expander} (h : (Text.trim x.site).isEmpty) (url : Text) :
    x.absolutize url = url := by
  rw [absolutize, h, Bool.true_or, if_pos rfl]

/-- The URL that a destination stands for when wildcards have captured values. -/
def expand (x : Expander) (destination : Text) (wildcards : List Wildcard) (values : List Text) :
    Except ExpansionError Expansion :=
  match x.template destination with
  | .error e => .error e
  | .ok template =>
    let captures := wildcards.zip values
    match x.select (x.finish template (x.substituteAll captures ⟨unbracket template, []⟩)) with
    | .error e => .error e
    | .ok url =>
      .ok ⟨template, x.absolutize url,
        captures.map fun (w, captured) => ⟨w.name, captured, x.inject w captured⟩⟩

end Expander

end Detour
