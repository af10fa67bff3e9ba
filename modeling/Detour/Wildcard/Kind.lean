import Detour.Text.Basic

/-!
# Kinds of wildcards

A wildcard of a source pattern captures a part of the request path; its *kind* says which texts it
takes, as a fragment of an expression. Some names imply a kind, so that `{id}` can be written for
`{id:num}`; these are the aliases of the kind.
-/

namespace Detour

/-- What texts a wildcard takes. -/
inductive Kind where
  /-- anything within a line -/
  | all
  /-- basic letters -/
  | alpha
  /-- word characters -/
  | alphanum
  /-- word characters, blanks and a few signs -/
  | any
  /-- a usual extension of a page's file name -/
  | ext
  /-- digits -/
  | num
  /-- one segment of a path -/
  | segment
  /-- several segments of a path -/
  | segments
deriving Repr, DecidableEq

namespace Kind

/-- All kinds, in the order of their names. -/
def list : List Kind := [all, alpha, alphanum, any, ext, num, segment, segments]

/-- The name of a kind in source patterns. -/
def name : Kind → Text
  | all => "all".toList
  | alpha => "alpha".toList
  | alphanum => "alphanum".toList
  | any => "any".toList
  | ext => "ext".toList
  | num => "num".toList
  | segment => "segment".toList
  | segments => "segments".toList

/-- The fragment of an expression that a kind stands for. -/
def fragment : Kind → Text
  | all => ".*".toList
  | alpha => "[a-z]+".toList
  | alphanum => "\\w+".toList
  | any => "[\\w.\\-_%=\\s]+".toList
  | ext =>
    ("aspx|asp|cfm|cgi|fcgi|dll|html|htm|shtml|shtm|jhtml|phtml|xhtm|xhtml|rbml|jspx|jsp|phps|" ++
      "php4|php").toList
  | num => "\\d+".toList
  | segment => "[\\w_-]+".toList
  | segments => "[\\w/_-]+".toList

/-- The kind with a name. -/
def ofName? (s : Text) : Option Kind := list.find? fun k => k.name = s

/-- The names that imply a kind. -/
def aliases : Kind → List Text
  | all => ["all".toList]
  | ext => ["ext".toList]
  | segment =>
    ["name".toList, "title".toList, "page".toList, "post".toList, "user".toList, "model".toList,
      "entry".toList]
  | segments => ["path".toList, "segments".toList]
  | num => ["year".toList, "month".toList, "day".toList, "id".toList, "num".toList]
  | alpha | alphanum | any => []

/-- The kind that a name of small letters implies. -/
def ofAlias? (s : Text) : Option Kind := list.find? fun k => k.aliases.contains s

/-- The kind that a name implies, in either case of the letters of ASCII. -/
def implied? (s : Text) : Option Kind := ofAlias? (s.map Char.toLower)

/-- A kind is found under its own name. -/
theorem ofName?_name (k : Kind) : ofName? k.name = some k := by cases k <;> decide

end Kind

end Detour
