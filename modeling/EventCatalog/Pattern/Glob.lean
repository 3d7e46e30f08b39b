import EventCatalog.Pattern.Regex
import EventCatalog.Text.Blank
import EventCatalog.Text.LowerCase

/-!
# Globs

In a pattern, `*` stands for any run of characters and `?` for one character. A pattern with either
is a glob and becomes a regular expression; the pattern of a path is completed first, so that it
selects either one path or a subtree.
-/

namespace EventCatalog.Glob

open Regex (Atom)

/-- Whether a pattern has a wildcard. -/
def hasWildcard (pattern : List Char) : Bool := pattern.any fun c => c == '*' || c == '?'

/-- What one character of a glob stands for. -/
def atom (c : Char) : Atom :=
  if c = '*' then .anyStar else if c = '?' then .any else .char c

/-- The regular expression of a glob. -/
def toRegex (glob : List Char) : Regex := glob.map atom

/-- A path selects itself, a path with a final slash its subtree, and one with a final star what
the star stands for. -/
def completePath (pattern : List Char) : List Char :=
  match pattern.getLast? with
  | some '*' => pattern
  | some '/' => pattern ++ ['*']
  | _ => pattern ++ ['/']

/-- A pattern as it is matched: trimmed and in lower case. -/
def normalize (pattern : String) : List Char :=
  (Text.lower (String.ofList (Text.trim pattern.toList))).toList

end EventCatalog.Glob
