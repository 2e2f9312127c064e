import Pipework.Text.Space

/-!
# Identifiers from display names

An identifier is built from a name in one pass: letters and digits of ASCII are kept in lower case,
and every stretch of other characters between them leaves one dash.
-/

namespace Pipework

/-- An identifier in the making, last character first, after one more character of the name. -/
def slugStep (slug : List Char) (c : Char) : List Char :=
  if c.isAlphanum then c.toLower :: slug
  else
    match slug with
    | [] => []
    | '-' :: _ => slug
    | _ => '-' :: slug

/-- The identifier for a display name. -/
def slug (name : List Char) : List Char :=
  (((Text.trim name).foldl slugStep []).dropWhile (· == '-')).reverse

end Pipework
