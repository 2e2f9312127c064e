import Pipework.Json.Basic

/-!
# Merging values

Laying one value over another: objects are merged field by field, and anything else replaces what is
below, except that `null` leaves it as it is.
-/

namespace Pipework.Json

mutual

/-- The value with the fields of all its objects in the order of their names. -/
def sorted : Json → Json
  | .list items => .list (sortedItems items)
  | .object fields => .object (sortedFields fields)
  | v => v

/-- The items with the fields of their objects sorted. -/
def sortedItems : List Json → List Json
  | [] => []
  | item :: rest => sorted item :: sortedItems rest

/-- Fields in the order of their names.  Of two with one name the first stays. -/
def sortedFields : List (String × Json) → List (String × Json)
  | [] => []
  | (name, v) :: rest => Named.insert name (sorted v) (sortedFields rest)

end

mutual

/-- A value with another laid over it. -/
def merge (base : Json) : Json → Json
  | .null => base
  | .object upper =>
    match base with
    | .object fields => .object (mergeFields fields upper)
    | _ => .object upper
  | upper => upper

/-- Fields in the order of their names with others laid over them. -/
def mergeFields (base : List (String × Json)) : List (String × Json) → List (String × Json)
  | [] => base
  | (name, v) :: rest =>
    let merged :=
      match Named.get? name base with
      | some below => merge below v
      | none => v
    mergeFields (Named.insert name merged base) rest

end

end Pipework.Json
