import Pipework.Text.Lines

/-!
# Paths

Paths as texts: names between slashes.  A name of one dot stands for the folder itself and one of
two dots for the folder around it.
-/

namespace Pipework.Disk

/-- The names of a path, some of them perhaps empty. -/
def names (path : String) : List String :=
  (Text.fields '/' path.toList).map String.ofList

/-- Whether a path begins at the root. -/
def isAbsolute (path : String) : Bool := path.toList.head? == some '/'

/-- A name inside a folder. -/
def join (folder name : String) : String :=
  if folder.isEmpty || folder.toList.getLast? == some '/' then folder ++ name
  else folder ++ "/" ++ name

/-- Names from the last backwards, without those in front that do not count: empty ones, and single
dots other than the beginning of a relative path. -/
def dropIdle (absolute : Bool) : List String → List String
  | [] => []
  | [first] => if first = "" || (first = "." && absolute) then [] else [first]
  | name :: rest => if name = "" || name = "." then dropIdle absolute rest else name :: rest

/-- The path without its last name, if it has one. -/
def parent? (path : String) : Option String :=
  let absolute := isAbsolute path
  let names := names path
  let names := if absolute then names.tail else names
  match dropIdle absolute names.reverse with
  | [] => none
  | _ :: above =>
    let kept := String.intercalate "/" (dropIdle absolute above).reverse
    some (if absolute then "/" ++ kept else kept)

/-- The name of a file in front of its last dot and the extension behind that.  A dot in front of
the name begins no extension. -/
def splitExtension (name : String) : String × Option String :=
  match Text.fields '.' name.toList with
  | [] => (name, none)
  | [_] => (name, none)
  | fields =>
    let stem := String.ofList (List.intercalate ['.'] fields.dropLast)
    if stem.isEmpty then (name, none) else (stem, fields.getLast?.map String.ofList)

end Pipework.Disk
