import HistogramMonitor.Text.Utf8

/-!
# Paths

A path is a text; its parts stand between slashes. An empty part and a single dot lead nowhere, two dots
lead to the directory above. A path that begins with a slash starts at the root, any other at the current
directory.
-/

namespace HistogramMonitor.Path

/-! ## Parts -/

/-- The parts of a row of characters, at least one. -/
def split : List Char → List (List Char)
  | [] => [[]]
  | c :: cs =>
    if c = '/' then [] :: split cs
    else match split cs with
      | part :: parts => (c :: part) :: parts
      | [] => [[c]]

/-- The parts of a path. -/
def parts (path : String) : List String := (split path.toList).map String.ofList

/-- Whether a path starts at the root. -/
def absolute (path : String) : Bool := path.toList.head? = some '/'

/-- Whether a part leads nowhere. -/
def idle (part : String) : Bool := part.isEmpty || part = "."

/-- Parts without the empty ones at the end. -/
def trimmed (parts : List String) : List String := (parts.reverse.dropWhile String.isEmpty).reverse

/-- Whether a path ends with a slash. -/
def slashed (path : String) : Bool := path.toList.getLast? = some '/'

/-! ## Paths from paths -/

/-- The path of something in a directory. -/
def join (directory name : String) : String :=
  if directory.isEmpty || slashed directory then directory ++ name
  else directory ++ "/" ++ name

/-- The path of the directory above, as the text of the path shows it; the
root and the empty path have none. -/
def parent? (path : String) : Option String :=
  let start := if absolute path then "/" else ""
  let dot := if !absolute path && (parts path).head? = some "." then ["."] else []
  match (dot ++ (parts path).filter (!idle ·)).reverse with
  | [] => none
  | _ :: above => some (start ++ "/".intercalate above.reverse)

/-! ## Names -/

/-- The longest name that a directory can hold, in bytes. -/
def nameLimit : Nat := 255

/-- The first length of a path that is too long, in bytes. -/
def limit : Nat := 4096

end HistogramMonitor.Path
