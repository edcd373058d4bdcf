import HistogramMonitor.Files.Path

/-!
# Trees of files

The files that a program works on: what stands under which name in which directory. A tree is a finite
map from places, rows of names from the root, to files and directories; the root is always a directory.
Every operation takes a path as a text and finds its place part by part, so it fails in the same way and
in the same order as walking there does.
-/

namespace HistogramMonitor

/-- Why an operation on files fails. -/
inductive FileError
  | missing
  | occupied
  | notDirectory
  | isDirectory
  | busy
  | invalid
  | notEmpty
  | nameTooLong
  /-- the path holds a null character -/
  | nullCharacter
  /-- the content is no text -/
  | notText
  deriving DecidableEq, Repr

/-- The wording of an error. -/
def FileError.message : FileError → String
  | missing => "No such file or directory (os error 2)"
  | occupied => "File exists (os error 17)"
  | notDirectory => "Not a directory (os error 20)"
  | isDirectory => "Is a directory (os error 21)"
  | busy => "Device or resource busy (os error 16)"
  | invalid => "Invalid argument (os error 22)"
  | notEmpty => "Directory not empty (os error 39)"
  | nameTooLong => "File name too long (os error 36)"
  | nullCharacter => "file name contained an unexpected NUL byte"
  | notText => "stream did not contain valid UTF-8"

/-- A row of names from the root. -/
abbrev Place := List String

/-- What stands at a place. -/
inductive Entry
  | file (content : Bytes)
  | directory
  deriving DecidableEq, Repr

/-- A tree of files, and the directory in which relative paths start. -/
structure Files where
  /-- what stands where, each place at most once -/
  entries : List (Place × Entry) := []
  current : Place := []
  deriving Repr

namespace Files

/-! ## Places -/

/-- What stands at a place. -/
def at? (t : Files) (p : Place) : Option Entry :=
  if p.isEmpty then some .directory else t.entries.lookup p

/-- The tree with something else at a place. -/
def put (p : Place) (e : Entry) (t : Files) : Files :=
  { t with entries := (p, e) :: t.entries.filter (·.1 ≠ p) }

/-- The tree without what stands at a place. -/
def remove (p : Place) (t : Files) : Files := { t with entries := t.entries.filter (·.1 ≠ p) }

/-- The tree without what stands under a place. -/
def clear (p : Place) (t : Files) : Files :=
  { t with entries := t.entries.filter fun e => e.1 = p || !p.isPrefixOf e.1 }

/-- The names in a directory. -/
def namesAt (t : Files) (p : Place) : List String :=
  t.entries.filterMap fun e => if e.1.dropLast = p then e.1.getLast? else none

/-- Whether the parts of a path can be walked from a place. -/
def enter (t : Files) (p : Place) : Except FileError Unit :=
  match t.at? p with
  | some .directory => .ok ()
  | some (.file _) => .error .notDirectory
  | none => .error .missing

/-- The place at the end of a walk. Every part before the last has to be a directory; the last may be
missing. -/
def walk (t : Files) : Place → List String → Except FileError Place
  | p, [] => .ok p
  | p, part :: parts => do
    t.enter p
    if Path.idle part then t.walk p parts
    else if part = ".." then t.walk p.dropLast parts
    else if Path.nameLimit < (Utf8.ofString part).length then .error .nameTooLong
    else t.walk (p ++ [part]) parts

/-- The place at the end of the parts of a path. -/
def locateParts (t : Files) (path : String) (parts : List String) : Except FileError Place :=
  if path.toList.contains '\x00' then .error .nullCharacter
  else if path.isEmpty then .error .missing
  else if Path.limit ≤ (Utf8.ofString path).length then .error .nameTooLong
  else t.walk (if Path.absolute path then [] else t.current) parts

/-- The place that a path names. A slash at its end asks for a directory. -/
def locate (t : Files) (path : String) : Except FileError Place := t.locateParts path (Path.parts path)

/-- The place that a path names for something yet to be made. -/
def locateNew (t : Files) (path : String) : Except FileError Place :=
  t.locateParts path (Path.trimmed (Path.parts path))

/-- The directory that holds what a path names, whatever that is. -/
def locateAbove (t : Files) (path : String) : Except FileError Place := do
  let p ← t.locateParts path (Path.trimmed (Path.parts path)).dropLast
  t.enter p
  return p

/-- The place that a path would name if everything on the way were a directory. -/
def intended (t : Files) (path : String) : Place :=
  (Path.parts path).foldl
    (fun p part =>
      if Path.idle part then p else if part = ".." then p.dropLast else p ++ [part])
    (if Path.absolute path then [] else t.current)

/-! ## Looking -/

/-- What a path names. -/
def find (t : Files) (path : String) : Except FileError Entry := do
  let p ← t.locate path
  match t.at? p with
  | some e => return e
  | none => throw .missing

/-- Whether a path names anything. -/
def has (t : Files) (path : String) : Bool := (t.find path).isOk

/-- Whether a path names a directory. -/
def isDirectory (t : Files) (path : String) : Bool :=
  match t.find path with
  | .ok .directory => true
  | _ => false

/-- The content of a file. -/
def read (t : Files) (path : String) : Except FileError Bytes := do
  match ← t.find path with
  | .file content => return content
  | .directory => throw .isDirectory

/-- The content of a file as a text. -/
def readText (t : Files) (path : String) : Except FileError String := do
  match Utf8.decode (← t.read path) with
  | .ok cs => return String.ofList cs
  | .error _ => throw .notText

/-- The names in a directory, in no particular order. -/
def names (t : Files) (path : String) : Except FileError (List String) := do
  let p ← t.locate path
  match t.at? p with
  | some .directory => return t.namesAt p
  | some (.file _) => throw .notDirectory
  | none => throw .missing

/-! ## Changing -/

/-- Writes a file, in place of what it held before. A slash at the end of the path asks for a directory,
whatever stands there. -/
def write (t : Files) (path : String) (content : Bytes) : Except FileError Files := do
  if Path.slashed path then
    let _ ← t.locateAbove path
    throw .isDirectory
  let p ← t.locateNew path
  match t.at? p with
  | some .directory => throw .isDirectory
  | _ => return t.put p (.file content)

/-- Makes a directory in one that exists. -/
def makeDirectory (t : Files) (path : String) : Except FileError Files := do
  let p ← t.locateNew path
  match t.at? p with
  | some _ => throw .occupied
  | none => return t.put p .directory

/-- What an operation leaves that can fail halfway. -/
abbrev Attempt := Files × Except FileError Unit

/-- Makes a directory, unless there is one already. -/
def ensureDirectory (t : Files) (path : String) : Attempt :=
  match t.makeDirectory path with
  | .ok t => (t, .ok ())
  | .error e => (t, if t.isDirectory path then .ok () else .error e)

/-- Makes a directory and those above it, at most `fuel` of them. -/
def makeDirectoriesFrom : Nat → String → Files → Attempt
  | 0, _, t => (t, .error .missing)
  | fuel + 1, path, t =>
    if path.isEmpty then (t, .ok ())
    else match t.ensureDirectory path, Path.parent? path with
      | (t, .error .missing), some above =>
        match makeDirectoriesFrom fuel above t with
        | (t, .ok ()) => t.ensureDirectory path
        | failed => failed
      | attempt, _ => attempt

/-- Makes a directory and those above it that are missing. -/
def makeDirectories (path : String) (t : Files) : Attempt :=
  makeDirectoriesFrom (path.length + 1) path t

/-- Removes an empty directory at a place by its path, whose last part has to be a name. -/
def removeEmpty (t : Files) (path : String) (p : Place) : Except FileError Files := do
  let _ ← t.locateAbove path
  match (Path.trimmed (Path.parts path)).getLast? with
  | none => throw .busy
  | some "." => throw .invalid
  | some ".." => throw .notEmpty
  | some _ => return t.remove p

/-- Removes a directory after everything in it. Where the path leads through what has just been removed,
the directory itself stays. -/
def removeDirectory (t : Files) (path : String) : Attempt :=
  match t.names path, t.locate path with
  | .ok _, .ok p =>
    let t := t.clear p
    match t.removeEmpty path p with
    | .ok t => (t, .ok ())
    | .error .missing => (t, .ok ())
    | .error e => (t, .error e)
  | .error e, _ => (t, .error e)
  | .ok _, .error e => (t, .error e)

end Files

end HistogramMonitor
