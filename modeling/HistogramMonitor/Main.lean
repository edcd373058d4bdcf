import HistogramMonitor.CommandLine.Program

/-!
# The executable

Carries the program out: reads the files that it looks at into a tree, prints its lines, writes back what
it changed, and during a watch lets real time pass. Everything that is decided is decided in
`CommandLine`.
-/

namespace HistogramMonitor.Main

open CommandLine

/-! ## Files -/

/-- The text of a place. -/
def placeText (p : Place) : String := "/" ++ "/".intercalate p

/-- What stands at a place on disk. -/
def observe (p : Place) : IO (Option Entry) := do
  let path := (← IO.currentDir) / placeText p
  if ← path.isDir then return some .directory
  else if ← path.pathExists then return some (.file (← IO.FS.readBinFile path).toList)
  else return none

/-- Adds what stands at a place. -/
def addPlace (t : Files) (p : Place) : IO Files := do
  match ← observe p with
  | some e => return t.put p e
  | none => return t

/-- Adds what a path names and the directories above it. -/
def addPath (t : Files) (path : String) : IO Files := do
  let mut t := t
  let mut p : Place := []
  for name in t.intended path do
    p := p ++ [name]
    t ← addPlace t p
  return t

/-- Adds what a path names and, if that is a directory, what it holds. -/
def addListing (t : Files) (path : String) : IO Files := do
  let mut t ← addPath t path
  let p := t.intended path
  if t.at? p = some .directory then
    for e in ← ((← IO.currentDir) / placeText p).readDir do
      t ← addPlace t (p ++ [e.fileName])
  return t

/-- The files that a run looks at: the configuration and the recorded replies. -/
def look (i : Invocation) : IO Files := do
  let cwd := (← IO.currentDir).toString
  let t : Files := { current := (Path.parts cwd).filter (!Path.idle ·) }
  let t ← addPath t "."
  let t ← addPath t i.path
  match Config.load t i.path with
  | .ok c => addListing t c.replies
  | .error _ => return t

/-- Writes what is new or has changed, the oldest change first. -/
def writeBack (before after : Files) : IO Unit := do
  for (p, e) in after.entries.reverse do
    if before.at? p ≠ some e then
      match e with
      | .directory => IO.FS.createDirAll (placeText p)
      | .file content => IO.FS.writeBinFile (placeText p) ⟨content.toArray⟩

/-! ## Lines -/

/-- Prints lines where they belong. -/
def emit (log : Option IO.FS.Handle) (lines : List LogLine) : IO Unit := do
  for (target, text) in lines.filterMap printed? do
    match target with
    | .output => IO.println text
    | .errors => IO.eprintln text
    | .diagnostics =>
      if let some log := log then
        log.putStrLn text
        log.flush

/-- The file for diagnostics. -/
def openLog : IO (Option IO.FS.Handle) := do
  try
    return some (← IO.FS.Handle.mk "dqm_monitor.log" .write)
  catch e =>
    emit none [⟨.terminal, .warn,
      s!"Could not create log file, library diagnostics will be lost: {e}"⟩]
    return none

/-! ## Time -/

/-- The present moment. -/
def present : IO Instant := return ⟨← IO.monoNanosNow⟩

/-- Lets time pass up to a moment. -/
partial def sleepUntil (t : Instant) : IO Unit := do
  let now ← present
  if now.nanos < t.nanos then
    IO.sleep (UInt32.ofNat (min ((t.nanos - now.nanos) / 1000000 + 1) 60000))
    sleepUntil t

/-- The site as it is now. -/
def presentSite (i : Invocation) : IO Site := return ⟨← look i, ← present⟩

/-- Goes on with a watch until its observer has seen enough. -/
partial def follow (i : Invocation) (log : Option IO.FS.Handle) (s : Session) : IO Unit := do
  let s := s.movedTo (← presentSite i)
  let finish : IO Unit := do emit log ((s.finish (0x100000000)).1 ++ [watched])
  if s.observer.isNone then finish
  else match s.turn?, s.updater.deadline? with
    | some (lines, s), _ =>
      emit log lines
      follow i log s
    | none, some t =>
      sleepUntil t
      let (lines, s) := (s.movedTo (← presentSite i)).wake
      emit log lines
      follow i log s
    | none, none => finish

end HistogramMonitor.Main

open HistogramMonitor HistogramMonitor.Main in
/-- Runs the program with its arguments. -/
def main (args : List String) : IO UInt32 := do
  match CommandLine.parse args with
  | .error .help =>
    IO.println CommandLine.helpText
    return 0
  | .error (.usage reason) =>
    IO.eprintln s!"error: {reason}\n\n{CommandLine.helpText}"
    return 2
  | .ok i =>
    let log ← openLog
    let site ← presentSite i
    let o := CommandLine.begin i site
    emit log (CommandLine.loggedIn o.events)
    writeBack site.files o.next.files
    if let some (some session) := o.value then
      follow i log session
    return 0
