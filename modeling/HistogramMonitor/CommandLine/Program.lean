import HistogramMonitor.CommandLine.Arguments
import HistogramMonitor.CommandLine.Watch
import HistogramMonitor.Config.Store
import HistogramMonitor.Histogram.Summary
import HistogramMonitor.Replay.Demo
import HistogramMonitor.Transport.Client

/-!
# The program

What the command line monitor does with its arguments and the files around it. Everything it says is a row
of lines: those for the user go to the terminal, errors to its second stream, and those for diagnosis into
a file of their own.

A task other than watching is over when its action is. Watching hands back a session, for whoever drives
the program to go on with.
-/

namespace HistogramMonitor.CommandLine

/-! ## Saying things -/

/-- Tells the user something. -/
def say (level : Level) (text : String) : Action Site Unit := Action.tell [.log ⟨.terminal, level, text⟩]

/-- Tells the user how a task has ended. -/
def sayEnd : Except String Unit → Action Site Unit
  | .ok () => say .info "Done."
  | .error message => say .error message

/-! ## Tasks -/

/-- Writes a configuration to start from. -/
def makeTemplate (path : String) : Action Site Unit := do
  say .info s!"Making a template config at {path}..."
  let saved ← fun site : Site =>
    match Config.template.save site.files path with
    | .ok t => ⟨[], { site with files := t }, some (Except.ok ())⟩
    | .error e => ⟨[], site, some (Except.error e.message)⟩
  sayEnd saved

/-- Records the demonstration replies, in a directory that is made if need be. -/
def recordDemo (c : Config) : Action Site Unit := fun site =>
  match site.files.makeDirectories c.replies with
  | (t, .error e) => say .error s!"Could not create the replay path: {e.message}" { site with files := t }
  | (t, .ok ()) =>
    match Demo.record ⟨c.replies⟩ t with
    | (t, .ok names) =>
      say .info
        s!"Recorded {names.length} demo histograms: {listText (names.map Text.quoted)}"
        { site with files := t }
    | (t, .error e) =>
      say .error s!"Could not record demo histograms: {e.message}" { site with files := t }

/-- Lists the names of all histograms. -/
def listNames (c : Config) (w : Surroundings Site) : Action Site (Except String Unit) := do
  match ← Client.list w c.runs c.program with
  | .error e => return .error e.message
  | .ok names =>
    say .info s!"{c.program} has {names.length} histograms:"
    Action.tell (names.map fun name => .log ⟨.terminal, .info, s!"  {name}"⟩)
    return .ok ()

/-- Summarizes one histogram. -/
def showHistogram (c : Config) (w : Surroundings Site) (name : String) :
    Action Site (Except String Unit) := do
  match ← Client.retrieve w name c.runs c.program with
  | .error e => return .error e.message
  | .ok h =>
    say .info s!"{name}: {h.summary}"
    return .ok ()

/-- Clears histograms. -/
def clearHistograms (c : Config) (w : Surroundings Site) (selector : String) :
    Action Site (Except String Unit) := do
  match ← Client.clear w selector c.program with
  | .error e => return .error e.message
  | .ok () =>
    say .info s!"Cleared '{selector}' in {c.program}"
    return .ok ()

/-- Begins a watch. -/
def startWatch (c : Config) (cycles : Nat) : Action Site Session := do
  if !c.hasPlots then say .warn "No plots are configured, there is nothing to watch."
  Action.look (Session.start c cycles)

/-! ## Running -/

/-- Loads a configuration and says what is in it. -/
def loadConfig (path : String) : Action Site (Option Config) := do
  say .info s!"Loading config from {path}..."
  match ← Action.look fun site => Config.load site.files path with
  | .error e =>
    say .error e.message
    return none
  | .ok c =>
    say .info "Config successfully loaded."
    say .info s!"Program: {c.program}"
    say .info s!"Runs: {listText (c.runs.map fun n => toString n)}"
    say .info s!"Replay Path: {c.replies}"
    say .info s!"Update Interval: {c.interval} ms"
    return some c

/-- Carries out a task that needs recorded replies; watching only begins. -/
def perform (c : Config) (task : Option Task) : Action Site (Option Session) := do
  match ← Action.look fun site => c.repliesDirectory site.files with
  | .error e =>
    say .error e.message
    return none
  | .ok directory =>
    let w := ReplyStore.surroundings ⟨directory⟩
    match task with
    | some .list => sayEnd (← listNames c w); return none
    | some (.show name) => sayEnd (← showHistogram c w name); return none
    | some (.clear selector) => sayEnd (← clearHistograms c w selector); return none
    | some (.watch cycles) => return some (← startWatch c cycles)
    | _ => sayEnd (.error "No command given, see --help"); return none

/-- Does what was asked for, up to the beginning of a watch. -/
def begin (i : Invocation) : Action Site (Option Session) := do
  Action.diagnose .info "Starting DQM monitor"
  match i.task with
  | some .new =>
    makeTemplate i.path
    return none
  | task =>
    match ← loadConfig i.path with
    | none => return none
    | some c =>
      match task with
      | some .fixture =>
        recordDemo c
        return none
      | task => perform c task

/-- The last line of a watch. -/
def watched : LogLine := ⟨.terminal, .info, "Done."⟩

/-- The lines among events. -/
def loggedIn (es : List Event) : List LogLine := es.filterMap fun | .log l => some l | _ => none

/-- A whole run by a clock that jumps to every deadline, of at most `turns` turns of the worker: the lines
and the site it leaves. -/
def run (turns : Nat) (i : Invocation) (site : Site) : List LogLine × Site :=
  let o := begin i site
  let lines := loggedIn o.events
  match o.value with
  | some (some session) =>
    let (more, session) := session.run turns
    (lines ++ more ++ [watched], session.site)
  | _ => (lines, o.next)

/-! ## Streams -/

/-- The name of a level on the terminal. -/
def levelTag (l : Level) : String := s!"[{l.name.toUpper}]"

/-- The streams that lines go to. -/
inductive Target
  | output
  | errors
  | diagnostics
  deriving DecidableEq, Repr

/-- Where a line goes and what stands there. Diagnostics leave out what is only of use to developers. -/
def printed? (l : LogLine) : Option (Target × String) :=
  match l.channel, l.level with
  | .terminal, .error => some (.errors, s!"{levelTag l.level} {l.text}")
  | .terminal, .debug => none
  | .terminal, _ => some (.output, s!"{levelTag l.level} {l.text}")
  | .diagnostics, .debug => none
  | .diagnostics, _ => some (.diagnostics, s!"[{l.level.name}] - {l.text}")

end HistogramMonitor.CommandLine
