import HistogramMonitor.Config.Values
import HistogramMonitor.Monitor.Screen
import HistogramMonitor.Monitor.Updater
import HistogramMonitor.Replay.Store

/-!
# Watching

Watching keeps the configured plots updated until enough cycles have finished. An updater does the work on
a thread of its own; the observer reads the statuses that come from it, says how each cycle ended, and
decides when it has seen enough. The observer depends on the statuses alone, so what it says does not
depend on how far the worker has come in the meantime.
-/

namespace HistogramMonitor.CommandLine

/-! ## The observer -/

/-- Somebody who follows the statuses. -/
structure Observer where
  /-- whether one cycle follows another -/
  repeats : Bool
  /-- the cycles to wait for; zero is no limit -/
  limit : Nat
  /-- the cycles that have finished -/
  finished : Nat := 0
  deriving DecidableEq, Repr

/-- What is said about a cycle that has finished. -/
def outcome (s : CycleStatus) : LogLine :=
  if 0 < s.failures then
    ⟨.terminal, .warn,
      s!"Cycle {s.cycle} done, {s.failures} plots failed. Check the log file for details."⟩
  else ⟨.terminal, .info, s!"Cycle {s.cycle} done."⟩

namespace Observer

/-- Whether enough cycles have finished. -/
def satisfied (o : Observer) : Bool := !o.repeats || (o.limit != 0 && o.limit ≤ o.finished)

/-- Takes note of a status: what is said about it, and the observer who goes on, if one does. -/
def observe (o : Observer) (s : CycleStatus) : List LogLine × Option Observer :=
  if s.finished then
    let o := { o with finished := o.finished + 1 }
    ([outcome s], if o.satisfied then none else some o)
  else ([], some o)

end Observer

/-! ## What the user sees -/

/-- The lines that an event leads to, with an observer or after the observer has gone. -/
def linesOf (screen : Screen) (o : Option Observer) (e : Event) : List LogLine × Option Observer :=
  match e with
  | .log l => ([l], o)
  | .status s =>
    match o with
    | some o => o.observe s
    | none => ([], none)
  | e => ((screen.line? e).toList, o)

/-- The lines that a row of events leads to. -/
def linesOfAll (screen : Screen) : Option Observer → List Event → List LogLine × Option Observer
  | o, [] => ([], o)
  | o, e :: es =>
    let (first, o) := linesOf screen o e
    let (rest, o) := linesOfAll screen o es
    (first ++ rest, o)

/-! ## Sessions -/

/-- A watch in progress. -/
structure Session where
  store : ReplyStore
  screen : Screen
  /-- the observer, until it has seen enough -/
  observer : Option Observer
  updater : Updater Site

namespace Session

/-- The scheduler of a configuration. -/
def scheduler (c : Config) : Scheduler :=
  let s : Scheduler := { statusLink := .attached }
  let s := (s.setDefaultRuns c.runs).setDefaultProgram c.program
  c.plots.foldl (fun s p => s.addPlot ⟨p.source, false, false⟩) s

/-- The beginning of a watch. -/
def start (c : Config) (limit : Nat) (site : Site) : Session :=
  { store := ⟨c.replies⟩
    screen := ⟨c.plots.map (·.title)⟩
    observer := some { repeats := c.pause != 0, limit := limit }
    updater := ((Updater.spawn (scheduler c) site).send (.start c.pause)).1 }

/-- The surroundings of the worker. Nobody but the one who watches sends it anything. -/
def surroundings (s : Session) : Surroundings (Desk Site) :=
  s.store.surroundings.withMail fun _ _ => []

/-- What some events and the updater after them make of a session. -/
def after (s : Session) (moved : List Event × Updater Site) : List LogLine × Session :=
  let (lines, observer) := linesOfAll s.screen s.observer moved.1
  (lines, { s with observer := observer, updater := moved.2 })

/-- The session at another site, as time passes and files change. -/
def movedTo (s : Session) (site : Site) : Session :=
  { s with updater := { s.updater with desk := { s.updater.desk with outside := site } } }

/-- The site of a session. -/
def site (s : Session) : Site := s.updater.desk.outside

/-- The next turn of the worker, if it need not wait. -/
def turn? (s : Session) : Option (List LogLine × Session) :=
  (s.updater.turn s.surroundings).map s.after

/-- The worker wakes up because time has passed. -/
def wake (s : Session) : List LogLine × Session := s.after (s.updater.timeout s.surroundings)

/-- The end of a watch: the worker is told to stop and finishes what it is doing. -/
def finish (s : Session) (turns : Nat) : List LogLine × Session :=
  let (events, u) := s.updater.drop.run s.surroundings turns
  s.after (events ++ u.joined, u)

/-- A whole watch by a clock that jumps to every deadline, of at most `turns` turns and timeouts. -/
def run : Nat → Session → List LogLine × Session
  | 0, s => ([], s)
  | turns + 1, s =>
    match s.observer with
    | none => s.finish (turns + 1)
    | some _ =>
      let moved := match s.turn?, s.updater.deadline? with
        | some moved, _ => some moved
        | none, some t => some ((s.movedTo { s.site with time := ⟨max s.site.time.nanos t.nanos⟩ }).wake)
        | none, none => none
      match moved with
      | none => s.finish (turns + 1)
      | some (lines, s) =>
        let (more, s) := run turns s
        (lines ++ more, s)

end Session

end HistogramMonitor.CommandLine
