import HistogramMonitor.Transport.Client

/-!
# The scheduler

The scheduler keeps a registry of plots refreshed from a backend, one call at a time. A refresh cycle
visits the plots in the order of their registration, one visit per step, so that other requests can be
served between two visits. When a cycle ends, a single timer is armed for the next one, unless updates are
paused or the interval is zero.

* A request to refresh everything that arrives during a cycle is remembered, and one follow-up cycle begins
  in the step that ends the running one.
* A visit retrieves the series of a plot in order and draws each at once; if one fails, the plot is wiped
  and its remaining series are left alone.
* The timer is a deadline and nothing more: whoever drives the scheduler tells it that time has passed.

Every operation takes a state to an action that comes to the next state. An action comes to nothing in
two cases: the client dies during a call, or a deadline lies beyond what a clock can hold.
-/

namespace HistogramMonitor

/-- Where statuses go. -/
inductive StatusLink
  /-- nowhere -/
  | absent
  /-- to a receiver -/
  | attached
  /-- to a receiver that has gone away unnoticed so far -/
  | abandoned
  deriving DecidableEq, Repr

/-- The state of a monitor. -/
structure Scheduler where
  /-- the registry; plots are never removed, so their positions are their ids -/
  plots : List Plot := []
  interval : Duration := 0
  /-- the deadline after which the next cycle is due -/
  timer : Option Instant := none
  /-- the next plot to visit, while a cycle is running -/
  cursor : Option Nat := none
  /-- whether a follow-up cycle was requested during the running one -/
  rerunRequested : Bool := false
  visible : Bool := true
  defaultRuns : List UInt32 := [0]
  defaultProgram : String := standardProgram
  /-- whether somebody is told when a cycle over at least one plot begins -/
  announcesStart : Bool := false
  /-- whether somebody is told when a cycle over at least one plot has ended -/
  announcesComplete : Bool := false
  statusLink : StatusLink := .absent
  /-- the cycles begun so far -/
  cycleCount : Nat := 0
  /-- the visits of the running cycle that failed -/
  cycleFailures : Nat := 0
  deriving DecidableEq, Repr

/-- What a scheduler is doing. -/
inductive Phase
  | idle
  /-- waiting for its timer -/
  | scheduled
  /-- in a cycle, before the plot at the cursor -/
  | cycling (cursor : Nat)
  deriving DecidableEq, Repr

namespace Scheduler

variable {σ : Type}

/-- What the scheduler is doing. -/
def phase (s : Scheduler) : Phase :=
  match s.cursor, s.timer with
  | some c, _ => .cycling c
  | none, some _ => .scheduled
  | none, none => .idle

/-- Whether a cycle is running. -/
def cycling (s : Scheduler) : Bool := s.cursor.isSome

/-- The source of a plot. -/
def source? (s : Scheduler) (plot : Nat) : Option PlotSource := s.plots[plot]?.bind (·.source)

/-! ## Statuses and the timer -/

/-- Reports that `done` plots have been visited. A receiver that has gone away is noticed now. -/
def report (done : Nat) (s : Scheduler) : Action σ Scheduler :=
  match s.statusLink with
  | .absent => return s
  | .attached => do
    Action.tell [.status ⟨s.cycleCount, done, s.plots.length, s.cycleFailures⟩]
    return s
  | .abandoned => do
    Action.diagnose .debug "Cycle status receiver is gone, no longer reporting progress"
    return { s with statusLink := .absent }

/-- Sets the timer to one interval from now. -/
def arm (w : Surroundings σ) (s : Scheduler) : Action σ Scheduler := do
  let t ← Action.now w
  match t.after? s.interval with
  | none => Action.die
  | some deadline => return { s with timer := some deadline }

/-- Replaces a pending timer, if updates are to go on. -/
def rearm (w : Surroundings σ) (s : Scheduler) : Action σ Scheduler :=
  let s := { s with timer := none }
  if s.interval ≠ 0 ∧ s.visible then s.arm w else return s

/-! ## Cycles -/

/-- Opens a cycle. -/
def openCycle (s : Scheduler) : Action σ Scheduler := do
  let s := { s with cycleCount := s.cycleCount + 1, cycleFailures := 0, cursor := some 0 }
  if s.announcesStart ∧ s.plots ≠ [] then Action.tell [.cycleStart]
  s.report 0

/-- Closes the running cycle. -/
def closeCycle (s : Scheduler) : Action σ Scheduler := do
  if s.announcesComplete ∧ s.plots ≠ [] then Action.tell [.cycleComplete]
  if 0 < s.cycleFailures then
    Action.diagnose .warn <|
      s!"Update cycle {s.cycleCount} finished with {s.cycleFailures} of {s.plots.length} plots " ++
      "failing"
  return { s with cursor := none }

/-- The follow-up of a cycle that has just been closed. Over no plots it ends at once, and nothing can
have been requested in between. -/
def followUp (w : Surroundings σ) (s : Scheduler) : Action σ Scheduler := do
  let s ← s.openCycle
  if s.plots = [] then
    let s ← s.closeCycle
    s.rearm w
  else return s

/-- Ends the running cycle: a requested follow-up begins if somebody can see it, else the timer is
armed for the next cycle. -/
def finishCycle (w : Surroundings σ) (s : Scheduler) : Action σ Scheduler := do
  let s ← s.closeCycle
  if s.rerunRequested then
    let s := { s with rerunRequested := false }
    if s.visible then s.followUp w else s.rearm w
  else s.rearm w

/-- Begins a cycle, or remembers the request while one is running. -/
def beginCycle (w : Surroundings σ) (s : Scheduler) : Action σ Scheduler :=
  if s.cycling then return { s with rerunRequested := true }
  else do
    let s ← s.openCycle
    if s.plots = [] then s.finishCycle w else return s

/-! ## Visits -/

/-- Retrieves and draws the series of a plot from number `i` on, up to the first that fails; the answer
is whether none did. -/
def drawSeries (w : Surroundings σ) (s : Scheduler) (plot : Nat) :
    Nat → List SeriesSource → Action σ Bool
  | _, [] => return true
  | i, item :: rest => do
    let runs := item.runs.getD s.defaultRuns
    let program := item.program.getD s.defaultProgram
    match ← Client.retrieve w item.name runs program with
    | .ok h =>
      Action.tell [.display plot i h]
      drawSeries w s plot (i + 1) rest
    | .error e =>
      Action.diagnose .error s!"Could not update {plotName plot} from {item.name}: {e.message}"
      Action.tell [.clear plot]
      return false

/-- Refreshes one plot; the answer is whether every retrieval succeeded. A plot without a source has
nothing to refresh. -/
def visit (w : Surroundings σ) (s : Scheduler) (plot : Nat) : Action σ Bool :=
  match s.plots[plot]? with
  | none => return true
  | some p =>
    match p.source with
    | none => return true
    | some source => do
      if p.announcesStart then Action.tell [.updateStart plot]
      let success ← s.drawSeries w plot 0 source.series
      if p.announcesComplete then Action.tell [.updateComplete plot]
      return success

/-- Visits the plot at the cursor and moves on; after the last one the cycle ends. Without a running
cycle nothing happens. -/
def step (w : Surroundings σ) (s : Scheduler) : Action σ Scheduler :=
  match s.cursor with
  | none => return s
  | some c => do
    let s ←
      if c < s.plots.length then
        let success ← s.visit w c
        let failures := if success then s.cycleFailures else s.cycleFailures + 1
        report (c + 1) { s with cycleFailures := failures, cursor := some (c + 1) }
      else pure s
    if s.cursor.any (s.plots.length ≤ ·) then s.finishCycle w else return s

/-! ## Requests -/

/-- Registers a plot, which gets the next id. It is first refreshed by the next cycle. -/
def addPlot (p : Plot) (s : Scheduler) : Scheduler := { s with plots := s.plots ++ [p] }

/-- The error of naming a plot that is not registered. -/
def unknownPlot (plot : Nat) : String := s!"No plot is registered with id {plot}"

/-- Points a plot at another source, and refreshes it right away if asked to. The answer is none if no
such plot is registered. -/
def changeSource (w : Surroundings σ) (plot : Nat) (source : Option PlotSource) (refreshNow : Bool)
    (s : Scheduler) : Action σ (Option Scheduler) :=
  match s.plots[plot]? with
  | none => return none
  | some p => do
    let s := { s with plots := s.plots.set plot { p with source := source } }
    if refreshNow then
      let _ ← s.visit w plot
    return some s

/-- Sets the runs for series that name none; zero is the current run. -/
def setDefaultRuns (runs : List UInt32) (s : Scheduler) : Scheduler := { s with defaultRuns := runs }

/-- Sets the program for series that name none. -/
def setDefaultProgram (program : String) (s : Scheduler) : Scheduler :=
  { s with defaultProgram := program }

/-- Sets the interval and refreshes everything now. -/
def start (w : Surroundings σ) (interval : Duration) (s : Scheduler) : Action σ Scheduler :=
  beginCycle w { s with interval := interval, timer := none }

/-- Refreshes everything now. A pending timer is left alone until the cycle ends. -/
def refreshAll (w : Surroundings σ) (s : Scheduler) : Action σ Scheduler := s.beginCycle w

/-- Sets the interval; zero stops timed updates. -/
def setInterval (w : Surroundings σ) (interval : Duration) (s : Scheduler) : Action σ Scheduler :=
  rearm w { s with interval := interval }

/-- Pauses updates while nobody is looking, and resumes them with a fresh cycle. -/
def setVisible (w : Surroundings σ) (visible : Bool) (s : Scheduler) : Action σ Scheduler :=
  if visible = s.visible then return s
  else if visible then
    let s := { s with visible := true }
    if s.interval ≠ 0 then do
      Action.diagnose .debug "Plots visible again, resuming updates"
      s.beginCycle w
    else return s
  else do
    Action.diagnose .debug "Plots hidden, pausing updates"
    return { s with visible := false, timer := none }

/-- Begins a cycle if the timer is due at `t`; the answer also says whether it was. -/
def fireTimer (w : Surroundings σ) (t : Instant) (s : Scheduler) : Action σ (Scheduler × Bool) :=
  match s.timer with
  | none => return (s, false)
  | some deadline =>
    if deadline.nanos ≤ t.nanos then do
      let s ← beginCycle w { s with timer := none }
      return (s, true)
    else return (s, false)

/-! ## Running to the end -/

/-- The visits that are left until no cycle is running, if nothing else is requested. -/
def visitsLeft (s : Scheduler) : Nat :=
  match s.cursor with
  | none => 0
  | some c => (s.plots.length - c) + if s.rerunRequested then s.plots.length else 0

/-- Steps until no cycle is running, at most `fuel` times; the answer also counts the steps. -/
def stepWhileCycling (w : Surroundings σ) : Nat → Nat → Scheduler → Action σ (Scheduler × Nat)
  | 0, n, s => return (s, n)
  | fuel + 1, n, s => do
    let s ← s.step w
    if s.cycling then stepWhileCycling w fuel (n + 1) s else return (s, n + 1)

/-- Steps until a step leaves no cycle running. -/
def drain (w : Surroundings σ) (s : Scheduler) : Action σ (Scheduler × Nat) :=
  stepWhileCycling w (s.visitsLeft + 1) 0 s

/-- Refreshes everything and waits for the end. -/
def runCycle (w : Surroundings σ) (s : Scheduler) : Action σ Scheduler := do
  let s ← s.beginCycle w
  let (s, _) ← s.drain w
  return s

end Scheduler

end HistogramMonitor
