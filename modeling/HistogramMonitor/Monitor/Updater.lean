import HistogramMonitor.Monitor.Scheduler

/-!
# The updater

An updater runs a scheduler on a thread of its own. The handle passes commands on through a mailbox, which
keeps their order and loses none; the worker takes them out one by one and visits a plot only when the
mailbox is empty. Commands can also reach the mailbox while a call is in flight, so the mailbox is part
of the memory of the worker's surroundings.

The worker's life is a row of turns. `Updater.turn` is the next one, and which of several things happens
next, another turn, a send or a timeout, is up to the surroundings: every interleaving of handle, worker
and clock is a row of these moves.
-/

namespace HistogramMonitor

/-! ## The mailbox -/

/-- What stands in a mailbox. -/
inductive Message
  | request (c : Command)
  /-- the handle was dropped -/
  | shutdown
  deriving DecidableEq, Repr

/-- The way from a handle to its worker. -/
structure Mailbox where
  /-- what has been sent and not yet been taken, oldest first -/
  queue : List Message := []
  /-- the plots that the handle knows to be registered, or about to be -/
  plotCount : Nat
  /-- whether the worker still holds its end -/
  receiving : Bool := true
  deriving Repr

namespace Mailbox

/-- Sends a command. The id of a new plot is the number of plots sent before it, since the registry
only grows and keeps the order. -/
def send (c : Command) (m : Mailbox) : Mailbox × SendResult :=
  if m.receiving then
    let m' := { m with queue := m.queue ++ [.request c] }
    match c with
    | .addPlot _ => ({ m' with plotCount := m.plotCount + 1 }, .added m.plotCount)
    | _ => (m', .accepted)
  else (m, .refused)

/-- Puts a message into the mailbox; a command is also noted as sent. -/
def post (msg : Message) (m : Mailbox) : Mailbox × List Sending :=
  match msg with
  | .request c =>
    let (m, result) := m.send c
    (m, [⟨c, result⟩])
  | .shutdown => (if m.receiving then { m with queue := m.queue ++ [.shutdown] } else m, [])

/-- Puts messages into the mailbox, one after the other. -/
def postAll : List Message → Mailbox → Mailbox × List Sending
  | [], m => (m, [])
  | msg :: rest, m =>
    let (m, sent) := m.post msg
    let (m, more) := postAll rest m
    (m, sent ++ more)

end Mailbox

/-- The memory of a worker's surroundings: its mailbox, and what the backend and the clock remember. -/
structure Desk (β : Type) where
  mailbox : Mailbox
  outside : β

namespace Desk

variable {β : Type}

/-- The desk with another queue in its mailbox. -/
def withQueue (queue : List Message) (d : Desk β) : Desk β :=
  { d with mailbox := { d.mailbox with queue := queue } }

/-- A desk whose worker is gone: its end of the mailbox is closed. -/
def abandon (d : Desk β) : Desk β :=
  { d with mailbox := { d.mailbox with receiving := false } }

end Desk

/-- The surroundings of a worker. While a call is in flight, the messages that `meanwhile` names arrive
in the mailbox. -/
def Surroundings.withMail {β : Type} (w : Surroundings β) (meanwhile : β → Call → List Message) :
    Surroundings (Desk β) where
  answer d c :=
    let a := w.answer d.outside c
    let (mailbox, sent) := d.mailbox.postAll (meanwhile d.outside c)
    { reply := a.reply, lines := a.lines, sendings := sent, next := ⟨mailbox, a.next⟩ }
  now d :=
    let (t, outside) := w.now d.outside
    (t, ⟨d.mailbox, outside⟩)

/-! ## The worker -/

namespace Scheduler

variable {σ : Type}

/-- Serves one command. -/
def apply (w : Surroundings σ) (c : Command) (s : Scheduler) : Action σ Scheduler :=
  match c with
  | .addPlot p => return s.addPlot p
  | .changeSource plot source refreshNow => do
    match ← s.changeSource w plot source refreshNow with
    | some s => return s
    | none =>
      Action.diagnose .error s!"Could not change plot source: {unknownPlot plot}"
      return s
  | .setDefaultRuns runs => return s.setDefaultRuns runs
  | .setDefaultProgram program => return s.setDefaultProgram program
  | .start interval => s.start w interval
  | .refreshAll => s.refreshAll w
  | .setInterval interval => s.setInterval w interval
  | .setVisible visible => s.setVisible w visible

end Scheduler

/-- How a worker is doing. -/
inductive Worker
  | running (s : Scheduler)
  /-- it was told to stop, and did -/
  | stopped
  /-- its thread has died -/
  | dead
  deriving DecidableEq, Repr

/-- A worker and its desk. -/
structure Updater (β : Type) where
  worker : Worker
  desk : Desk β

namespace Updater

variable {β : Type}

/-- Moves a scheduler onto a thread of its own. -/
def spawn (s : Scheduler) (outside : β) : Updater β :=
  ⟨.running s, ⟨⟨[], s.plots.length, true⟩, outside⟩⟩

/-- Whether the worker still runs. -/
def alive (u : Updater β) : Bool :=
  match u.worker with
  | .running _ => true
  | _ => false

/-- Sends a command through the handle. -/
def send (c : Command) (u : Updater β) : Updater β × SendResult :=
  let (mailbox, result) := u.desk.mailbox.send c
  ({ u with desk := { u.desk with mailbox := mailbox } }, result)

/-- Drops the handle: the worker is told to stop. -/
def drop (u : Updater β) : Updater β :=
  { u with desk := { u.desk with mailbox := (u.desk.mailbox.post .shutdown).1 } }

/-- What the end of an action leaves: the worker goes on with the value, or has died. -/
def after (o : Outcome (Desk β) Scheduler) : List Event × Updater β :=
  match o.value with
  | some s => (o.events, ⟨.running s, o.next⟩)
  | none => (o.events, ⟨.dead, o.next.abandon⟩)

/-- The next turn of the worker: it takes the oldest message out of the mailbox, and when there is none,
it visits the next plot of a running cycle. Without either it waits. -/
def turn (w : Surroundings (Desk β)) (u : Updater β) : Option (List Event × Updater β) :=
  match u.worker with
  | .running s =>
    match u.desk.mailbox.queue with
    | .shutdown :: _ => some ([], ⟨.stopped, u.desk.abandon⟩)
    | .request c :: rest => some (after (s.apply w c (u.desk.withQueue rest)))
    | [] => if s.cycling then some (after (s.step w u.desk)) else none
  | _ => none

/-- Whether the worker waits, for a command or for its timer. -/
def waiting (w : Surroundings (Desk β)) (u : Updater β) : Bool := (u.turn w).isNone && u.alive

/-- The deadline that a waiting worker waits for. -/
def deadline? (u : Updater β) : Option Instant :=
  match u.worker with
  | .running s => s.timer
  | _ => none

/-- A waiting worker wakes up because time has passed, and looks at the clock. -/
def timeout (w : Surroundings (Desk β)) (u : Updater β) : List Event × Updater β :=
  match u.worker with
  | .running s =>
    let action : Action (Desk β) Scheduler := do
      let t ← Action.now w
      let (s, _) ← s.fireTimer w t
      return s
    after (action u.desk)
  | _ => ([], u)

/-- At most `fuel` turns, as long as there is one to take. -/
def run (w : Surroundings (Desk β)) : Nat → Updater β → List Event × Updater β
  | 0, u => ([], u)
  | fuel + 1, u =>
    match u.turn w with
    | none => ([], u)
    | some (events, u) =>
      let (more, u) := run w fuel u
      (events ++ more, u)

/-- What the dropped handle logs after the worker has ended: a line if it had died. -/
def joined (u : Updater β) : List Event :=
  match u.worker with
  | .dead => [.diagnostic .error "An error occured joining the updater worker!"]
  | _ => []

end Updater

end HistogramMonitor
