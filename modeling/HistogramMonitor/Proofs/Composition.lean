import HistogramMonitor.Monitor.Updater
import HistogramMonitor.Proofs.Effects

/-!
# What actions are made of

All that a monitor does is put together from calls, readings of the clock and events of its own (`Built`).
What holds of these parts and is kept by sequences therefore holds of everything that a scheduler or a client
does, whether it comes to a value or dies, and needs no proof for each operation: an induction over `Built`
is enough.
-/

namespace HistogramMonitor

variable {σ α β : Type}

/-- What was sent to the worker by an event. -/
def Event.sending? : Event → Option Sending
  | .sent s => some s
  | _ => none

/-- What somebody did on its own: neither a call nor anything that a call brought about. -/
def Event.IsOwn : Event → Prop
  | .call _ | .sent _ => False
  | _ => True

namespace Action

/-- The action is put together from calls, readings of the clock and events of its own. -/
inductive Built (w : Surroundings σ) : {α : Type} → Action σ α → Prop
  | pure {α : Type} (a : α) : Built w (pure a : Action σ α)
  | tell {e : Event} (own : e.IsOwn) : Built w (tell [e])
  | die {α : Type} : Built w (die : Action σ α)
  | now : Built w (now w)
  | call (c : Call) : Built w (call w c)
  | bind {α β : Type} {x : Action σ α} {f : α → Action σ β} (first : Built w x)
      (second : ∀ a, Built w (f a)) : Built w (x >>= f)

variable {w : Surroundings σ}

theorem Built.ite {c : Prop} [Decidable c] {x y : Action σ α} (hx : Built w x) (hy : Built w y) :
    Built w (if c then x else y) := by
  split
  · exact hx
  · exact hy

/-- Something is told only under a condition before the action goes on. -/
theorem Built.tell_if {c : Prop} [Decidable c] {e : Event} {x : Action σ α} (own : e.IsOwn)
    (hx : Built w x) : Built w (if c then Action.tell [e] >>= fun _ => x else x) :=
  .ite (.bind (.tell own) fun _ => hx) hx

theorem built_diagnose (level : Level) (text : String) : Built w (diagnose level text) := .tell trivial

end Action

open HistogramMonitor.Action

/-! ## The client -/

namespace Client

theorem check_built (w : Surroundings σ) (reply : Bytes) (command : String) (expected : UInt32) :
    Built w (check reply command expected) := by
  unfold check
  cases Envelope.parse reply with
  | error e => exact .pure _
  | ok envelope => exact .tell_if trivial (.pure _)

theorem refetch_built (w : Surroundings σ) (c : Call) (declared : Nat) (expected : UInt32) :
    Built w (refetch w c declared expected) := by
  refine .bind (.call _) fun answer => ?_
  cases answer with
  | error e => exact .pure _
  | ok reply =>
    refine .bind (check_built w reply _ expected) fun header => ?_
    cases header with
    | error e => exact .pure _
    | ok envelope => exact .tell_if trivial (.pure _)

theorem fetch_built (w : Surroundings σ) (c : Call) (expected : UInt32) : Built w (fetch w c expected) := by
  refine .bind (.call c) fun answer => ?_
  cases answer with
  | error e => exact .pure _
  | ok reply =>
    refine .bind (check_built w reply _ expected) fun header => ?_
    cases header with
    | error e => exact .pure _
    | ok envelope =>
      exact .ite (.bind (built_diagnose _ _) fun _ => refetch_built w c _ expected) (.pure _)

theorem retrieve_built (w : Surroundings σ) (name : String) (runs : List UInt32) (program : String) :
    Built w (retrieve w name runs program) := by
  refine .bind (fetch_built w _ _) fun answer => ?_
  cases answer <;> exact .pure _

end Client

namespace Scheduler

/-! ## Visits -/

theorem drawSeries_built (w : Surroundings σ) (s : Scheduler) (plot : Nat) (items : List SeriesSource) :
    ∀ i, Built w (s.drawSeries w plot i items) := by
  induction items with
  | nil => exact fun _ => .pure _
  | cons item rest ih =>
    refine fun i => .bind (Client.retrieve_built w _ _ _) fun answer => ?_
    cases answer with
    | ok h => exact .bind (.tell trivial) fun _ => ih (i + 1)
    | error e => exact .bind (built_diagnose _ _) fun _ => .bind (.tell trivial) fun _ => .pure _

theorem visit_built (w : Surroundings σ) (s : Scheduler) (plot : Nat) : Built w (s.visit w plot) := by
  unfold visit
  cases s.plots[plot]? with
  | none => exact .pure _
  | some p =>
    dsimp only
    cases p.source with
    | none => exact .pure _
    | some source =>
      exact .tell_if trivial (.bind (drawSeries_built w s plot _ 0) fun _ => .tell_if trivial (.pure _))

/-! ## Cycles and the timer -/

theorem report_built (w : Surroundings σ) (done : Nat) (s : Scheduler) : Built w (report done s) := by
  unfold report
  split
  · exact .pure _
  · exact .bind (.tell trivial) fun _ => .pure _
  · exact .bind (built_diagnose _ _) fun _ => .pure _

theorem rearm_built (w : Surroundings σ) (s : Scheduler) : Built w (s.rearm w) := by
  refine .ite (.bind .now fun t => ?_) (.pure _)
  dsimp only
  cases t.after? s.interval with
  | none => exact .die
  | some deadline => exact .pure _

theorem openCycle_built (w : Surroundings σ) (s : Scheduler) : Built w s.openCycle :=
  .tell_if trivial (report_built w 0 _)

theorem closeCycle_built (w : Surroundings σ) (s : Scheduler) : Built w s.closeCycle :=
  .tell_if trivial (.tell_if trivial (.pure _))

theorem followUp_built (w : Surroundings σ) (s : Scheduler) : Built w (s.followUp w) :=
  .bind (openCycle_built w s) fun s =>
    .ite (.bind (closeCycle_built w s) fun s => rearm_built w s) (.pure _)

theorem finishCycle_built (w : Surroundings σ) (s : Scheduler) : Built w (s.finishCycle w) :=
  .bind (closeCycle_built w s) fun s =>
    .ite (.ite (followUp_built w _) (rearm_built w _)) (rearm_built w s)

theorem beginCycle_built (w : Surroundings σ) (s : Scheduler) : Built w (s.beginCycle w) :=
  .ite (.pure _) (.bind (openCycle_built w s) fun s => .ite (finishCycle_built w s) (.pure _))

theorem step_built (w : Surroundings σ) (s : Scheduler) : Built w (s.step w) := by
  unfold step
  cases s.cursor with
  | none => exact .pure _
  | some c =>
    have hend : ∀ s' : Scheduler, Built w
        (if s'.cursor.any (s'.plots.length ≤ ·) then s'.finishCycle w else pure s') :=
      fun s' => .ite (finishCycle_built w s') (.pure s')
    exact .ite (.bind (visit_built w s c) fun _ => .bind (report_built w (c + 1) _) hend) (hend s)

theorem fireTimer_built (w : Surroundings σ) (t : Instant) (s : Scheduler) : Built w (s.fireTimer w t) := by
  unfold fireTimer
  cases s.timer with
  | none => exact .pure _
  | some deadline => exact .ite (.bind (beginCycle_built w _) fun _ => .pure _) (.pure _)

/-! ## Commands -/

theorem changeSource_built (w : Surroundings σ) (plot : Nat) (source : Option PlotSource)
    (refreshNow : Bool) (s : Scheduler) : Built w (s.changeSource w plot source refreshNow) := by
  unfold changeSource
  cases s.plots[plot]? with
  | none => exact .pure _
  | some p => exact .ite (.bind (visit_built w _ plot) fun _ => .pure _) (.pure _)

theorem setVisible_built (w : Surroundings σ) (visible : Bool) (s : Scheduler) :
    Built w (s.setVisible w visible) := by
  refine .ite (.pure _) (.ite (.ite ?_ (.pure _)) ?_)
  · exact .bind (built_diagnose _ _) fun _ => beginCycle_built w _
  · exact .bind (built_diagnose _ _) fun _ => .pure _

theorem apply_built (w : Surroundings σ) (c : Command) (s : Scheduler) : Built w (s.apply w c) := by
  cases c with
  | addPlot | setDefaultRuns | setDefaultProgram => exact .pure _
  | changeSource plot source refreshNow =>
    refine .bind (changeSource_built w plot source refreshNow s) fun r => ?_
    cases r with
    | none => exact .bind (built_diagnose _ _) fun _ => .pure _
    | some s' => exact .pure _
  | start interval => exact beginCycle_built w _
  | refreshAll => exact beginCycle_built w s
  | setInterval interval => exact rearm_built w _
  | setVisible visible => exact setVisible_built w visible s

end Scheduler

end HistogramMonitor
