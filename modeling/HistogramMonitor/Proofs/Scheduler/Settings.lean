import HistogramMonitor.Monitor.Updater
import HistogramMonitor.Proofs.Effects

/-!
# What a scheduler is told to retrieve

The registry, the default runs and the default program decide what a visit asks for. They are the
*settings* of a scheduler, and only commands change them: whatever the backend and the clock do, serving a
command leaves the settings that the command makes of those before it (`apply_settings`), and steps and
timers leave them alone (`step_settings`, `fireTimer_settings`).
-/

namespace HistogramMonitor

/-- What a scheduler is told to retrieve. -/
structure Settings where
  plots : List Plot
  defaultRuns : List UInt32
  defaultProgram : String
  deriving DecidableEq

/-- The settings that a command makes of others. -/
def Settings.heed (x : Settings) : Command → Settings
  | .addPlot p => { x with plots := x.plots ++ [p] }
  | .changeSource plot source _ =>
    { x with plots := x.plots.modify plot fun p => { p with source := source } }
  | .setDefaultRuns runs => { x with defaultRuns := runs }
  | .setDefaultProgram program => { x with defaultProgram := program }
  | .start _ | .refreshAll | .setInterval _ | .setVisible _ => x

namespace Scheduler

open HistogramMonitor.Action

variable {σ : Type}

/-- What the scheduler is told to retrieve. -/
def settings (s : Scheduler) : Settings := ⟨s.plots, s.defaultRuns, s.defaultProgram⟩

/-- Whatever the action comes to has these settings. -/
def Retains (x : Settings) (action : Action σ Scheduler) : Prop := action.Gives fun s => s.settings = x

variable {x : Settings} {s : Scheduler}

theorem retains_pure (h : s.settings = x) : Retains x (pure s : Action σ Scheduler) := gives_pure h

/-! ## Cycles and the timer -/

theorem report_settings (done : Nat) (h : s.settings = x) :
    Retains x (report done s : Action σ Scheduler) := by
  unfold report
  split
  · exact retains_pure h
  · exact (gives_any _).bind fun _ _ => retains_pure h
  · exact (gives_any _).bind fun _ _ => retains_pure h

theorem rearm_settings (w : Surroundings σ) (h : s.settings = x) : Retains x (s.rearm w) := by
  refine Gives.ite ((gives_any _).bind fun t _ => ?_) (gives_pure h)
  dsimp only
  cases t.after? s.interval with
  | none => exact gives_die
  | some deadline => exact gives_pure h

theorem openCycle_settings (h : s.settings = x) : Retains x (s.openCycle : Action σ Scheduler) :=
  Gives.tell_if (report_settings 0 h)

theorem closeCycle_settings (h : s.settings = x) : Retains x (s.closeCycle : Action σ Scheduler) :=
  Gives.tell_if (Gives.tell_if (gives_pure h))

theorem followUp_settings (w : Surroundings σ) (h : s.settings = x) : Retains x (s.followUp w) := by
  refine (openCycle_settings h).bind fun s hs => Gives.ite ?_ (gives_pure hs)
  exact (closeCycle_settings hs).bind fun s hs => rearm_settings w hs

theorem finishCycle_settings (w : Surroundings σ) (h : s.settings = x) : Retains x (s.finishCycle w) := by
  refine (closeCycle_settings h).bind fun s hs => Gives.ite ?_ (rearm_settings w hs)
  exact Gives.ite (followUp_settings w hs) (rearm_settings w hs)

theorem beginCycle_settings (w : Surroundings σ) (h : s.settings = x) : Retains x (s.beginCycle w) := by
  refine Gives.ite (gives_pure h) ((openCycle_settings h).bind fun s hs => ?_)
  exact Gives.ite (finishCycle_settings w hs) (gives_pure hs)

/-- A step reads the settings and leaves them alone. -/
theorem step_settings (w : Surroundings σ) (s : Scheduler) : Retains s.settings (s.step w) := by
  unfold step
  cases s.cursor with
  | none => exact gives_pure rfl
  | some c =>
    have hend : ∀ s' : Scheduler, s'.settings = s.settings → Retains s.settings
        (if s'.cursor.any (s'.plots.length ≤ ·) then s'.finishCycle w else pure s') :=
      fun s' hs => Gives.ite (finishCycle_settings w hs) (gives_pure hs)
    refine Gives.ite ((gives_any _).bind fun success _ => ?_) (hend s rfl)
    exact (report_settings (c + 1) rfl).bind hend

theorem fireTimer_settings (w : Surroundings σ) (t : Instant) (s : Scheduler) :
    (s.fireTimer w t).Gives fun r => r.1.settings = s.settings := by
  unfold fireTimer
  cases s.timer with
  | none => exact gives_pure rfl
  | some deadline =>
    refine Gives.ite ?_ (gives_pure rfl)
    exact (beginCycle_settings w (s := { s with timer := none }) rfl).bind fun s hs => gives_pure hs

/-! ## Commands -/

/-- Pointing the plot with this number at another source changes the registry there and nowhere else. -/
theorem set_source {plots : List Plot} {plot : Nat} {p : Plot} {source : Option PlotSource}
    (hp : plots[plot]? = some p) :
    plots.set plot { p with source := source } = plots.modify plot fun p => { p with source := source } := by
  refine List.ext_getElem? fun i => ?_
  rw [List.getElem?_set', List.getElem?_modify]
  split
  · rename_i hi
    rw [← hi, hp]
    rfl
  · exact (id_map _).symm

theorem changeSource_settings (w : Surroundings σ) (plot : Nat) (source : Option PlotSource)
    (refreshNow : Bool) (s : Scheduler) :
    (s.changeSource w plot source refreshNow).Gives fun r =>
      (r.getD s).settings = s.settings.heed (.changeSource plot source refreshNow) := by
  unfold changeSource
  cases hp : s.plots[plot]? with
  | none =>
    refine gives_pure ?_
    have hlen : s.plots.length ≤ plot := List.getElem?_eq_none_iff.mp hp
    simp only [Option.getD_none, settings, Settings.heed, List.modify_eq_self hlen]
  | some p =>
    refine Gives.ite ((gives_any _).bind fun _ _ => gives_pure ?_) (gives_pure ?_)
    all_goals simp only [Option.getD_some, settings, Settings.heed, set_source hp]

theorem setVisible_settings (w : Surroundings σ) (visible : Bool) (s : Scheduler) :
    Retains s.settings (s.setVisible w visible) := by
  refine Gives.ite (gives_pure rfl) (Gives.ite (Gives.ite ?_ (gives_pure rfl)) ?_)
  · exact (gives_any _).bind fun _ _ => beginCycle_settings w rfl
  · exact (gives_any _).bind fun _ _ => gives_pure rfl

/-- **Serving a command** makes of the settings what the command says, and nothing else changes them. -/
theorem apply_settings (w : Surroundings σ) (c : Command) (s : Scheduler) :
    Retains (s.settings.heed c) (s.apply w c) := by
  cases c with
  | addPlot | setDefaultRuns | setDefaultProgram => exact gives_pure rfl
  | changeSource plot source refreshNow =>
    refine (changeSource_settings w plot source refreshNow s).bind fun r hr => ?_
    cases r with
    | none => exact (gives_any _).bind fun _ _ => gives_pure hr
    | some s' => exact gives_pure hr
  | start interval => exact beginCycle_settings w rfl
  | refreshAll => exact beginCycle_settings w rfl
  | setInterval interval => exact rearm_settings w rfl
  | setVisible visible => exact setVisible_settings w visible s

end Scheduler

end HistogramMonitor
