import HistogramMonitor.Proofs.Scheduler.Parts

/-!
# Runs of a scheduler

A scheduler is driven from outside, by one operation after the other. A *turn* is one operation with the
state before it, the events that it let happen and the state after it; a *run* is a row of turns, each
going on from the state that the one before has left.

Between two turns the surroundings may do what they like: every turn starts from a memory of its own.
A turn that dies is no turn, since there is no state after it.

Running a whole cycle is no operation of its own but a refresh followed by steps, and so a run
(`Run.of_runCycle`); the states that a monitor can be in are closed under it (`Reachable`).
-/

namespace HistogramMonitor.Scheduler

open HistogramMonitor.Action

variable {σ : Type}

/-! ## Operations -/

/-- What can be done with a scheduler. -/
inductive Operation
  | addPlot (plot : Plot)
  | changeSource (plot : Nat) (source : Option PlotSource) (refreshNow : Bool)
  | setDefaultRuns (runs : List UInt32)
  | setDefaultProgram (program : String)
  | start (interval : Duration)
  | refreshAll
  | setInterval (interval : Duration)
  | setVisible (visible : Bool)
  | fireTimer (time : Instant)
  | step
  /-- nobody asks for this: the receiver of the statuses goes away -/
  | loseReceiver
  deriving DecidableEq

namespace Operation

/-- Does it. Changing the source of a plot that is not registered leaves everything as it was. -/
def perform (w : Surroundings σ) : Operation → Scheduler → Action σ Scheduler
  | addPlot p, s => return s.addPlot p
  | changeSource plot source refreshNow, s => do
    return (← s.changeSource w plot source refreshNow).getD s
  | setDefaultRuns runs, s => return s.setDefaultRuns runs
  | setDefaultProgram program, s => return s.setDefaultProgram program
  | start interval, s => s.start w interval
  | refreshAll, s => s.refreshAll w
  | setInterval interval, s => s.setInterval w interval
  | setVisible visible, s => s.setVisible w visible
  | fireTimer time, s => do
    let (s, _) ← s.fireTimer w time
    return s
  | step, s => s.step w
  | loseReceiver, s =>
    return { s with statusLink := if s.statusLink = .attached then .abandoned else s.statusLink }

/-- Whether it asks for a cycle: a start, a refresh, a showing of what was hidden while updates are to go
on, and a timer that is due. -/
def requests : Operation → Scheduler → Bool
  | start _, _ | refreshAll, _ => true
  | setVisible visible, s => visible && !s.visible && s.interval != 0
  | fireTimer time, s => s.timer.any (·.nanos ≤ time.nanos)
  | _, _ => false

/-- What a request does to the state before it asks for its cycle. -/
def prepare : Operation → Scheduler → Scheduler
  | start interval, s => { s with interval := interval, timer := none }
  | setVisible _, s => { s with visible := true }
  | fireTimer _, s => { s with timer := none }
  | _, s => s

/-- Whether the monitor is visible after it: only who shows or hides it changes that. -/
def shows : Operation → Scheduler → Bool
  | setVisible visible, _ => visible
  | _, s => s.visible

end Operation

/-! ## Turns and runs -/

/-- An operation that has been performed. -/
structure Turn where
  operation : Operation
  /-- the state before it -/
  before : Scheduler
  events : List Event
  /-- the state after it -/
  after : Scheduler

namespace Turn

/-- In these surroundings, and from some memory of theirs, the turn can happen. -/
def Occurs (w : Surroundings σ) (t : Turn) : Prop :=
  ∃ m m', t.operation.perform w t.before m = ⟨t.events, m', some t.after⟩

/-- Whether the turn asks for a cycle. -/
def requests (t : Turn) : Bool := t.operation.requests t.before

end Turn

/-- The turns lead from one state to another. -/
inductive Run (w : Surroundings σ) : Scheduler → List Turn → Scheduler → Prop
  | nil (s : Scheduler) : Run w s [] s
  | cons {t : Turn} {turns : List Turn} {s : Scheduler} :
      t.Occurs w → Run w t.after turns s → Run w t.before (t :: turns) s

namespace Run

variable {w : Surroundings σ} {s s₁ s' : Scheduler} {turns more : List Turn}

theorem append (h : Run w s turns s₁) (h' : Run w s₁ more s') : Run w s (turns ++ more) s' := by
  induction h with
  | nil _ => exact h'
  | cons ht _ ih => exact .cons ht (ih h')

/-- A run can be cut at any of its turns. -/
theorem split {t : Turn} (h : Run w s (turns ++ t :: more) s') :
    Run w s turns t.before ∧ t.Occurs w ∧ Run w t.after more s' := by
  induction turns generalizing s with
  | nil =>
    cases h with
    | cons ht hmore => exact ⟨.nil _, ht, hmore⟩
  | cons u turns ih =>
    cases h with
    | cons hu hrest =>
      obtain ⟨hturns, ht, hmore⟩ := ih hrest
      exact ⟨.cons hu hturns, ht, hmore⟩

theorem single {op : Operation} {m m' : σ} {es : List Event}
    (h : op.perform w s m = ⟨es, m', some s'⟩) : Run w s [⟨op, s, es, s'⟩] s' :=
  .cons (t := ⟨op, s, es, s'⟩) ⟨m, m', h⟩ (.nil s')

/-- Steps until no cycle is running are a run of steps. -/
theorem of_stepWhileCycling {fuel : Nat} : ∀ {n k : Nat} {s : Scheduler} {m m' : σ} {es : List Event},
    stepWhileCycling w fuel n s m = ⟨es, m', some (s', k)⟩ →
      ∃ turns, Run w s turns s' ∧ (∀ t ∈ turns, t.operation = .step) ∧
        turns.flatMap (·.events) = es := by
  induction fuel with
  | zero =>
    intro n k s m m' es h
    obtain ⟨rfl, -, hs⟩ := pure_eq_some h
    obtain ⟨rfl, -⟩ := Prod.mk.inj hs
    exact ⟨[], .nil _, by simp, rfl⟩
  | succ fuel ih =>
    intro n k s m m' es h
    obtain ⟨es₁, m₁, s₁, es₂, h₁, h₂, rfl⟩ := bind_eq_some h
    have hstep : Run w s [⟨.step, s, es₁, s₁⟩] s₁ := single h₁
    by_cases hc : s₁.cycling
    · rw [if_pos hc] at h₂
      obtain ⟨turns, hrun, hall, hes⟩ := ih h₂
      exact ⟨_, hstep.append hrun, by simpa using hall, by simp [hes]⟩
    · rw [if_neg hc] at h₂
      obtain ⟨rfl, -, hs⟩ := pure_eq_some h₂
      obtain ⟨rfl, -⟩ := Prod.mk.inj hs
      exact ⟨_, hstep, by simp, by simp⟩

/-- **A whole cycle** is a refresh followed by steps, with the same events. -/
theorem of_runCycle {m m' : σ} {es : List Event} (h : s.runCycle w m = ⟨es, m', some s'⟩) :
    ∃ t turns, Run w s (t :: turns) s' ∧ t.operation = .refreshAll ∧
      (∀ u ∈ turns, u.operation = .step) ∧ (t :: turns).flatMap (·.events) = es := by
  obtain ⟨es₁, m₁, s₁, es₂, h₁, h₂, rfl⟩ := bind_eq_some h
  obtain ⟨es₃, m₃, ⟨s₃, k⟩, es₄, h₃, h₄, rfl⟩ := bind_eq_some h₂
  obtain ⟨rfl, -, rfl⟩ := pure_eq_some h₄
  obtain ⟨turns, hrun, hall, hes⟩ := of_stepWhileCycling h₃
  have hbegin : Run w s [⟨.refreshAll, s, es₁, s₁⟩] s₁ := single h₁
  exact ⟨_, turns, hbegin.append hrun, rfl, hall, by simp [hes]⟩

end Run

/-! ## Reachable states -/

/-- A scheduler that nothing has been done with yet, for whoever wants to be told about it. -/
def fresh (announcesStart announcesComplete : Bool) (link : StatusLink) : Scheduler :=
  { announcesStart := announcesStart, announcesComplete := announcesComplete, statusLink := link }

/-- The states that a scheduler can be in. -/
inductive Reachable (w : Surroundings σ) : Scheduler → Prop
  | fresh (announcesStart announcesComplete : Bool) (link : StatusLink) :
      Reachable w (fresh announcesStart announcesComplete link)
  | perform {s s' : Scheduler} (op : Operation) {m m' : σ} {es : List Event} :
      Reachable w s → op.perform w s m = ⟨es, m', some s'⟩ → Reachable w s'
  | runCycle {s s' : Scheduler} {m m' : σ} {es : List Event} :
      Reachable w s → s.runCycle w m = ⟨es, m', some s'⟩ → Reachable w s'

variable {w : Surroundings σ}

/-- Every reachable state is where a run from a fresh scheduler ends. -/
theorem Reachable.exists_run {s : Scheduler} (h : Reachable w s) :
    ∃ announcesStart announcesComplete link turns,
      Run w (Scheduler.fresh announcesStart announcesComplete link) turns s := by
  induction h with
  | fresh a b link => exact ⟨a, b, link, [], .nil _⟩
  | perform _ _ h ih =>
    obtain ⟨a, b, link, turns, hrun⟩ := ih
    exact ⟨a, b, link, _, hrun.append (.single h)⟩
  | runCycle _ h ih =>
    obtain ⟨a, b, link, turns, hrun⟩ := ih
    obtain ⟨t, more, hmore, -⟩ := Run.of_runCycle h
    exact ⟨a, b, link, _, hrun.append hmore⟩

/-- Runs do not leave the reachable states. -/
theorem Reachable.run {s s' : Scheduler} {turns : List Turn} (hs : Reachable w s)
    (h : Run w s turns s') : Reachable w s' := by
  induction h with
  | nil _ => exact hs
  | cons ht _ ih =>
    obtain ⟨m, m', ht⟩ := ht
    exact ih (hs.perform _ ht)

/-- A clock that stands still beside a backend that knows nothing. -/
def stillness : Surroundings Unit where
  answer _ _ := { reply := .bytes [], next := () }
  now _ := (⟨0⟩, ())

/-- A plot with nothing to draw. -/
def barePlot : Plot := ⟨none, false, false⟩

/-- The only plot is about to be visited. -/
def onlyPlot : Scheduler := { plots := [barePlot], cursor := some 0, cycleCount := 1 }

theorem reachable_onlyPlot : Reachable stillness onlyPlot :=
  ((Reachable.fresh false false .absent).perform (.addPlot barePlot) (m := ()) rfl).perform
    .refreshAll (m := ()) rfl

/-- Two plots are registered, a cycle stands before the second one, and a follow-up waits. -/
def resumed : Scheduler :=
  { plots := [barePlot, barePlot], cursor := some 1, rerunRequested := true, cycleCount := 1 }

theorem reachable_resumed : Reachable stillness resumed :=
  ((reachable_onlyPlot.perform (.addPlot barePlot) (m := ()) rfl).perform .step (m := ()) rfl).perform
    .refreshAll (m := ()) rfl

end HistogramMonitor.Scheduler
