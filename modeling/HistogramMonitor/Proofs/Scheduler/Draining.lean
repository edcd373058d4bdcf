import HistogramMonitor.Proofs.Scheduler.Endings
import HistogramMonitor.Proofs.Scheduler.Shadows

/-!
# Draining a cycle

Whoever drains a scheduler takes one step after the other, up to the first that leaves no cycle running
(`Drains`). No bound is set to that from outside. It ends because the visits that are still to come are known
beforehand, and so a list of plots (`upcoming`): those from the cursor on and then, if a follow-up is queued and
somebody can see it, all of them. A step makes the first of these visits and leaves the others
(`step_upcoming`), and the whole loop is an induction on them (`exists_drains`, `Drains.stepWhileCycling`).

The two ends of a cycle call each other: a cycle over no plots is finished as soon as it has begun, and when a
cycle is finished, its follow-up begins. They are written down here in terms of each other, with a bound on how
many follow-ups may begin inside each other. One is always enough (`finishNested_succ`), and beginning a cycle
needs none (`beginBy_finishNested`).

Headline: `drained`.
-/

namespace HistogramMonitor.Scheduler

open HistogramMonitor.Action

variable {σ τ : Type} {w : Surroundings σ} {s s' : Scheduler} {m m' : σ} {es : List Event}
  {turns turns' : List Turn} {o o' : Outcome σ Scheduler}

/-! ## The visits to come -/

/-- The plots that are going to be visited if nothing is done but steps. -/
def upcoming (s : Scheduler) : List Nat :=
  match s.cursor with
  | none => []
  | some c => List.range' c (s.plots.length - c) ++
      if s.rerunRequested ∧ s.visible then List.range s.plots.length else []

/-- The plots that are going to be visited if a cycle is asked for now, and nothing else is done but steps. -/
def upcomingIfAsked (s : Scheduler) : List Nat :=
  if s.cycling then upcoming { s with rerunRequested := true } else List.range s.plots.length

theorem upcoming_of_idle (hc : s.cursor = none) : s.upcoming = [] := by
  simp [upcoming, hc]

theorem upcoming_of_cycling {c : Nat} (hc : s.cursor = some c) :
    s.upcoming = List.range' c (s.plots.length - c) ++
      if s.rerunRequested ∧ s.visible then List.range s.plots.length else [] := by
  simp [upcoming, hc]

/-- A cycle that has just begun is going to visit all plots. -/
theorem upcoming_of_begun (hc : s.cursor = some 0) (hr : s.rerunRequested = false) :
    s.upcoming = List.range s.plots.length := by
  simp [upcoming_of_cycling hc, hr, List.range_eq_range']

theorem length_upcoming {c : Nat} (hc : s.cursor = some c) :
    s.upcoming.length = (s.plots.length - c) + if s.rerunRequested ∧ s.visible then s.plots.length else 0 := by
  simp [upcoming_of_cycling hc, apply_ite List.length]

theorem length_upcoming_le (s : Scheduler) : s.upcoming.length ≤ s.visitsLeft := by
  cases hc : s.cursor with
  | none => simp [upcoming_of_idle hc]
  | some c =>
    rw [length_upcoming hc, visitsLeft_of_cycling hc]
    apply Nat.add_le_add_left
    cases s.rerunRequested <;> cases s.visible <;> simp

/-- The plot at the cursor comes first. -/
theorem upcoming_eq_cons {c : Nat} (hc : s.cursor = some c) (hlt : c < s.plots.length) :
    s.upcoming = c :: (List.range' (c + 1) (s.plots.length - (c + 1)) ++
      if s.rerunRequested ∧ s.visible then List.range s.plots.length else []) := by
  have hfirst : s.plots.length - c = s.plots.length - (c + 1) + 1 := by omega
  rw [upcoming_of_cycling hc, hfirst, List.range'_succ, List.cons_append]

theorem upcoming_ne_nil (hs : Sound s) (hcycling : s.cycling) : s.upcoming ≠ [] := by
  obtain ⟨c, hc⟩ := Option.isSome_iff_exists.mp hcycling
  rw [upcoming_eq_cons hc (hs.registered c hc)]
  exact List.cons_ne_nil _ _

/-- **A step makes the first of the visits to come** and leaves the others. -/
theorem step_upcoming (hs : Sound s) (h : s.step w m = ⟨es, m', some s'⟩) :
    s.upcoming = s.cursor.toList ++ s'.upcoming := by
  cases hc : s.cursor with
  | none =>
    obtain ⟨-, -, rfl⟩ := step_eq_some_of_idle hc h
    rfl
  | some c =>
    have hlt := hs.registered c hc
    rw [upcoming_eq_cons hc hlt, Option.toList_some, List.singleton_append]
    refine congrArg (c :: ·) ?_
    obtain ⟨es₁, m₁, success, es₂, -, -, -, ⟨-, rfl, -⟩ | ⟨hlast, es₃, hfinish, -⟩⟩ := step_eq_some hc hlt h
    · exact (upcoming_of_cycling (s := s.visited c success) rfl).symm
    · rw [hlast, Nat.sub_self, List.range'_zero, List.nil_append]
      rcases finishCycle_eq_some (s := s.visited c success) (hs.plots_ne_nil hc) hfinish with
        ⟨hr, hv, rfl, -⟩ | ⟨hnot, -, timer, rfl, -⟩
      · rw [if_pos (show s.rerunRequested ∧ s.visible from ⟨hr, hv⟩)]
        exact (upcoming_of_begun (s := (s.visited c success).rested.opened) rfl rfl).symm
      · rw [if_neg (show ¬ (s.rerunRequested ∧ s.visible) from hnot)]
        rfl

/-- Where a cycle is still running after the step, there was a visit to make before. -/
theorem step_upcoming_of_cycling (hs : Sound s) (h : s.step w m = ⟨es, m', some s'⟩) (hcycling : s'.cycling) :
    ∃ c, s.upcoming = c :: s'.upcoming := by
  cases hc : s.cursor with
  | none =>
    obtain ⟨-, -, rfl⟩ := step_eq_some_of_idle hc h
    exact absurd hc (Option.isSome_iff_ne_none.mp hcycling)
  | some c =>
    have hvisits := step_upcoming hs h
    rw [hc] at hvisits
    exact ⟨c, hvisits⟩

/-- What a request makes of the visits to come. -/
theorem upcoming_of_beginCycle (hs : Sound s) (h : s.beginCycle w m = ⟨es, m', some s'⟩) :
    s'.upcoming = s.upcomingIfAsked := by
  rcases beginCycle_eq_some hs.queued h with ⟨hsome, -, rfl⟩ | ⟨hnone, -, rfl, -⟩ | ⟨hnone, hp, -, timer, rfl, -⟩
  · simp [upcomingIfAsked, cycling, hsome]
  · simpa [upcomingIfAsked, cycling, hnone] using upcoming_of_begun (s := s.opened) rfl (hs.queued hnone)
  · simp [upcomingIfAsked, cycling, hnone, hp, upcoming]

/-! ## The loop -/

/-- From this state and this memory, one step is taken after the other. They are these turns, and this is what it
comes to. -/
inductive Drains (w : Surroundings σ) : Scheduler → σ → List Turn → Outcome σ Scheduler → Prop
  /-- the step leaves no cycle running -/
  | ends {s s' : Scheduler} {m m' : σ} {es : List Event} (step : s.step w m = ⟨es, m', some s'⟩)
      (idle : ¬ s'.cycling) : Drains w s m [⟨.step, s, es, s'⟩] ⟨es, m', some s'⟩
  /-- the step leaves one running, and there are more -/
  | more {s s' : Scheduler} {m m' : σ} {es : List Event} {turns : List Turn} {o : Outcome σ Scheduler}
      (step : s.step w m = ⟨es, m', some s'⟩) (cycling : s'.cycling) (rest : Drains w s' m' turns o) :
      Drains w s m (⟨.step, s, es, s'⟩ :: turns) ⟨es ++ o.events, o.next, o.value⟩
  /-- the thread dies in the step -/
  | died {s : Scheduler} {m m' : σ} {es : List Event} (step : s.step w m = ⟨es, m', none⟩) :
      Drains w s m [] ⟨es, m', none⟩

/-- Backend and clock decide how a scheduler drains. -/
theorem Drains.unique (h : Drains w s m turns o) (h' : Drains w s m turns' o') : turns' = turns ∧ o' = o := by
  induction h generalizing turns' o' with
  | ends step idle =>
    cases h' with
    | ends step' =>
      cases step.symm.trans step'
      exact ⟨rfl, rfl⟩
    | more step' cycling' =>
      cases step.symm.trans step'
      exact absurd cycling' idle
    | died step' => cases step.symm.trans step'
  | more step cycling _ ih =>
    cases h' with
    | ends step' idle' =>
      cases step.symm.trans step'
      exact absurd cycling idle'
    | more step' _ rest' =>
      cases step.symm.trans step'
      obtain ⟨rfl, rfl⟩ := ih rest'
      exact ⟨rfl, rfl⟩
    | died step' => cases step.symm.trans step'
  | died step =>
    cases h' with
    | ends step' | more step' => cases step.symm.trans step'
    | died step' =>
      cases step.symm.trans step'
      exact ⟨rfl, rfl⟩

/-- **Draining comes to an end**, since there are only so many visits to come. -/
theorem exists_drains (w : Surroundings σ) {s : Scheduler} (hs : Sound s) (m : σ) :
    ∃ turns o, Drains w s m turns o := by
  rcases hstep : s.step w m with ⟨es, m', _ | s'⟩
  · exact ⟨_, _, .died hstep⟩
  · by_cases hcycling : s'.cycling
    · obtain ⟨c, hvisits⟩ := step_upcoming_of_cycling hs hstep hcycling
      obtain ⟨turns, o, hrest⟩ := exists_drains w (hs.step hstep) m'
      exact ⟨_, _, .more hstep hcycling hrest⟩
    · exact ⟨_, _, .ends hstep hcycling⟩
termination_by s.upcoming.length
decreasing_by
  rw [hvisits]
  exact Nat.lt_succ_self _

/-- The loop with a bound comes to the same, if the bound is not below the number of visits to come. -/
theorem Drains.stepWhileCycling (hs : Sound s) (h : Drains w s m turns o) : ∀ fuel k, 0 < fuel →
    s.upcoming.length ≤ fuel →
    stepWhileCycling w fuel k s m = ⟨o.events, o.next, o.value.map (·, k + turns.length)⟩ := by
  induction h with
  | @ends s s' m m' es step idle =>
    intro fuel k hfuel _
    obtain ⟨fuel, rfl⟩ := Nat.exists_eq_succ_of_ne_zero (Nat.ne_of_gt hfuel)
    rw [Scheduler.stepWhileCycling, bind_apply_of_eq step, if_neg idle, pure_apply, List.append_nil]
    rfl
  | @more s s' m m' es turns o step cycling _ ih =>
    intro fuel k hfuel hle
    obtain ⟨fuel, rfl⟩ := Nat.exists_eq_succ_of_ne_zero (Nat.ne_of_gt hfuel)
    have hs' := hs.step step
    have hpos := List.length_pos_iff.mpr (upcoming_ne_nil hs' cycling)
    have hless : s'.upcoming.length ≤ fuel := by
      obtain ⟨c, hvisits⟩ := step_upcoming_of_cycling hs step cycling
      rw [hvisits] at hle
      exact Nat.le_of_succ_le_succ hle
    rw [Scheduler.stepWhileCycling, bind_apply_of_eq step, if_pos cycling, ih hs' fuel (k + 1) (Nat.lt_of_lt_of_le hpos hless) hless,
      List.length_cons, Nat.add_assoc, Nat.add_comm 1]
  | @died s m m' es step =>
    intro fuel k hfuel _
    obtain ⟨fuel, rfl⟩ := Nat.exists_eq_succ_of_ne_zero (Nat.ne_of_gt hfuel)
    rw [Scheduler.stepWhileCycling, bind_apply, step]
    rfl

theorem Drains.drain (hs : Sound s) (h : Drains w s m turns o) :
    s.drain w m = ⟨o.events, o.next, o.value.map (·, turns.length)⟩ := by
  have hloop := h.stepWhileCycling hs (s.visitsLeft + 1) 0 (Nat.succ_pos _)
    (Nat.le_succ_of_le s.length_upcoming_le)
  rwa [Nat.zero_add] at hloop

/-! ## What the loop has done -/

/-- These steps have made these visits. It may be that the thread has died over one of them; else all have been
made, no cycle is running, and none is queued. -/
structure Exhausts (w : Surroundings σ) (interval : Duration) (visits : List Nat) (turns : List Turn)
    (o : Outcome σ Scheduler) : Prop where
  visited : turns.filterMap Turn.visit? <+: visits
  ended : ∀ s', o.value = some s' →
    turns.filterMap Turn.visit? = visits ∧ s'.cursor = none ∧ s'.rerunRequested = false
  /-- only a client that dies in a call and a deadline beyond what the clock can hold keep the end away -/
  ends : w.Answers → w.Holds interval → ∃ s', o.value = some s'

theorem filterMap_visit?_cons (s : Scheduler) (es : List Event) (s' : Scheduler) (turns : List Turn) :
    (⟨.step, s, es, s'⟩ :: turns).filterMap Turn.visit? = s.cursor.toList ++ turns.filterMap Turn.visit? := by
  cases hc : s.cursor <;> simp [Turn.visit?, hc]

/-- Beside a backend that answers, a step comes to an end, and the interval stays. -/
theorem step_answered (hw : w.Answers) (hclock : w.Holds s.interval) (hs : Sound s) (m : σ) :
    ∃ es m' s', s.step w m = ⟨es, m', some s'⟩ ∧ s'.interval = s.interval := by
  cases hc : s.cursor with
  | none =>
    have hstep : s.step w m = ⟨[], m, some s⟩ := by simp [step, hc]
    exact ⟨[], m, s, hstep, rfl⟩
  | some c =>
    obtain ⟨es, m', s', hstep, hinterval, -⟩ := step_ends hw hclock hs hc m
    exact ⟨es, m', s', hstep, hinterval⟩

theorem Drains.exhausts (hs : Sound s) (h : Drains w s m turns o) :
    Exhausts w s.interval s.upcoming turns o := by
  induction h with
  | @ends s s' m m' es step idle =>
    have hnone := not_cycling_iff.mp idle
    have hvisits : [(⟨.step, s, es, s'⟩ : Turn)].filterMap Turn.visit? = s.upcoming := by
      rw [filterMap_visit?_cons, step_upcoming hs step, upcoming_of_idle hnone]
      rfl
    refine ⟨hvisits ▸ List.prefix_rfl, fun x hx => ?_, fun _ _ => ⟨s', rfl⟩⟩
    cases hx
    exact ⟨hvisits, hnone, (hs.step step).queued hnone⟩
  | @more s s' m m' es turns o step cycling _ ih =>
    obtain ⟨hvisited, hended, hends⟩ := ih (hs.step step)
    rw [step_upcoming hs step]
    refine ⟨?_, fun x hx => ?_, fun hw hclock => ?_⟩
    · rw [filterMap_visit?_cons]
      exact (List.prefix_append_right_inj _).mpr hvisited
    · obtain ⟨hvisits, hidle⟩ := hended x hx
      rw [filterMap_visit?_cons, hvisits]
      exact ⟨rfl, hidle⟩
    · obtain ⟨es', m₁, s₁, hstep, hinterval⟩ := step_answered hw hclock hs m
      cases step.symm.trans hstep
      exact hends hw (hinterval.symm ▸ hclock)
  | @died s m m' es step =>
    refine ⟨List.nil_prefix, nofun, fun hw hclock => ?_⟩
    obtain ⟨es', m₁, s₁, hstep, -⟩ := step_answered hw hclock hs m
    cases step.symm.trans hstep

/-! ## A whole cycle -/

theorem length_upcomingIfAsked_of_idle (hc : s.cursor = none) : s.upcomingIfAsked.length = s.plots.length := by
  simp [upcomingIfAsked, cycling, hc]

theorem length_upcomingIfAsked_of_cycling {c : Nat} (hc : s.cursor = some c) :
    s.upcomingIfAsked.length = (s.plots.length - c) + if s.visible then s.plots.length else 0 := by
  have hlength := length_upcoming (s := { s with rerunRequested := true }) hc
  simpa [upcomingIfAsked, cycling, hc] using hlength

theorem interval_of_beginCycle (hs : Orderly s) (h : s.beginCycle w m = ⟨es, m', some s'⟩) :
    s'.interval = s.interval := by
  rcases beginCycle_eq_some hs.queued h with ⟨-, -, rfl⟩ | ⟨-, -, rfl, -⟩ | ⟨-, -, -, timer, rfl, -⟩ <;> rfl

/-- Running a whole cycle is asking for one and draining. -/
theorem runCycle_eq {steps : Nat} (h : s.beginCycle w m = ⟨es, m', some s'⟩)
    (hdrain : s'.drain w m' = ⟨o.events, o.next, o.value.map (·, steps)⟩) :
    s.runCycle w m = ⟨es ++ o.events, o.next, o.value⟩ := by
  rw [runCycle, bind_apply_of_eq h, bind_apply, hdrain]
  cases o.value with
  | none => rfl
  | some last => simp only [Option.map_some, pure_apply, List.append_nil]

/-! ## The two ends of a cycle in terms of each other -/

/-- How a cycle begins, if this is how one is finished. -/
def beginBy (finish : Scheduler → Action σ (Option Scheduler)) (s : Scheduler) : Action σ (Option Scheduler) :=
  if s.cycling then return some { s with rerunRequested := true }
  else do
    let s ← s.openCycle
    if s.plots = [] then finish s else return some s

/-- How a cycle is finished, if this is how one begins. -/
def finishBy (w : Surroundings σ) (begin : Scheduler → Action σ (Option Scheduler)) (s : Scheduler) :
    Action σ (Option Scheduler) := do
  let s ← s.closeCycle
  if s.rerunRequested then
    let s := { s with rerunRequested := false }
    if s.visible then begin s else return some (← s.rearm w)
  else return some (← s.rearm w)

/-- How a cycle is finished where at most so many follow-ups may begin inside each other. Nothing comes of it if
that is not enough. -/
def finishNested (w : Surroundings σ) : Nat → Scheduler → Action σ (Option Scheduler)
  | 0 => finishBy w fun _ => return none
  | depth + 1 => finishBy w (beginBy (finishNested w depth))

/-- Where no follow-up is queued, it does not matter how one would begin. -/
theorem finishBy_of_unqueued (w : Surroundings σ) (begin : Scheduler → Action σ (Option Scheduler))
    (hr : s.rerunRequested = false) :
    finishBy w begin s = s.closeCycle >>= fun s => s.rearm w >>= fun s => pure (some s) := by
  apply Gives.bind_congr
  intro m closed hclosed
  cases (s.closeCycle_value m).symm.trans hclosed
  simp only [hr, Bool.false_eq_true, if_false]

theorem finishNested_eq_of_unqueued (w : Surroundings σ) (depth depth' : Nat) (hr : s.rerunRequested = false) :
    finishNested w depth s = finishNested w depth' s := by
  have hall : ∀ depth, finishNested w depth s =
      s.closeCycle >>= fun s => s.rearm w >>= fun s => pure (some s) := by
    intro depth
    cases depth with
    | zero => exact finishBy_of_unqueued w _ hr
    | succ depth => exact finishBy_of_unqueued w _ hr
  exact (hall depth).trans (hall depth').symm

/-- A follow-up begins, and over no plots it has ended as well. -/
theorem beginBy_rested (w : Surroundings σ) (depth : Nat) (s : Scheduler) :
    beginBy (finishNested w depth) s.rested = s.rested.followUp w >>= fun s => pure (some s) := by
  have hidle : ¬ s.rested.cycling := not_cycling_iff.mpr rfl
  rw [beginBy, if_neg hidle, followUp, bind_assoc]
  apply Gives.bind_congr
  intro m opened hopened
  cases (s.rested.openCycle_value m).symm.trans hopened
  by_cases hp : s.rested.opened.plots = []
  · rw [if_pos hp, if_pos hp, bind_assoc, finishNested_eq_of_unqueued w depth 0 rfl]
    exact finishBy_of_unqueued w _ rfl
  · rw [if_neg hp, if_neg hp, pure_bind]

/-- **One follow-up is enough**, in whatever state a cycle is finished. -/
theorem finishNested_succ (w : Surroundings σ) (depth : Nat) (s : Scheduler) :
    finishNested w (depth + 1) s = s.finishCycle w >>= fun s => pure (some s) := by
  rw [finishNested, finishBy, finishCycle, bind_assoc]
  apply Gives.bind_congr
  intro m closed hclosed
  cases (s.closeCycle_value m).symm.trans hclosed
  dsimp only
  by_cases hr : s.rerunRequested
  · rw [if_pos hr, if_pos hr]
    by_cases hv : s.visible
    · rw [if_pos hv, if_pos hv]
      exact beginBy_rested w depth s
    · rw [if_neg hv, if_neg hv]
  · rw [if_neg hr, if_neg hr]

/-- Beginning a cycle needs no follow-up at all, since none can be queued where no cycle is running. -/
theorem beginBy_finishNested (w : Surroundings σ) (depth : Nat) (hs : Orderly s) :
    beginBy (finishNested w depth) s = s.beginCycle w >>= fun s => pure (some s) := by
  rw [beginBy, beginCycle]
  by_cases hc : s.cycling
  · rw [if_pos hc, if_pos hc, pure_bind]
  · rw [if_neg hc, if_neg hc, bind_assoc]
    apply Gives.bind_congr
    intro m opened hopened
    cases (s.openCycle_value m).symm.trans hopened
    have hr : s.opened.rerunRequested = false := hs.queued (not_cycling_iff.mp hc)
    by_cases hp : s.opened.plots = []
    · rw [if_pos hp, if_pos hp, finishNested_eq_of_unqueued w depth 1 hr, finishNested_succ]
    · rw [if_neg hp, if_neg hp, pure_bind]

/-! ## Draining from every reachable state -/

/-- **A cycle is drained in finitely many visits**, from every state that a monitor can be in and beside any
backend and any clock.

* Taking steps until one leaves no cycle running comes to an end, and so does the loop of the scheduler, in the same
  way. Nothing is visited if no cycle was running. Else the visits are those of the plots from the cursor on, which
  are `n - c` of `n`, and then of all `n` if a follow-up is queued and the monitor is visible. Afterwards no cycle is
  running and none is queued. Only a thread that dies over a visit or at the end of a cycle stops short of that, and
  not beside a backend that answers and a clock that can hold the next deadline.
* Running a whole cycle does the same after it has asked for one: the visits are those of all plots, or, if a cycle
  was running, those of the plots from the cursor on and then of all plots if the monitor is visible. It can also die
  in asking, and then the clock has run out.
* The two ends of a cycle call each other. However many follow-ups may begin inside each other, a cycle finishes in
  the same way as long as it is at least one, and a cycle that is asked for begins in the same way even without. -/
theorem drained {v : Surroundings τ} (hs : Reachable v s) (w : Surroundings σ) (m : σ) :
    (∃ turns o, Drains w s m turns o ∧ (∀ turns' o', Drains w s m turns' o' → turns' = turns ∧ o' = o) ∧
      s.drain w m = ⟨o.events, o.next, o.value.map (·, turns.length)⟩ ∧
      Exhausts w s.interval s.upcoming turns o) ∧
    ((s.cursor = none → s.upcoming = []) ∧
      ∀ c, s.cursor = some c → s.upcoming.length =
        (s.plots.length - c) + if s.rerunRequested ∧ s.visible then s.plots.length else 0) ∧
    (∀ es m₁ s₁, s.beginCycle w m = ⟨es, m₁, some s₁⟩ →
      ∃ turns o, Drains w s₁ m₁ turns o ∧ s.runCycle w m = ⟨es ++ o.events, o.next, o.value⟩ ∧
        Exhausts w s.interval s.upcomingIfAsked turns o) ∧
    (∀ es m₁, s.beginCycle w m = ⟨es, m₁, none⟩ →
      s.runCycle w m = ⟨es, m₁, none⟩ ∧ w.RunsOut s.interval m m₁) ∧
    ((s.cursor = none → s.upcomingIfAsked.length = s.plots.length) ∧
      ∀ c, s.cursor = some c → s.upcomingIfAsked.length =
        (s.plots.length - c) + if s.visible then s.plots.length else 0) ∧
    ∀ depth, (∀ x : Scheduler, finishNested w (depth + 1) x = x.finishCycle w >>= fun x => pure (some x)) ∧
      ∀ op : Operation, beginBy (finishNested w depth) (op.prepare s) =
        (op.prepare s).beginCycle w >>= fun x => pure (some x) := by
  have hsound := hs.sound
  refine ⟨?_, ⟨upcoming_of_idle, fun c => length_upcoming⟩, fun es m₁ s₁ hbegin => ?_, fun es m₁ hbegin => ?_,
    ⟨length_upcomingIfAsked_of_idle, fun c => length_upcomingIfAsked_of_cycling⟩, fun depth =>
    ⟨finishNested_succ w depth, fun op => beginBy_finishNested w depth (op.prepare_orderly hsound.toOrderly)⟩⟩
  · obtain ⟨turns, o, hdrains⟩ := exists_drains w hsound m
    exact ⟨turns, o, hdrains, fun _ _ h => hdrains.unique h, hdrains.drain hsound, hdrains.exhausts hsound⟩
  · have hsound₁ := Sound.beginCycle hsound.toOrderly hsound.registered hbegin
    obtain ⟨turns, o, hdrains⟩ := exists_drains w hsound₁ m₁
    have hexhausts := hdrains.exhausts hsound₁
    rw [upcoming_of_beginCycle hsound hbegin, interval_of_beginCycle hsound.toOrderly hbegin] at hexhausts
    exact ⟨turns, o, hdrains, runCycle_eq hbegin (hdrains.drain hsound₁), hexhausts⟩
  · refine ⟨?_, runsOut_of_beginCycle hbegin⟩
    rw [runCycle, bind_apply, hbegin]

/-- The second plot is visited, and then both are visited again. -/
theorem resumed_drained : Reachable stillness resumed ∧ ∃ turns o, Drains stillness resumed () turns o ∧
    turns.filterMap Turn.visit? = [1, 0, 1] ∧
    o.value = some { plots := [barePlot, barePlot], cycleCount := 2 } := by
  obtain ⟨⟨turns, o, hdrains, -, hdrain, hexhausts⟩, -⟩ := drained reachable_resumed stillness ()
  have hvalue : (resumed.drain stillness ()).value.map Prod.fst =
      some { plots := [barePlot, barePlot], cycleCount := 2 } := by decide
  rw [hdrain] at hvalue
  have hlast : o.value = some { plots := [barePlot, barePlot], cycleCount := 2 } := by
    simpa [Option.map_map, Function.comp_def] using hvalue
  exact ⟨reachable_resumed, turns, o, hdrains, (hexhausts.ended _ hlast).1, hlast⟩

end HistogramMonitor.Scheduler
