import HistogramMonitor.Proofs.Scheduler.Invariant

/-!
# What a turn can be

For the cycles there are six kinds of turns (`Turn.Kind`): a turn leaves the cycle alone, begins one,
begins and ends one at once since there is nothing to visit, visits a plot in the middle of the registry,
visits the last one and ends the cycle, or does that and begins the follow-up in the same breath.

Every turn from a sound state is of one of these kinds (`Turn.Occurs.kind`). What is said about cycles
over a whole run goes through them one by one.
-/

namespace HistogramMonitor.Scheduler

open HistogramMonitor.Action

variable {σ : Type} {w : Surroundings σ} {t : Turn}

/-! ## Kinds -/

/-- What a turn has come to, as far as cycles are concerned. -/
inductive Turn.Kind (t : Turn) : Prop
  /-- the cycle, if one is running, goes on, and a request waits for its end -/
  | aside (cursor : t.after.cursor = t.before.cursor)
      (count : t.after.cycleCount = t.before.cycleCount)
      (queue : t.after.rerunRequested = (t.before.rerunRequested || t.requests))
      (noted : t.requests → t.before.cursor ≠ none)
      (idle : t.operation = .step → t.before.cursor = none)
      (told : boundaries t.events = [])
  /-- a request that finds no cycle running begins one -/
  | begins (idle : t.before.cursor = none) (asked : t.requests)
      (somePlot : t.before.plots ≠ []) (plots : t.after.plots = t.before.plots)
      (cursor : t.after.cursor = some 0) (count : t.after.cycleCount = t.before.cycleCount + 1)
      (queue : t.after.rerunRequested = false) (told : boundaries t.events = t.before.startNotice)
  /-- a cycle over no plots begins and ends -/
  | passes (idle : t.before.cursor = none) (asked : t.requests) (noPlot : t.after.plots = [])
      (cursor : t.after.cursor = none) (count : t.after.cycleCount = t.before.cycleCount + 1)
      (told : boundaries t.events = [])
  /-- a step visits a plot that is not the last one -/
  | visits (c : Nat) (step : t.operation = .step) (running : t.before.cursor = some c)
      (more : c + 1 < t.before.plots.length) (plots : t.after.plots = t.before.plots)
      (cursor : t.after.cursor = some (c + 1)) (count : t.after.cycleCount = t.before.cycleCount)
      (queue : t.after.rerunRequested = t.before.rerunRequested) (told : boundaries t.events = [])
  /-- a step visits the last plot, and that is all -/
  | ends (c : Nat) (step : t.operation = .step) (running : t.before.cursor = some c)
      (last : c + 1 = t.before.plots.length) (plots : t.after.plots = t.before.plots)
      (unasked : ¬ (t.before.rerunRequested ∧ t.before.visible))
      (cursor : t.after.cursor = none) (count : t.after.cycleCount = t.before.cycleCount)
      (told : boundaries t.events = t.before.completeNotice)
  /-- a step visits the last plot, and the follow-up begins -/
  | renews (c : Nat) (step : t.operation = .step) (running : t.before.cursor = some c)
      (last : c + 1 = t.before.plots.length) (plots : t.after.plots = t.before.plots)
      (asked : t.before.rerunRequested) (seen : t.before.visible)
      (cursor : t.after.cursor = some 0) (count : t.after.cycleCount = t.before.cycleCount + 1)
      (queue : t.after.rerunRequested = false)
      (told : boundaries t.events = t.before.completeNotice ++ t.before.startNotice)

/-- What no turn changes, and what changes only one way. -/
structure Turn.Frame (t : Turn) : Prop where
  announcesStart : t.after.announcesStart = t.before.announcesStart
  announcesComplete : t.after.announcesComplete = t.before.announcesComplete
  visible : t.after.visible = t.operation.shows t.before
  /-- plots are never removed -/
  plots : t.before.plots.length ≤ t.after.plots.length

/-! ## Steps -/

theorem Turn.not_requests_of_step (h : t.operation = .step) : t.requests = false := by
  rw [Turn.requests, h]
  rfl

/-- A step of a running cycle is one of the three kinds that visit a plot. -/
theorem Turn.kind_of_step {s s' : Scheduler} {c : Nat} {m m' : σ} {es : List Event} (hs : Sound s)
    (hc : s.cursor = some c) (h : s.step w m = ⟨es, m', some s'⟩) :
    Turn.Kind ⟨.step, s, es, s'⟩ ∧ Turn.Frame ⟨.step, s, es, s'⟩ := by
  obtain ⟨es₁, m₁, success, es₂, hv, rfl, -, hend⟩ := step_eq_some hc (hs.registered c hc) h
  have told : boundaries (es₁ ++ es₂) = boundaries es₂ := by
    rw [boundaries_append, boundaries_of_visit hv, List.nil_append]
  rcases hend with ⟨hlt, rfl, hb, -⟩ | ⟨hlast, es₃, hf, hb⟩
  · exact ⟨.visits c rfl hc hlt rfl rfl rfl rfl (told.trans hb), rfl, rfl, rfl, Nat.le_refl _⟩
  · have told₃ : boundaries (es₁ ++ es₂) = boundaries es₃ := told.trans hb
    rcases finishCycle_eq_some (s := s.visited c success) (hs.plots_ne_nil hc) hf with
      ⟨hr, hvis, rfl, hb₃⟩ | ⟨hnot, hb₃, timer, rfl, -⟩
    · exact ⟨.renews c rfl hc hlast rfl hr hvis rfl rfl rfl (told₃.trans hb₃),
        rfl, rfl, rfl, Nat.le_refl _⟩
    · exact ⟨.ends c rfl hc hlast rfl hnot rfl rfl (told₃.trans hb₃), rfl, rfl, rfl, Nat.le_refl _⟩

/-- Without a running cycle a step does nothing. -/
theorem Turn.kind_of_idle_step {s s' : Scheduler} {m m' : σ} {es : List Event} (hc : s.cursor = none)
    (h : s.step w m = ⟨es, m', some s'⟩) :
    Turn.Kind ⟨.step, s, es, s'⟩ ∧ Turn.Frame ⟨.step, s, es, s'⟩ := by
  obtain ⟨rfl, -, rfl⟩ := step_eq_some_of_idle hc h
  exact ⟨.aside rfl rfl (Bool.or_false _).symm (by simp [Turn.requests, Operation.requests])
    (fun _ => hc) rfl, rfl, rfl, rfl, Nat.le_refl _⟩

/-! ## Requests and all else -/

/-- A request is noted behind a running cycle; else it begins one. -/
theorem Turn.kind_of_requests {op : Operation} {s s' : Scheduler} {m m' : σ} {es : List Event}
    (hs : Sound s) (hr : op.requests s) (h : op.perform w s m = ⟨es, m', some s'⟩) :
    Turn.Kind ⟨op, s, es, s'⟩ ∧ Turn.Frame ⟨op, s, es, s'⟩ := by
  obtain ⟨es', hb, hbegin⟩ := perform_eq_some_of_requests hr h
  obtain ⟨interval, timer, hp⟩ := Operation.prepare_eq hr
  rw [hp] at hbegin
  have hstep : op ≠ .step := by
    rintro rfl
    cases hr
  rcases beginCycle_eq_some (by exact hs.queued) hbegin with
    ⟨hsome, rfl, rfl⟩ | ⟨hnone, hne, rfl, hb'⟩ | ⟨hnone, hnil, hb', timer', rfl, -⟩
  · have hne : s.cursor ≠ none := Option.isSome_iff_ne_none.mp hsome
    refine ⟨.aside rfl rfl ?_ (fun _ => hne) (fun hop => absurd hop hstep) hb,
      rfl, rfl, rfl, Nat.le_refl _⟩
    rw [Turn.requests, hr, Bool.or_true]
  · exact ⟨.begins hnone hr hne rfl rfl rfl (hs.queued hnone) (hb.trans hb'),
      rfl, rfl, rfl, Nat.le_refl _⟩
  · exact ⟨.passes hnone hr hnil rfl rfl (hb.trans hb'), rfl, rfl, rfl, Nat.le_refl _⟩

theorem Turn.kind_of_aside {op : Operation} {s s' : Scheduler} {m m' : σ} {es : List Event}
    (hs : Sound s) (hr : op.requests s = false) (hop : op ≠ .step)
    (h : op.perform w s m = ⟨es, m', some s'⟩) :
    Turn.Kind ⟨op, s, es, s'⟩ ∧ Turn.Frame ⟨op, s, es, s'⟩ := by
  obtain ⟨told, ha, hv⟩ := perform_eq_some_of_aside hs.toOrderly hr hop h
  refine ⟨.aside ha.cursor ha.cycleCount ?_ ?_ (fun hstep => absurd hstep hop) told,
    ha.announcesStart, ha.announcesComplete, hv, ha.plots⟩
  · rw [Turn.requests, hr, Bool.or_false, ha.rerunRequested]
  · rw [Turn.requests, hr]
    exact fun hf => absurd hf Bool.false_ne_true

theorem Turn.Occurs.kind_frame (hs : Sound t.before) (h : t.Occurs w) : t.Kind ∧ t.Frame := by
  obtain ⟨op, s, es, s'⟩ := t
  obtain ⟨m, m', h⟩ := h
  by_cases hop : op = .step
  · subst hop
    cases hc : s.cursor with
    | some c => exact Turn.kind_of_step hs hc h
    | none => exact Turn.kind_of_idle_step hc h
  · by_cases hr : op.requests s
    · exact Turn.kind_of_requests hs hr h
    · exact Turn.kind_of_aside hs (by simpa using hr) hop h

/-- **Every turn is of one of the six kinds.** -/
theorem Turn.Occurs.kind (hs : Sound t.before) (h : t.Occurs w) : t.Kind := (h.kind_frame hs).1

theorem Turn.Occurs.frame (hs : Sound t.before) (h : t.Occurs w) : t.Frame := (h.kind_frame hs).2

theorem Turn.Occurs.sound (hs : Sound t.before) (h : t.Occurs w) : Sound t.after := by
  obtain ⟨m, m', h⟩ := h
  exact hs.perform h

/-- A request that finds no cycle running begins one. -/
theorem Turn.Kind.count_of_requests (hk : t.Kind) (hc : t.before.cursor = none) (hr : t.requests) :
    t.after.cycleCount = t.before.cycleCount + 1 := by
  cases hk with
  | aside _ _ _ noted => exact absurd hc (noted hr)
  | begins _ _ _ _ _ count | passes _ _ _ _ count => exact count
  | visits c _ running | ends c _ running | renews c _ running =>
    rw [hc] at running
    cases running

end HistogramMonitor.Scheduler
