import HistogramMonitor.Proofs.Scheduler.Turns

/-!
# When a request is served

A request to refresh everything is served when a cycle begins after it. One that finds a cycle running has
to wait: behind that cycle, and if the cycle ends unseen, for the monitor to be shown again (`Waiting`).
A turn keeps it waiting, serves it, or overlooks it, and it is overlooked in one way only: the monitor is
shown again while no cycle is running and with an interval of zero (`Turn.Overlooks`).

Once overlooked, a request is as good as forgotten until somebody asks anew. Headline: `served_iff`.
-/

namespace HistogramMonitor.Scheduler

open HistogramMonitor.Action

variable {σ : Type} {w : Surroundings σ} {s s₁ s' : Scheduler} {t : Turn} {turns : List Turn}

/-! ## Cycles only add up -/

theorem Turn.Kind.count_le (hk : t.Kind) : t.before.cycleCount ≤ t.after.cycleCount := by
  cases hk with
  | aside _ count | visits _ _ _ _ _ _ count | ends _ _ _ _ _ _ _ count => exact Nat.le_of_eq count.symm
  | begins _ _ _ _ _ count | passes _ _ _ _ count | renews _ _ _ _ _ _ _ _ count =>
    rw [count]
    exact Nat.le_succ _

theorem Run.count_le (hs : Sound s) (h : Run w s turns s') : s.cycleCount ≤ s'.cycleCount := by
  induction h with
  | nil s => exact Nat.le_refl _
  | cons ht _ ih => exact Nat.le_trans (ht.kind hs).count_le (ih (ht.sound hs))

/-! ## Between two cycles -/

/-- Between two cycles a request begins one, and nothing else does. -/
theorem Turn.Kind.idle (hk : t.Kind) (hc : t.before.cursor = none) :
    (t.requests = false ∧ t.after.cursor = none ∧ t.after.cycleCount = t.before.cycleCount) ∨
      (t.requests ∧ t.before.cycleCount < t.after.cycleCount) := by
  cases hk with
  | aside cursor count _ noted _ _ =>
    have hr : t.requests = false := Bool.eq_false_iff.mpr fun hr => noted hr hc
    exact Or.inl ⟨hr, cursor.trans hc, count⟩
  | begins _ asked _ _ _ count | passes _ asked _ _ count =>
    exact Or.inr ⟨asked, count ▸ Nat.lt_succ_self _⟩
  | visits c _ running | ends c _ running | renews c _ running =>
    rw [hc] at running
    cases running

/-- From between two cycles, no cycle begins as long as nobody asks. -/
theorem Run.count_eq_iff (hs : Sound s) (hc : s.cursor = none) (h : Run w s turns s') :
    s'.cycleCount = s.cycleCount ↔ ∀ t ∈ turns, t.requests = false := by
  induction h with
  | nil s => simp
  | @cons t turns s' ht hrun ih =>
    rw [List.forall_mem_cons]
    rcases (ht.kind hs).idle hc with ⟨hr, hcur, hcount⟩ | ⟨hr, hlt⟩
    · rw [← hcount, ih (ht.sound hs) hcur]
      exact ⟨fun hall => ⟨hr, hall⟩, fun hall => hall.2⟩
    · have hle := hrun.count_le (ht.sound hs)
      constructor
      · intro heq
        exact absurd heq (Nat.ne_of_gt (Nat.lt_of_lt_of_le hlt hle))
      · intro hall
        rw [hr] at hall
        cases hall.1

/-! ## Requests that wait -/

/-- A request waits behind the running cycle or, if that has ended unseen, for the monitor to be shown. -/
def Waiting (s : Scheduler) : Prop :=
  (s.cursor ≠ none ∧ s.rerunRequested) ∨ (s.cursor = none ∧ s.visible = false)

/-- The monitor is shown again while no cycle is running and with nothing to resume. -/
structure Turn.Overlooks (t : Turn) : Prop where
  shows : t.operation = .setVisible true
  hidden : t.before.visible = false
  untimed : t.before.interval = 0
  idle : t.before.cursor = none

theorem Turn.Overlooks.requests (h : t.Overlooks) : t.requests = false := by
  rw [Turn.requests, h.shows]
  simp [Operation.requests, h.untimed]

/-- Only showing makes a hidden monitor visible. -/
theorem Operation.eq_setVisible_of_shows {op : Operation} (h : op.shows s = true)
    (hv : s.visible = false) : op = .setVisible true := by
  cases op with
  | setVisible visible =>
    cases h
    rfl
  | _ =>
    rw [show s.visible = true from h] at hv
    cases hv

/-- A turn keeps a request waiting, serves it or overlooks it. -/
theorem Turn.Occurs.waiting (hs : Sound t.before) (h : t.Occurs w) (hw : Waiting t.before) :
    (Waiting t.after ∧ t.after.cycleCount = t.before.cycleCount) ∨
      t.before.cycleCount < t.after.cycleCount ∨
      (t.Overlooks ∧ t.after.cursor = none ∧ t.after.cycleCount = t.before.cycleCount) := by
  have hframe := h.frame hs
  rcases hw with ⟨hc, hr⟩ | ⟨hc, hv⟩
  · -- behind a running cycle
    cases h.kind hs with
    | aside cursor count queue =>
      refine Or.inl ⟨Or.inl ⟨cursor ▸ hc, ?_⟩, count⟩
      rw [queue, hr, Bool.true_or]
    | begins idle | passes idle => exact absurd idle hc
    | visits c _ _ _ _ cursor count queue =>
      refine Or.inl ⟨Or.inl ⟨?_, queue.trans hr⟩, count⟩
      rw [cursor]
      exact Option.some_ne_none _
    | ends c step _ _ _ unasked cursor count =>
      have hv : t.before.visible = false := by
        simpa [hr] using unasked
      refine Or.inl ⟨Or.inr ⟨cursor, ?_⟩, count⟩
      rw [hframe.visible, step]
      exact hv
    | renews _ _ _ _ _ _ _ _ count => exact Or.inr (Or.inl (count ▸ Nat.lt_succ_self _))
  · -- with nobody to see it
    rcases (h.kind hs).idle hc with ⟨hr, hcur, hcount⟩ | ⟨-, hlt⟩
    · cases hshown : t.after.visible with
      | false => exact Or.inl ⟨Or.inr ⟨hcur, hshown⟩, hcount⟩
      | true =>
        have hop := Operation.eq_setVisible_of_shows (hframe.visible ▸ hshown) hv
        have hzero : t.before.interval = 0 := by
          rw [Turn.requests, hop] at hr
          simpa [Operation.requests, hv] using hr
        exact Or.inr (Or.inr ⟨⟨hop, hv, hzero, hc⟩, hcur, hcount⟩)
    · exact Or.inr (Or.inl hlt)

/-- If no cycle has begun while a request was waiting, and none is running before somebody's eyes, then
the request has been overlooked, and nobody has asked again. -/
theorem Run.overlooked (hs : Sound s) (hw : Waiting s) (h : Run w s turns s') (hv : s'.visible)
    (hc : s'.cursor = none) (hcount : s'.cycleCount = s.cycleCount) :
    ∃ earlier shown later, turns = earlier ++ shown :: later ∧ shown.Overlooks ∧
      shown.before.cycleCount = s.cycleCount ∧ ∀ t ∈ later, t.requests = false := by
  induction h with
  | nil s =>
    -- a request that still waits keeps a cycle running or the monitor hidden
    rcases hw with ⟨hrun, -⟩ | ⟨-, hhid⟩
    · exact absurd hc hrun
    · rw [hv] at hhid
      cases hhid
  | @cons t turns s' ht hrun ih =>
    have hs₁ := ht.sound hs
    rcases ht.waiting hs hw with ⟨hw₁, hcount₁⟩ | hlt | ⟨hover, hcur, hcount₁⟩
    · obtain ⟨earlier, shown, later, rfl, hover, hat, hlater⟩ :=
        ih hs₁ hw₁ hv hc (hcount.trans hcount₁.symm)
      exact ⟨t :: earlier, shown, later, rfl, hover, hat.trans hcount₁, hlater⟩
    · have hle := hrun.count_le hs₁
      exact absurd hcount (Nat.ne_of_gt (Nat.lt_of_lt_of_le hlt hle))
    · -- from here on nothing but a request can begin a cycle
      have hlater := (hrun.count_eq_iff hs₁ hcur).mp (hcount.trans hcount₁.symm)
      exact ⟨[], t, turns, rfl, hover, rfl, hlater⟩

/-- Steps keep a request waiting or serve it. -/
theorem Run.waiting_of_steps (hs : Sound s) (hw : Waiting s) (h : Run w s turns s')
    (hsteps : ∀ t ∈ turns, t.operation = .step) :
    (Waiting s' ∧ s'.cycleCount = s.cycleCount) ∨ s.cycleCount < s'.cycleCount := by
  induction h with
  | nil s => exact Or.inl ⟨hw, rfl⟩
  | @cons t turns s' ht hrun ih =>
    have hs₁ := ht.sound hs
    obtain ⟨hstep, hsteps⟩ := List.forall_mem_cons.mp hsteps
    rcases ht.waiting hs hw with ⟨hw₁, hcount₁⟩ | hlt | ⟨hover, -⟩
    · rw [← hcount₁]
      exact ih hs₁ hw₁ hsteps
    · exact Or.inr (Nat.lt_of_lt_of_le hlt (hrun.count_le hs₁))
    · rw [hover.shows] at hstep
      cases hstep

/-! ## Requests to refresh everything -/

/-- The second state is what a request to refresh everything leaves of the first. -/
inductive Refreshes (w : Surroundings σ) (s : Scheduler) : Scheduler → Prop
  | start {interval : Duration} {m m' : σ} {es : List Event} {s' : Scheduler} :
      s.start w interval m = ⟨es, m', some s'⟩ → Refreshes w s s'
  | refreshAll {m m' : σ} {es : List Event} {s' : Scheduler} :
      s.refreshAll w m = ⟨es, m', some s'⟩ → Refreshes w s s'
  | runCycle {m m' : σ} {es : List Event} {s' : Scheduler} :
      s.runCycle w m = ⟨es, m', some s'⟩ → Refreshes w s s'

/-- A request is a turn that asks, and there may be steps after it. -/
theorem Refreshes.exists_run (h : Refreshes w s s₁) :
    ∃ t more, Run w s (t :: more) s₁ ∧ t.requests ∧ ∀ u ∈ more, u.operation = .step := by
  cases h with
  | @start interval m m' es _ h =>
    exact ⟨⟨.start interval, s, es, s₁⟩, [], Run.single h, rfl, by simp⟩
  | @refreshAll m m' es _ h => exact ⟨⟨.refreshAll, s, es, s₁⟩, [], Run.single h, rfl, by simp⟩
  | runCycle h =>
    obtain ⟨t, more, hrun, hop, hsteps, -⟩ := Run.of_runCycle h
    refine ⟨t, more, hrun, ?_, hsteps⟩
    rw [Turn.requests, hop]
    rfl

/-- A turn that asks begins a cycle, or a request waits after it. -/
theorem Turn.Kind.waiting_of_requests (hk : t.Kind) (hr : t.requests) :
    (Waiting t.after ∧ t.after.cycleCount = t.before.cycleCount) ∨
      t.before.cycleCount < t.after.cycleCount := by
  cases hk with
  | aside cursor count queue noted =>
    refine Or.inl ⟨Or.inl ⟨cursor ▸ noted hr, ?_⟩, count⟩
    rw [queue, hr, Bool.or_true]
  | begins _ _ _ _ _ count | passes _ _ _ _ count => exact Or.inr (count ▸ Nat.lt_succ_self _)
  | visits _ step | ends _ step | renews _ step =>
    rw [Turn.not_requests_of_step step] at hr
    cases hr

theorem Refreshes.waiting (hs : Sound s) (h : Refreshes w s s₁) :
    Sound s₁ ∧ ((Waiting s₁ ∧ s₁.cycleCount = s.cycleCount) ∨ s.cycleCount < s₁.cycleCount) := by
  obtain ⟨t, more, hrun, hr, hsteps⟩ := h.exists_run
  refine ⟨hs.run hrun, ?_⟩
  cases hrun with
  | cons ht hmore =>
    have hs' := ht.sound hs
    rcases (ht.kind hs).waiting_of_requests hr with ⟨hw, hcount⟩ | hlt
    · rw [← hcount]
      exact hmore.waiting_of_steps hs' hw hsteps
    · exact Or.inr (Nat.lt_of_lt_of_le hlt (hmore.count_le hs'))

/-- **When a request is served.** Whenever the monitor is visible and no cycle is running, a cycle has
begun since a request to refresh everything, unless the request has been overlooked: it waited behind a
cycle, the cycle ended while the monitor was hidden, the monitor was shown again with an interval of zero
before any other cycle began, and nobody has asked again. -/
theorem served_iff (hs : Reachable w s) (hreq : Refreshes w s s₁) (h : Run w s₁ turns s')
    (hv : s'.visible) (hc : ¬ s'.cycling) :
    s.cycleCount < s'.cycleCount ↔
      ¬ ∃ earlier shown later, turns = earlier ++ shown :: later ∧ shown.Overlooks ∧
        shown.before.cycleCount = s.cycleCount ∧ ∀ t ∈ later, t.requests = false := by
  obtain ⟨hs₁, hw⟩ := hreq.waiting hs.sound
  have hcur : s'.cursor = none := by simpa [cycling] using hc
  constructor
  · rintro hlt ⟨earlier, shown, later, rfl, hover, hat, hlater⟩
    obtain ⟨hearlier, hshown, hrun⟩ := h.split
    have hsshown := hs₁.run hearlier
    -- nothing begins in the turn that overlooks it, and nothing after that
    rcases (hshown.kind hsshown).idle hover.idle with ⟨-, hidle, hcount⟩ | ⟨hr, -⟩
    · have := (hrun.count_eq_iff (hshown.sound hsshown) hidle).mpr hlater
      omega
    · rw [hover.requests] at hr
      cases hr
  · intro hnot
    have hle := h.count_le hs₁
    rcases hw with ⟨hw, hcount⟩ | hlt
    · rw [← hcount] at hnot ⊢
      refine Nat.lt_of_le_of_ne hle fun heq => hnot ?_
      exact h.overlooked hs₁ hw hv hcur heq.symm
    · exact Nat.lt_of_lt_of_le hlt hle

/-- The only plot is about to be visited, and a refresh waits. -/
def queued : Scheduler := { onlyPlot with rerunRequested := true }

theorem refreshes_queued : Refreshes stillness onlyPlot queued := .refreshAll (m := ()) rfl

/-- The monitor is hidden, the cycle ends, and the monitor is shown again. -/
def unseenEnd : List Turn :=
  let hidden : Scheduler := { queued with visible := false }
  let idle : Scheduler := { hidden with cursor := none, rerunRequested := false }
  [⟨.setVisible false, queued, [.diagnostic .debug "Plots hidden, pausing updates"], hidden⟩,
    ⟨.step, hidden, [], idle⟩, ⟨.setVisible true, idle, [], { idle with visible := true }⟩]

theorem run_unseenEnd : Run stillness queued unseenEnd { plots := [barePlot], cycleCount := 1 } :=
  .cons (t := unseenEnd[0]) ⟨(), (), rfl⟩ <| .cons (t := unseenEnd[1]) ⟨(), (), rfl⟩ <|
    .cons (t := unseenEnd[2]) ⟨(), (), rfl⟩ (.nil _)

theorem overlooked_unseenEnd :
    ∃ earlier shown later, unseenEnd = earlier ++ shown :: later ∧ shown.Overlooks ∧
      shown.before.cycleCount = 1 ∧ ∀ t ∈ later, t.requests = false := by
  have hserved := served_iff reachable_onlyPlot refreshes_queued run_unseenEnd rfl (by decide)
  exact Classical.not_not.mp (mt hserved.mpr (by decide))

/-- Not every request is served: with an interval of zero, nothing makes up for the follow-up that a
hidden monitor drops. -/
theorem not_every_request_served :
    ¬ ∀ (s s₁ s' : Scheduler) (turns : List Turn), Reachable stillness s → Refreshes stillness s s₁ →
        Run stillness s₁ turns s' → s'.visible → ¬ s'.cycling → s.cycleCount < s'.cycleCount := by
  intro h
  have hlt := h _ _ _ _ reachable_onlyPlot refreshes_queued run_unseenEnd rfl (by decide)
  exact absurd hlt (by decide)

end HistogramMonitor.Scheduler
