import HistogramMonitor.Proofs.Scheduler.Run

/-!
# What holds between two operations

`Sound` is what is true of a scheduler whenever nobody is working on it: the cursor names a registered
plot, a follow-up is queued only behind a running cycle, and the timer is as visibility and interval want
it. A cycle in its last breath satisfies less (`Orderly`), since its timer has yet to be set.

An operation does one of three things: it asks for a cycle (`perform_eq_some_of_requests`), it takes a
step (`step_eq_some`), or it leaves the cycle alone (`perform_eq_some_of_aside`). Each keeps `Sound`, and
so it holds of every reachable state. Headline: `timer_pending_iff`.
-/

namespace HistogramMonitor.Scheduler

open HistogramMonitor.Action

variable {σ : Type} {w : Surroundings σ}

/-! ## The invariant -/

/-- What holds even while a cycle is about to end. -/
structure Orderly (s : Scheduler) : Prop where
  /-- a follow-up is queued only behind a running cycle -/
  queued : s.cursor = none → s.rerunRequested = false
  /-- a timer is pending only if updates are to go on -/
  pending : s.timer.isSome → s.visible ∧ s.interval ≠ 0

/-- What holds between two operations. -/
structure Sound (s : Scheduler) : Prop extends Orderly s where
  /-- the cursor names a registered plot -/
  registered : ∀ c, s.cursor = some c → c < s.plots.length
  /-- between two cycles, a timer is pending if updates are to go on -/
  armed : s.cursor = none → s.visible ∧ s.interval ≠ 0 → s.timer.isSome

theorem sound_fresh (announcesStart announcesComplete : Bool) (link : StatusLink) :
    Sound (fresh announcesStart announcesComplete link) where
  queued _ := rfl
  pending h := (Bool.false_ne_true h).elim
  registered _ h := by cases h
  armed _ h := absurd rfl h.2

theorem Sound.plots_ne_nil {s : Scheduler} (hs : Sound s) {c : Nat} (hc : s.cursor = some c) :
    s.plots ≠ [] := by
  intro hp
  have := hs.registered c hc
  rw [hp] at this
  exact absurd this (Nat.not_lt_zero c)

/-! ## Beginning and finishing a cycle -/

/-- With its timer set, a state between two cycles is sound. -/
theorem sound_of_timer {s : Scheduler} (hc : s.cursor = none) (hr : s.rerunRequested = false)
    (ht : s.timer.isSome ↔ s.visible ∧ s.interval ≠ 0) : Sound s where
  queued _ := hr
  pending := ht.mp
  registered c h := by rw [hc] at h; cases h
  armed _ := ht.mpr

/-- A cycle over at least one plot stands at the first one when it has been opened. -/
theorem sound_opened {s : Scheduler} (hp : s.plots ≠ [])
    (ht : s.timer.isSome → s.visible ∧ s.interval ≠ 0) : Sound s.opened where
  queued h := by cases h
  pending := ht
  registered c h := by
    cases h
    exact List.length_pos_iff.mpr hp
  armed h := by cases h

theorem Sound.beginCycle {s s' : Scheduler} {m m' : σ} {es : List Event} (hs : Orderly s)
    (hc : ∀ c, s.cursor = some c → c < s.plots.length)
    (h : s.beginCycle w m = ⟨es, m', some s'⟩) : Sound s' := by
  rcases beginCycle_eq_some hs.queued h with
    ⟨hsome, -, rfl⟩ | ⟨hnone, hp, rfl, -⟩ | ⟨hnone, hp, -, timer, rfl, ht⟩
  · have hne : s.cursor ≠ none := Option.isSome_iff_ne_none.mp hsome
    exact ⟨⟨(absurd · hne), hs.pending⟩, hc, (absurd · hne)⟩
  · exact sound_opened hp hs.pending
  · exact sound_of_timer rfl (hs.queued hnone) ht

theorem Sound.finishCycle {s s' : Scheduler} {m m' : σ} {es : List Event} (hp : s.plots ≠ [])
    (ht : s.timer.isSome → s.visible ∧ s.interval ≠ 0)
    (h : s.finishCycle w m = ⟨es, m', some s'⟩) : Sound s' := by
  rcases finishCycle_eq_some hp h with ⟨-, -, rfl, -⟩ | ⟨-, -, timer, rfl, ht'⟩
  · exact sound_opened (s := s.rested) hp ht
  · exact sound_of_timer rfl rfl ht'

/-! ## What an operation can do -/

theorem changeSource_eq_some {s : Scheduler} {plot : Nat} {source : Option PlotSource}
    {refreshNow : Bool} {m m' : σ} {es : List Event} {r : Option Scheduler}
    (h : s.changeSource w plot source refreshNow m = ⟨es, m', some r⟩) :
    boundaries es = [] ∧
      (r = none ∨
        ∃ p : Plot, r = some { s with plots := s.plots.set plot { p with source := source } }) := by
  unfold changeSource at h
  cases hp : s.plots[plot]? with
  | none =>
    rw [hp] at h
    obtain ⟨rfl, -, rfl⟩ := pure_eq_some h
    exact ⟨rfl, Or.inl rfl⟩
  | some p =>
    rw [hp] at h
    dsimp only at h
    by_cases hn : refreshNow
    · rw [if_pos hn] at h
      obtain ⟨es₁, m₁, ok, es₂, h₁, h₂, rfl⟩ := bind_eq_some h
      obtain ⟨rfl, -, rfl⟩ := pure_eq_some h₂
      rw [boundaries_append, boundaries_of_visit h₁]
      exact ⟨rfl, Or.inr ⟨p, rfl⟩⟩
    · rw [if_neg hn] at h
      obtain ⟨rfl, -, rfl⟩ := pure_eq_some h
      exact ⟨rfl, Or.inr ⟨p, rfl⟩⟩

/-- A request for a cycle may log a line, prepares the state, and asks. -/
theorem perform_eq_some_of_requests {op : Operation} {s s' : Scheduler} {m m' : σ} {es : List Event}
    (hr : op.requests s) (h : op.perform w s m = ⟨es, m', some s'⟩) :
    ∃ es', boundaries es = boundaries es' ∧
      (op.prepare s).beginCycle w m = ⟨es', m', some s'⟩ := by
  cases op with
  | start interval => exact ⟨es, rfl, h⟩
  | refreshAll => exact ⟨es, rfl, h⟩
  | setVisible visible =>
    simp only [Operation.requests, Bool.and_eq_true, Bool.not_eq_true', bne_iff_ne] at hr
    obtain ⟨⟨rfl, hv⟩, hi⟩ := hr
    have hd : (diagnose .debug "Plots visible again, resuming updates" >>= fun _ =>
        beginCycle w { s with visible := true }) m = ⟨es, m', some s'⟩ := by
      simpa [Operation.perform, setVisible, hv, hi] using h
    obtain ⟨es₁, m₁, u, es₂, h₁, h₂, rfl⟩ := bind_eq_some hd
    cases h₁
    exact ⟨es₂, rfl, h₂⟩
  | fireTimer time =>
    obtain ⟨es₁, m₁, ⟨s₁, fired⟩, es₂, h₁, h₂, rfl⟩ := bind_eq_some h
    obtain ⟨rfl, rfl, rfl⟩ := pure_eq_some h₂
    rcases ht : s.timer with _ | deadline
    · simp [Operation.requests, ht] at hr
    · have hle : deadline.nanos ≤ time.nanos := by simpa [Operation.requests, ht] using hr
      simp only [fireTimer, ht, if_pos hle] at h₁
      obtain ⟨es₃, m₃, s₃, es₄, h₃, h₄, rfl⟩ := bind_eq_some h₁
      obtain ⟨rfl, rfl, hs⟩ := pure_eq_some h₄
      obtain ⟨rfl, -⟩ := Prod.mk.inj hs
      exact ⟨es₃, by simp, h₃⟩
  | _ => cases hr

/-- How the state can differ after an operation that leaves the cycle alone. -/
structure Aside (s s' : Scheduler) : Prop where
  cursor : s'.cursor = s.cursor
  rerunRequested : s'.rerunRequested = s.rerunRequested
  cycleCount : s'.cycleCount = s.cycleCount
  announcesStart : s'.announcesStart = s.announcesStart
  announcesComplete : s'.announcesComplete = s.announcesComplete
  plots : s.plots.length ≤ s'.plots.length
  timer : (s'.timer = s.timer ∧ s'.visible = s.visible ∧ s'.interval = s.interval) ∨
    (s'.timer.isSome ↔ s'.visible ∧ s'.interval ≠ 0)

theorem Aside.refl (s : Scheduler) : Aside s s :=
  ⟨rfl, rfl, rfl, rfl, rfl, Nat.le_refl _, Or.inl ⟨rfl, rfl, rfl⟩⟩

theorem Aside.sound {s s' : Scheduler} (h : Aside s s') (hs : Sound s) : Sound s' := by
  have hq : s'.cursor = none → s'.rerunRequested = false := by
    rw [h.cursor, h.rerunRequested]
    exact hs.queued
  have hc : ∀ c, s'.cursor = some c → c < s'.plots.length := by
    intro c hc
    rw [h.cursor] at hc
    exact Nat.lt_of_lt_of_le (hs.registered c hc) h.plots
  rcases h.timer with ⟨ht, hv, hi⟩ | ht
  · refine ⟨⟨hq, ?_⟩, hc, ?_⟩
    · rw [ht, hv, hi]
      exact hs.pending
    · rw [h.cursor, ht, hv, hi]
      exact hs.armed
  · exact ⟨⟨hq, ht.mp⟩, hc, fun _ => ht.mpr⟩

theorem setVisible_eq_some_of_aside {visible : Bool} {s s' : Scheduler} {m m' : σ} {es : List Event}
    (hs : Orderly s) (hr : (Operation.setVisible visible).requests s = false)
    (h : s.setVisible w visible m = ⟨es, m', some s'⟩) :
    boundaries es = [] ∧ Aside s s' ∧ s'.visible = visible := by
  unfold setVisible at h
  by_cases hsame : visible = s.visible
  · rw [if_pos hsame] at h
    obtain ⟨rfl, -, hs'⟩ := pure_eq_some h
    rw [hs']
    exact ⟨rfl, Aside.refl s, hsame.symm⟩
  · rw [if_neg hsame] at h
    cases visible with
    | true =>
      -- shown, with nothing to resume
      have hidden : s.visible = false := by simpa using Ne.symm hsame
      have hzero : s.interval = 0 := by simpa [Operation.requests, hidden] using hr
      have hnone : ¬ s.timer.isSome := fun ht => (hs.pending ht).2 hzero
      rw [if_pos rfl, if_neg (fun hi => hi hzero)] at h
      obtain ⟨rfl, -, rfl⟩ := pure_eq_some h
      have ht : s.timer.isSome ↔ true = true ∧ s.interval ≠ 0 :=
        ⟨fun ht => absurd ht hnone, fun hi => absurd hzero hi.2⟩
      exact ⟨rfl, { Aside.refl s with timer := Or.inr ht }, rfl⟩
    | false =>
      rw [if_neg Bool.false_ne_true] at h
      obtain ⟨es₁, m₁, u, es₂, h₁, h₂, rfl⟩ := bind_eq_some h
      obtain ⟨rfl, -, rfl⟩ := pure_eq_some h₂
      cases h₁
      exact ⟨rfl, { Aside.refl s with timer := Or.inr (by simp) }, rfl⟩

theorem fireTimer_eq_some_of_aside {time : Instant} {s s' : Scheduler} {fired : Bool} {m m' : σ}
    {es : List Event} (hr : (Operation.fireTimer time).requests s = false)
    (h : s.fireTimer w time m = ⟨es, m', some (s', fired)⟩) :
    es = [] ∧ s' = s ∧ fired = false := by
  unfold fireTimer at h
  cases ht : s.timer with
  | none =>
    rw [ht] at h
    obtain ⟨rfl, -, hs⟩ := pure_eq_some h
    obtain ⟨rfl, rfl⟩ := Prod.mk.inj hs
    exact ⟨rfl, rfl, rfl⟩
  | some deadline =>
    have hlt : ¬ deadline.nanos ≤ time.nanos := by simpa [Operation.requests, ht] using hr
    rw [ht] at h
    dsimp only at h
    rw [if_neg hlt] at h
    obtain ⟨rfl, -, hs⟩ := pure_eq_some h
    obtain ⟨rfl, rfl⟩ := Prod.mk.inj hs
    exact ⟨rfl, rfl, rfl⟩

/-- An operation that neither asks for a cycle nor takes a step leaves the cycle alone. -/
theorem perform_eq_some_of_aside {op : Operation} {s s' : Scheduler} {m m' : σ} {es : List Event}
    (hs : Orderly s) (hr : op.requests s = false) (hop : op ≠ .step)
    (h : op.perform w s m = ⟨es, m', some s'⟩) :
    boundaries es = [] ∧ Aside s s' ∧ s'.visible = op.shows s := by
  cases op with
  | addPlot p =>
    obtain ⟨rfl, -, rfl⟩ := pure_eq_some h
    exact ⟨rfl, { Aside.refl s with plots := by simp [addPlot] }, rfl⟩
  | changeSource plot source refreshNow =>
    obtain ⟨es₁, m₁, r, es₂, h₁, h₂, rfl⟩ := bind_eq_some h
    obtain ⟨rfl, -, hs'⟩ := pure_eq_some h₂
    obtain ⟨hb, hr'⟩ := changeSource_eq_some h₁
    refine ⟨by rw [boundaries_append, hb]; rfl, ?_⟩
    rcases hr' with rfl | ⟨p, rfl⟩
    · rw [hs']
      exact ⟨Aside.refl s, rfl⟩
    · rw [hs']
      exact ⟨{ Aside.refl s with plots := by simp }, rfl⟩
  | setDefaultRuns runs =>
    obtain ⟨rfl, -, rfl⟩ := pure_eq_some h
    exact ⟨rfl, { Aside.refl s with }, rfl⟩
  | setDefaultProgram program =>
    obtain ⟨rfl, -, rfl⟩ := pure_eq_some h
    exact ⟨rfl, { Aside.refl s with }, rfl⟩
  | loseReceiver =>
    obtain ⟨rfl, -, rfl⟩ := pure_eq_some h
    exact ⟨rfl, { Aside.refl s with }, rfl⟩
  | setInterval interval =>
    obtain ⟨rfl, timer, rfl, ht⟩ := rearm_eq_some h
    exact ⟨rfl, { Aside.refl s with timer := Or.inr ht }, rfl⟩
  | setVisible visible => exact setVisible_eq_some_of_aside hs hr h
  | fireTimer time =>
    obtain ⟨es₁, m₁, ⟨s₁, fired⟩, es₂, h₁, h₂, rfl⟩ := bind_eq_some h
    obtain ⟨rfl, -, rfl⟩ := pure_eq_some h₂
    obtain ⟨rfl, hs', -⟩ := fireTimer_eq_some_of_aside hr h₁
    rw [hs']
    exact ⟨rfl, Aside.refl s, rfl⟩
  | start | refreshAll => cases hr
  | step => exact absurd rfl hop

/-! ## Every reachable state is sound -/

theorem Operation.prepare_orderly {op : Operation} {s : Scheduler} (hs : Orderly s) :
    Orderly (op.prepare s) := by
  cases op with
  | start => exact ⟨hs.queued, fun h => by cases h⟩
  | fireTimer => exact ⟨hs.queued, fun h => by cases h⟩
  | setVisible => exact ⟨hs.queued, fun h => ⟨rfl, (hs.pending h).2⟩⟩
  | _ => exact hs

/-- A request prepares the interval, the timer and the visibility, and nothing else. -/
theorem Operation.prepare_eq {op : Operation} {s : Scheduler} (hr : op.requests s) :
    ∃ interval timer, op.prepare s =
      { s with interval := interval, timer := timer, visible := op.shows s } := by
  cases op with
  | start interval => exact ⟨interval, none, rfl⟩
  | fireTimer => exact ⟨s.interval, none, rfl⟩
  | refreshAll => exact ⟨s.interval, s.timer, rfl⟩
  | setVisible visible =>
    have hv : visible = true := by
      simp only [requests, Bool.and_eq_true] at hr
      exact hr.1.1
    rw [hv]
    exact ⟨s.interval, s.timer, rfl⟩
  | _ => cases hr

theorem Sound.step {s s' : Scheduler} {m m' : σ} {es : List Event} (hs : Sound s)
    (h : s.step w m = ⟨es, m', some s'⟩) : Sound s' := by
  cases hc : s.cursor with
  | none =>
    obtain ⟨-, -, rfl⟩ := step_eq_some_of_idle hc h
    exact hs
  | some c =>
    obtain ⟨es₁, m₁, success, es₂, -, -, -, ⟨hlt, rfl, -⟩ | ⟨-, es₃, hf, -⟩⟩ :=
      step_eq_some hc (hs.registered c hc) h
    · refine ⟨⟨(by cases ·), hs.pending⟩, fun c' h' => ?_, (by cases ·)⟩
      cases h'
      exact hlt
    · exact Sound.finishCycle (s := s.visited c success) (hs.plots_ne_nil hc) hs.pending hf

theorem Sound.perform {op : Operation} {s s' : Scheduler} {m m' : σ} {es : List Event} (hs : Sound s)
    (h : op.perform w s m = ⟨es, m', some s'⟩) : Sound s' := by
  by_cases hop : op = .step
  · subst hop
    exact hs.step h
  · by_cases hr : op.requests s
    · obtain ⟨es', -, hb⟩ := perform_eq_some_of_requests hr h
      refine Sound.beginCycle (Operation.prepare_orderly hs.toOrderly) ?_ hb
      obtain ⟨interval, timer, hp⟩ := Operation.prepare_eq hr
      rw [hp]
      exact hs.registered
    · rw [Bool.not_eq_true] at hr
      exact (perform_eq_some_of_aside hs.toOrderly hr hop h).2.1.sound hs

theorem Sound.run {s s' : Scheduler} {turns : List Turn} (hs : Sound s) (h : Run w s turns s') :
    Sound s' := by
  induction h with
  | nil _ => exact hs
  | cons ht _ ih =>
    obtain ⟨m, m', ht⟩ := ht
    exact ih (hs.perform ht)

theorem Reachable.sound {s : Scheduler} (h : Reachable w s) : Sound s := by
  obtain ⟨a, b, link, turns, hrun⟩ := h.exists_run
  exact (sound_fresh a b link).run hrun

theorem not_cycling_iff {s : Scheduler} : ¬ s.cycling ↔ s.cursor = none := by
  simp [cycling]

theorem phase_eq_scheduled_iff {s : Scheduler} :
    s.phase = .scheduled ↔ s.cursor = none ∧ s.timer.isSome := by
  unfold phase
  cases s.cursor <;> cases s.timer <;> simp

/-- **One timer, exactly when it is wanted.** In every reachable state a timer is pending only if the
monitor is visible and its interval is not zero; between two cycles it is pending if and only if that is
so, and then, and only then, the scheduler says that it is waiting for it. -/
theorem timer_pending_iff {s : Scheduler} (h : Reachable w s) :
    (s.timer.isSome → s.visible ∧ s.interval ≠ 0) ∧
      (¬ s.cycling → (s.timer.isSome ↔ s.visible ∧ s.interval ≠ 0)) ∧
      (s.phase = .scheduled ↔ ¬ s.cycling ∧ s.visible ∧ 0 < s.interval) := by
  have hs := h.sound
  have between : s.cursor = none → (s.timer.isSome ↔ s.visible ∧ s.interval ≠ 0) :=
    fun hc => ⟨hs.pending, hs.armed hc⟩
  refine ⟨hs.pending, fun hc => between (not_cycling_iff.mp hc), ?_⟩
  rw [phase_eq_scheduled_iff, not_cycling_iff, Nat.pos_iff_ne_zero]
  exact and_congr_right between

/-- What a start over no plots leaves when the interval is five. -/
def started : Scheduler := { interval := 5, timer := some ⟨5⟩, cycleCount := 1 }

theorem timer_pending_after_start :
    Reachable stillness started ∧ started.phase = .scheduled ∧
      (started.timer.isSome → started.visible ∧ started.interval ≠ 0) := by
  have hreach : Reachable stillness started :=
    (Reachable.fresh false false .absent).perform (.start 5) (m := ()) rfl
  obtain ⟨hpending, -, hscheduled⟩ := timer_pending_iff hreach
  exact ⟨hreach, hscheduled.mpr ⟨by decide, rfl, by decide⟩, hpending⟩

end HistogramMonitor.Scheduler
