import HistogramMonitor.Proofs.Scheduler.Endings
import HistogramMonitor.Proofs.Scheduler.Shadows

/-!
# Deadlines that no clock can hold

The timer is set to one interval from now, and nothing bounds the interval. If the deadline is more than a clock can
hold, whoever sets it is brought down, and setting it is the last thing that an operation does. So whether an operation
comes to an end depends on the interval and on what the clock shows when the timer is set, and on nothing else as long as
the client survives its calls (`Overflows`).

An operation goes on to the timer (`Operation.settles`) when the interval is set, when the last plot of a cycle has been
visited and no follow-up begins, and when a cycle begins over no plots, since that has ended as well. Nothing else
does, so an interval that is too long can be accepted, and bring down the step that ends the cycle.

A span that is counted in milliseconds is never too long, unless the clock is about to run out by itself.
-/

namespace HistogramMonitor

variable {σ α β : Type}

theorem Instant.after?_eq_none_iff {t : Instant} {d : Duration} :
    t.after? d = none ↔ Instant.bound ≤ t.nanos + d := by
  rw [Instant.after?]
  split
  · exact ⟨nofun, fun h => absurd h (Nat.not_le_of_lt ‹_›)⟩
  · exact ⟨fun _ => Nat.le_of_not_lt ‹_›, fun _ => rfl⟩

/-- Behind a part that has come to a value, the rest decides. -/
theorem Action.value_bind_of_eq {x : Action σ α} {f : α → Action σ β} {m m' : σ} {es : List Event} {a : α}
    (h : x m = ⟨es, m', some a⟩) : ((x >>= f) m).value = (f a m').value := by
  rw [bind_apply_of_eq h]

namespace Scheduler

open HistogramMonitor.Action

variable {w : Surroundings σ} {s : Scheduler} {m : σ} {op : Operation}

/-! ## Setting the timer -/

/-- Updates are to go on, and with the surroundings as in `m`, the clock cannot hold the next deadline. -/
def Overflows (w : Surroundings σ) (s : Scheduler) (m : σ) : Prop :=
  s.visible ∧ s.interval ≠ 0 ∧ Instant.bound ≤ (w.now m).1.nanos + s.interval

theorem rearm_eq_none_iff : (s.rearm w m).value = none ↔ s.Overflows w m := by
  by_cases hgo : s.interval ≠ 0 ∧ s.visible
  · have hset : (s.rearm w m).value =
        ((w.now m).1.after? s.interval).map fun deadline => { s with timer := some deadline } := by
      have hnow : now w m = ⟨[], (w.now m).2, some (w.now m).1⟩ := rfl
      rw [rearm, if_pos (by exact hgo), arm, value_bind_of_eq hnow]
      dsimp only
      cases (w.now m).1.after? s.interval <;> rfl
    rw [hset, Option.map_eq_none_iff, Instant.after?_eq_none_iff]
    exact ⟨fun h => ⟨hgo.2, hgo.1, h⟩, fun h => h.2.2⟩
  · have hleft : (s.rearm w m).value = some { s with timer := none } := by
      rw [rearm, if_neg (by exact hgo)]
      rfl
    rw [hleft]
    exact ⟨nofun, fun h => absurd ⟨h.2.1, h.1⟩ hgo⟩

/-- A follow-up that has begun over at least one plot goes on. -/
theorem followUp_eq_none_iff : (s.followUp w m).value = none ↔ s.plots = [] ∧ s.Overflows w m := by
  rw [followUp, value_bind_of_eq (s.openCycle_eq m)]
  by_cases hp : s.plots = []
  · obtain ⟨fs, hclosed, -⟩ := s.opened.closeCycle_apply m
    rw [if_pos (by exact hp), value_bind_of_eq hclosed, rearm_eq_none_iff]
    exact (and_iff_right hp).symm
  · rw [if_neg (by exact hp)]
    exact ⟨nofun, fun h => absurd h.1 hp⟩

theorem finishCycle_eq_none_iff : (s.finishCycle w m).value = none ↔
    (¬ (s.rerunRequested ∧ s.visible) ∨ s.plots = []) ∧ s.Overflows w m := by
  obtain ⟨fs, hclosed, -⟩ := s.closeCycle_apply m
  rw [finishCycle, value_bind_of_eq hclosed]
  by_cases hr : s.rerunRequested
  · rw [if_pos (by exact hr)]
    by_cases hv : s.visible
    · rw [if_pos (by exact hv), followUp_eq_none_iff]
      exact and_congr_left fun _ => (or_iff_right (not_not_intro ⟨hr, hv⟩)).symm
    · rw [if_neg (by exact hv), rearm_eq_none_iff]
      exact (and_iff_right (.inl fun h => hv h.2)).symm
  · rw [if_neg (by exact hr), rearm_eq_none_iff]
    exact (and_iff_right (.inl fun h => hr h.1)).symm

/-- A cycle that begins over no plots has ended as well. -/
theorem beginCycle_eq_none_iff : (s.beginCycle w m).value = none ↔
    s.cursor = none ∧ s.plots = [] ∧ s.Overflows w m := by
  by_cases hc : s.cycling
  · rw [beginCycle, if_pos hc]
    exact ⟨nofun, fun h => absurd hc (not_cycling_iff.mpr h.1)⟩
  · rw [beginCycle, if_neg hc, value_bind_of_eq (s.openCycle_eq m)]
    have hnone := not_cycling_iff.mp hc
    by_cases hp : s.plots = []
    · rw [if_pos (by exact hp), finishCycle_eq_none_iff]
      exact ⟨fun h => ⟨hnone, hp, h.2⟩, fun h => ⟨.inr hp, h.2.2⟩⟩
    · rw [if_neg (by exact hp)]
      exact ⟨nofun, fun h => absurd h.2.1 hp⟩

theorem step_eq_none_iff (hw : w.Answers) (hs : Sound s) : (s.step w m).value = none ↔
    (∃ c, s.cursor = some c ∧ c + 1 = s.plots.length) ∧ ¬ (s.rerunRequested ∧ s.visible) ∧
      s.Overflows w (s.afterVisit w m) := by
  cases hc : s.cursor with
  | none =>
    rw [step, hc]
    constructor
    · intro h
      cases h
    · rintro ⟨⟨_, ⟨⟩, -⟩, -⟩
  | some c =>
    have hlt := hs.registered c hc
    obtain ⟨success, hsuccess⟩ := visit_value hw s c m
    have hvisit : s.visit w c m = ⟨(s.visit w c m).events, s.afterVisit w m, some success⟩ := by
      rw [afterVisit, hc, ← hsuccess]
    have hend : (s.step w m).value = ((if s.plots.length ≤ c + 1 then (s.visited c success).finishCycle w
        else pure (s.visited c success)) (s.afterVisit w m)).value := by
      rw [step, hc]
      dsimp only
      rw [if_pos hlt, value_bind_of_eq hvisit, value_bind_of_eq (report_apply ..)]
      simp [visited]
    rw [hend]
    by_cases hlast : s.plots.length ≤ c + 1
    · rw [if_pos hlast, finishCycle_eq_none_iff]
      have hne := hs.plots_ne_nil hc
      constructor
      · rintro ⟨hgo, hover⟩
        exact ⟨⟨c, rfl, Nat.le_antisymm hlt hlast⟩, hgo.resolve_right hne, hover⟩
      · rintro ⟨-, hgo, hover⟩
        exact ⟨.inl hgo, hover⟩
    · rw [if_neg hlast]
      constructor
      · intro h
        cases h
      · rintro ⟨⟨_, ⟨⟩, hend⟩, -⟩
        exact absurd (Nat.le_of_eq hend.symm) hlast

/-! ## Operations -/

namespace Operation

/-- Whether the operation goes on to the timer, if it gets there. Setting the interval does. A step does if it visits
the last plot and no follow-up is to begin; and a request does if it begins a cycle over no plots. -/
def settles : Operation → Scheduler → Bool
  | setInterval _, _ => true
  | step, s => s.cursor.any (· + 1 = s.plots.length) && !(s.rerunRequested && s.visible)
  | op, s => op.requests s && s.cursor.isNone && s.plots.isEmpty

/-- The interval afterwards. -/
def paces : Operation → Scheduler → Duration
  | start interval, _ | setInterval interval, _ => interval
  | _, s => s.interval

end Operation

/-- A request comes to what the cycle comes to that it asks for. -/
theorem perform_value_of_requests (hr : op.requests s) :
    (op.perform w s m).value = ((op.prepare s).beginCycle w m).value := by
  cases op with
  | start | refreshAll => rfl
  | setVisible visible =>
    simp only [Operation.requests, Bool.and_eq_true, Bool.not_eq_true', bne_iff_ne] at hr
    obtain ⟨⟨rfl, hv⟩, hi⟩ := hr
    have hshown : (Operation.setVisible true).perform w s =
        Action.tell [.diagnostic .debug "Plots visible again, resuming updates"] >>= fun _ =>
          beginCycle w { s with visible := true } := by
      simp [Operation.perform, setVisible, hv, hi, diagnose]
    rw [hshown, value_bind_of_eq (tell_apply _ m)]
    rfl
  | fireTimer time =>
    cases hd : s.timer with
    | none => simp [Operation.requests, hd] at hr
    | some deadline =>
      have hle : deadline.nanos ≤ time.nanos := by simpa [Operation.requests, hd] using hr
      have hfired : (Operation.fireTimer time).perform w s =
          (beginCycle w { s with timer := none } >>= fun s => pure (s, true)) >>= fun r => pure r.1 := by
        simp only [Operation.perform, fireTimer, hd, if_pos hle]
      simp only [hfired, Action.bind_assoc, Action.pure_bind, Action.bind_pure]
      rfl
  | _ => cases hr

/-- What neither asks for a cycle nor goes on with one comes to an end. -/
theorem exists_perform_value (hw : w.Answers) (hr : op.requests s = false) (hstep : op ≠ .step)
    (hset : ∀ interval, op ≠ .setInterval interval) (m : σ) : ∃ s', (op.perform w s m).value = some s' := by
  cases op with
  | start | refreshAll => cases hr
  | step => exact absurd rfl hstep
  | setInterval interval => exact absurd rfl (hset interval)
  | addPlot | setDefaultRuns | setDefaultProgram | loseReceiver => exact ⟨_, rfl⟩
  | changeSource plot source refreshNow =>
    rw [Operation.perform, changeSource]
    cases s.plots[plot]? with
    | none => exact ⟨_, rfl⟩
    | some p =>
      dsimp only
      cases refreshNow with
      | false => exact ⟨_, rfl⟩
      | true =>
        rw [if_pos rfl, Action.bind_assoc]
        obtain ⟨success, hsuccess⟩ :=
          visit_value hw { s with plots := s.plots.set plot { p with source := source } } plot m
        exact ⟨_, value_bind_eq_some.mpr ⟨success, hsuccess, rfl⟩⟩
  | setVisible visible =>
    rw [Operation.perform, setVisible]
    split
    · exact ⟨_, rfl⟩
    · cases visible with
      | false => exact ⟨_, rfl⟩
      | true =>
        rename_i hchanged
        have hhidden : s.visible = false := Bool.eq_false_iff.mpr (Ne.symm hchanged)
        have hzero : s.interval = 0 := by simpa [Operation.requests, hhidden] using hr
        rw [if_pos rfl, if_neg (not_not_intro hzero)]
        exact ⟨_, rfl⟩
  | fireTimer time =>
    rw [Operation.perform, fireTimer]
    cases hd : s.timer with
    | none => exact ⟨_, rfl⟩
    | some deadline =>
      have hlate : ¬ deadline.nanos ≤ time.nanos := by simpa [Operation.requests, hd] using hr
      dsimp only
      rw [if_neg hlate]
      exact ⟨_, rfl⟩

theorem perform_eq_none_iff (hw : w.Answers) (hs : Sound s) : (op.perform w s m).value = none ↔
    op.settles s ∧ op.shows s ∧ op.paces s ≠ 0 ∧
      Instant.bound ≤ (w.now (op.closing w s m)).1.nanos + op.paces s := by
  by_cases hr : op.requests s
  · obtain ⟨interval, timer, hprepared⟩ := Operation.prepare_eq hr
    have hinterval : (op.prepare s).interval = op.paces s := by cases op <;> first | rfl | cases hr
    have hsettles : op.settles s ↔ s.cursor = none ∧ s.plots = [] := by
      cases op with
      | setInterval | step => cases hr
      | _ => simp [Operation.settles, hr]
    have hclosing : op.closing w s m = m := Operation.closing_of_ne_step (by rintro rfl; cases hr)
    rw [perform_value_of_requests hr, beginCycle_eq_none_iff, Overflows, hinterval, hsettles, hclosing, hprepared,
      and_assoc]
  · rw [Bool.not_eq_true] at hr
    by_cases hstep : op = .step
    · subst hstep
      have hsettles : Operation.step.settles s ↔
          (∃ c, s.cursor = some c ∧ c + 1 = s.plots.length) ∧ ¬ (s.rerunRequested ∧ s.visible) := by
        cases hq : s.rerunRequested <;> simp [Operation.settles, Option.any_eq_true, hq]
      rw [hsettles, and_assoc]
      exact step_eq_none_iff hw hs
    · by_cases hset : ∃ interval, op = .setInterval interval
      · obtain ⟨interval, rfl⟩ := hset
        exact rearm_eq_none_iff.trans (and_iff_right rfl).symm
      · obtain ⟨s', hs'⟩ := exists_perform_value hw hr hstep (fun d hd => hset ⟨d, hd⟩) m
        have hnot : op.settles s = false := by
          cases op <;> first | exact absurd rfl hstep | exact absurd ⟨_, rfl⟩ hset | simp [Operation.settles, hr]
        rw [hs', hnot]
        exact ⟨nofun, fun h => absurd h.1 Bool.false_ne_true⟩

/-- **When setting the timer brings down the worker.** Beside a client that survives its calls, from every reachable
state:

* An operation fails to come to an end exactly if it goes on to the timer, updates are to go on, and one interval, as it
  is then, after what the clock shows then is more than the clock can hold. That is so whether it sets the interval,
  ends a cycle or begins one over no plots.
* So it comes to an end if the interval is counted in milliseconds, in 64 bits, and the clock has as much time left. -/
theorem timer_overflows_iff {ρ : Type} {u : Surroundings ρ} (hs : Reachable u s) (hw : w.Answers) (op : Operation)
    (m : σ) :
    ((op.perform w s m).value = none ↔
      op.settles s ∧ op.shows s ∧ op.paces s ≠ 0 ∧
        Instant.bound ≤ (w.now (op.closing w s m)).1.nanos + op.paces s) ∧
    ∀ ms : UInt64, op.paces s = milliseconds ms.toNat →
      (w.now (op.closing w s m)).1.nanos + milliseconds 0x10000000000000000 ≤ Instant.bound →
        ∃ s', (op.perform w s m).value = some s' := by
  refine ⟨perform_eq_none_iff hw hs.sound, fun ms hms htime => Option.ne_none_iff_exists'.mp fun h => ?_⟩
  obtain ⟨-, -, -, hover⟩ := (perform_eq_none_iff hw hs.sound).mp h
  have hlt : ms.toNat < 0x10000000000000000 := ms.toNat_lt
  rw [hms, milliseconds] at hover
  rw [milliseconds] at htime
  omega

/-- The longest span of whole seconds in 64 bits and nanoseconds below a second. -/
def longest : Duration := 0xFFFFFFFFFFFFFFFF * 1000000000 + 999999999

/-- The longest interval has been accepted, and the only plot is about to be visited. -/
def doomed : Scheduler := { onlyPlot with interval := longest }

theorem reachable_doomed : Reachable stillness doomed :=
  ((Reachable.fresh false false .absent).perform (.addPlot barePlot) (m := ()) rfl).perform
    (.start longest) (m := ()) rfl

/-- The step that ends its cycle does not come to an end, and neither does setting that interval again. With one of
as many milliseconds as there can be, it would. -/
theorem doomed_overflows :
    (Scheduler.step stillness doomed ()).value = none ∧ (doomed.setInterval stillness longest ()).value = none ∧
      ∃ s', (doomed.setInterval stillness (milliseconds 0xFFFFFFFFFFFFFFFF) ()).value = some s' := by
  have hanswers : stillness.Answers := fun _ _ => nofun
  refine ⟨?_, ?_, ?_⟩
  · exact (timer_overflows_iff reachable_doomed hanswers .step ()).1.mpr (by decide)
  · exact (timer_overflows_iff reachable_doomed hanswers (.setInterval longest) ()).1.mpr (by decide)
  · exact (timer_overflows_iff reachable_doomed hanswers (.setInterval _) ()).2 0xFFFFFFFFFFFFFFFF rfl (by decide)

/-- So not every span that a caller can name can be the interval: one that is too long brings down even a scheduler that
has no plots, at the beginning of time. -/
theorem not_every_interval_fits :
    ¬ ∀ (s : Scheduler) (seconds nanos : Nat), Reachable stillness s → seconds ≤ 0xFFFFFFFFFFFFFFFF →
      nanos < 1000000000 → ∃ s', (s.setInterval stillness (seconds * 1000000000 + nanos) ()).value = some s' := by
  intro h
  obtain ⟨s', hs'⟩ := h _ 0xFFFFFFFFFFFFFFFF 999999999 (.fresh false false .absent) (Nat.le_refl _) (by decide)
  have hnone : ((fresh false false .absent).setInterval stillness longest ()).value = none :=
    rearm_eq_none_iff.mpr ⟨rfl, by decide, by decide⟩
  cases hnone.symm.trans hs'

end Scheduler

end HistogramMonitor
