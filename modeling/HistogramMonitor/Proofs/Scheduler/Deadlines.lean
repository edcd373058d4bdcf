import HistogramMonitor.Proofs.Composition
import HistogramMonitor.Proofs.Scheduler.Reports

/-!
# Deadlines

A deadline is set in one place only, by reading the clock (`arm`), but from many: when the interval changes, be
it in the middle of a cycle, and when a cycle ends. It can be cleared, and it can outlive a refresh. What a
deadline amounts to between two cycles does not depend on any of this: it is one interval, the one that
holds now, after a moment at which all cycles had ended (`Timely`).

* An operation either sets the timer after all cycles that end with it, as the last thing it does, or leaves
  the cycle, the interval and the deadline as they were (`perform_timer`).
* So it keeps `Timely`, whatever the clock shows, as long as the clock does not go back (`Surroundings.Keeps`).
* From this a whole life of a scheduler is timely, however much time passes between two operations
  (`Driven.timely`).

The times at which cycles end are noted operation by operation (`endings`). They are counted by the cycles
themselves, so none is left out.
-/

namespace HistogramMonitor

variable {σ α : Type}

/-! ## Time -/

/-- The clock never goes back. Whatever happens takes the surroundings to a moment that is no earlier, and the
clock shows one in between. -/
structure Surroundings.Keeps (w : Surroundings σ) (time : σ → Nat) : Prop where
  answer : ∀ m c, time m ≤ time (w.answer m c).next
  shown : ∀ m, time m ≤ (w.now m).1.nanos
  passed : ∀ m, (w.now m).1.nanos ≤ time (w.now m).2

variable {w : Surroundings σ} {time : σ → Nat}

/-- Whatever is done takes its time, and nobody gets it back. -/
theorem Action.Built.time_le {x : Action σ α} (hx : Built w x) (hkeeps : w.Keeps time) (m : σ) :
    time m ≤ time (x m).next := by
  induction hx generalizing m with
  | pure | tell | die => exact Nat.le_refl _
  | now => exact Nat.le_trans (hkeeps.shown m) (hkeeps.passed m)
  | call c =>
    have hnext : (Action.call w c m).next = (w.answer m c).next := by
      unfold Action.call
      dsimp only
      split <;> rfl
    rw [hnext]
    exact hkeeps.answer m c
  | @bind _ _ x f _ _ hfirst hsecond =>
    rw [bind_apply]
    cases (x m).value with
    | none => exact hfirst m
    | some a => exact Nat.le_trans (hfirst m) (hsecond a _)

namespace Scheduler

open HistogramMonitor.Action

variable {s s' : Scheduler} {op : Operation} {m m₁ m' : σ} {es : List Event}

/-! ## Setting the timer -/

/-- Between two cycles, a pending deadline is one interval after what the clock showed when the surroundings
were as in `m`. The reading was the last thing that has happened, up to `m'`. -/
def TimerSet (w : Surroundings σ) (m m' : σ) (s : Scheduler) : Prop :=
  s.cursor = none → ∀ d, s.timer = some d → d.nanos = (w.now m).1.nanos + s.interval ∧ m' = (w.now m).2

/-- In the middle of a cycle nothing is said about the timer. -/
theorem timerSet_of_cycling {c : Nat} (hc : s.cursor = some c) : TimerSet w m m' s := by
  intro hnone
  rw [hc] at hnone
  cases hnone

theorem timerSet_of_rearm (h : s.rearm w m = ⟨es, m', some s'⟩) : TimerSet w m m' s' := by
  unfold rearm at h
  dsimp only at h
  intro _ d hd
  split at h
  · obtain ⟨es₁, m₁, t, es₂, hnow, hset, -⟩ := bind_eq_some h
    cases hnow
    unfold Instant.after? at hset
    by_cases hfits : (w.now m).1.nanos + s.interval < Instant.bound
    · rw [if_pos hfits] at hset
      obtain ⟨-, rfl, rfl⟩ := pure_eq_some hset
      cases hd
      exact ⟨rfl, rfl⟩
    · rw [if_neg hfits] at hset
      cases hset
  · obtain ⟨-, -, rfl⟩ := pure_eq_some h
    cases hd

theorem openCycle_next (s : Scheduler) (m : σ) : (s.openCycle m).next = m := by
  unfold openCycle
  dsimp only
  rw [tell_if_apply, report_apply]

theorem timerSet_of_followUp (h : s.followUp w m = ⟨es, m', some s'⟩) : TimerSet w m m' s' := by
  obtain ⟨es₁, m₁, s₁, es₂, hopen, hrest, -⟩ := bind_eq_some h
  obtain rfl : m₁ = m := by rw [← s.openCycle_next m, hopen]
  obtain ⟨rfl, -⟩ := openCycle_eq_some hopen
  by_cases hp : s.opened.plots = []
  · rw [if_pos hp] at hrest
    obtain ⟨es₃, m₃, s₃, es₄, hclose, hset, -⟩ := bind_eq_some hrest
    obtain ⟨fs, hclosed, -⟩ := s.opened.closeCycle_apply m₁
    rw [hclosed] at hclose
    cases hclose
    exact timerSet_of_rearm hset
  · rw [if_neg hp] at hrest
    obtain ⟨-, -, rfl⟩ := pure_eq_some hrest
    exact timerSet_of_cycling rfl

theorem timerSet_of_finishCycle (h : s.finishCycle w m = ⟨es, m', some s'⟩) : TimerSet w m m' s' := by
  obtain ⟨es₁, m₁, s₁, es₂, hclose, hrest, -⟩ := bind_eq_some h
  obtain ⟨fs, hclosed, -⟩ := s.closeCycle_apply m
  rw [hclosed] at hclose
  cases hclose
  split at hrest
  · dsimp only at hrest
    split at hrest
    · exact timerSet_of_followUp hrest
    · exact timerSet_of_rearm hrest
  · exact timerSet_of_rearm hrest

theorem timerSet_of_beginCycle (h : s.beginCycle w m = ⟨es, m', some s'⟩) : TimerSet w m m' s' := by
  unfold beginCycle at h
  by_cases hc : s.cycling
  · rw [if_pos hc] at h
    obtain ⟨-, -, rfl⟩ := pure_eq_some h
    obtain ⟨c, hcursor⟩ := Option.isSome_iff_exists.mp hc
    exact timerSet_of_cycling hcursor
  · rw [if_neg hc] at h
    obtain ⟨es₁, m₁, s₁, es₂, hopen, hrest, -⟩ := bind_eq_some h
    obtain rfl : m₁ = m := by rw [← s.openCycle_next m, hopen]
    obtain ⟨rfl, -⟩ := openCycle_eq_some hopen
    split at hrest
    · exact timerSet_of_finishCycle hrest
    · obtain ⟨-, -, rfl⟩ := pure_eq_some hrest
      exact timerSet_of_cycling rfl

/-! ## What an operation does to the timer -/

/-- How the surroundings are after the visit that is due. -/
def afterVisit (w : Surroundings σ) (s : Scheduler) (m : σ) : σ :=
  match s.cursor with
  | some c => (s.visit w c m).next
  | none => m

theorem afterVisit_of_idle (hc : s.cursor = none) : s.afterVisit w m = m := by
  rw [afterVisit, hc]

theorem afterVisit_eq {c : Nat} {success : Option Bool} (hc : s.cursor = some c)
    (h : s.visit w c m = ⟨es, m', success⟩) : s.afterVisit w m = m' := by
  rw [afterVisit, hc]
  exact congrArg Outcome.next h

/-- How the surroundings are when cycles end and the timer is set: by then a step has done its visit. -/
def Operation.closing (w : Surroundings σ) : Operation → Scheduler → σ → σ
  | step, s, m => s.afterVisit w m
  | _, _, m => m

theorem Operation.closing_of_ne_step (hop : op ≠ .step) : op.closing w s m = m := by
  cases op with
  | step => exact absurd rfl hop
  | _ => rfl

/-- The cycle and the interval stay as they were, and no deadline is set. -/
structure TimerKept (s s' : Scheduler) : Prop where
  cursor : s'.cursor = s.cursor
  cycleCount : s'.cycleCount = s.cycleCount
  interval : s'.interval = s.interval
  timer : ∀ d, s'.timer = some d → s.timer = some d

theorem TimerKept.refl (s : Scheduler) : TimerKept s s := ⟨rfl, rfl, rfl, fun _ hd => hd⟩

theorem step_timer (hs : Sound s) (h : s.step w m = ⟨es, m', some s'⟩) :
    TimerSet w (s.afterVisit w m) m' s' ∨ TimerKept s s' := by
  cases hc : s.cursor with
  | none =>
    obtain ⟨-, -, rfl⟩ := step_eq_some_of_idle hc h
    exact Or.inr (.refl s')
  | some c =>
    obtain ⟨es₁, m₁, success, es₂, hvisit, -, -, hend⟩ := step_eq_some hc (hs.registered c hc) h
    rw [afterVisit_eq hc hvisit]
    rcases hend with ⟨-, rfl, -⟩ | ⟨-, es₃, hfinish, -⟩
    · exact Or.inl (timerSet_of_cycling rfl)
    · exact Or.inl (timerSet_of_finishCycle hfinish)

theorem setVisible_timer {visible : Bool} (hr : (Operation.setVisible visible).requests s = false)
    (h : s.setVisible w visible m = ⟨es, m', some s'⟩) : TimerKept s s' := by
  unfold setVisible at h
  by_cases hsame : visible = s.visible
  · rw [if_pos hsame] at h
    obtain ⟨-, -, rfl⟩ := pure_eq_some h
    exact .refl s'
  · rw [if_neg hsame] at h
    cases visible with
    | true =>
      have hidden : s.visible = false := by simpa using Ne.symm hsame
      have hzero : s.interval = 0 := by simpa [Operation.requests, hidden] using hr
      rw [if_pos rfl, if_neg fun hi => hi hzero] at h
      obtain ⟨-, -, rfl⟩ := pure_eq_some h
      exact ⟨rfl, rfl, rfl, fun _ hd => hd⟩
    | false =>
      rw [if_neg Bool.false_ne_true] at h
      obtain ⟨es₁, m₁, u, es₂, -, hpure, -⟩ := bind_eq_some h
      obtain ⟨-, -, rfl⟩ := pure_eq_some hpure
      exact ⟨rfl, rfl, rfl, by rintro _ ⟨⟩⟩

/-- An operation either sets the timer when the cycles that end with it have ended, or leaves the cycle and the
deadline as they were. -/
theorem perform_timer (hs : Sound s) (h : op.perform w s m = ⟨es, m', some s'⟩) :
    TimerSet w (op.closing w s m) m' s' ∨ TimerKept s s' := by
  by_cases hr : op.requests s
  · obtain ⟨es', -, hbegin⟩ := perform_eq_some_of_requests hr h
    have hop : op ≠ .step := by
      rintro rfl
      cases hr
    rw [Operation.closing_of_ne_step hop]
    exact Or.inl (timerSet_of_beginCycle hbegin)
  · rw [Bool.not_eq_true] at hr
    cases op with
    | start | refreshAll => cases hr
    | step => exact step_timer hs h
    | setInterval interval => exact Or.inl (timerSet_of_rearm h)
    | setVisible visible => exact Or.inr (setVisible_timer hr h)
    | fireTimer t =>
      obtain ⟨es₁, m₁, ⟨s₁, fired⟩, es₂, hfire, hpure, -⟩ := bind_eq_some h
      obtain ⟨-, -, rfl⟩ := pure_eq_some hpure
      obtain ⟨-, hsame, -⟩ := fireTimer_eq_some_of_aside hr hfire
      rw [hsame]
      exact Or.inr (.refl s)
    | changeSource plot source refreshNow =>
      obtain ⟨es₁, m₁, r, es₂, hchange, hpure, -⟩ := bind_eq_some h
      obtain ⟨-, -, hs'⟩ := pure_eq_some hpure
      rw [hs']
      obtain ⟨-, rfl | ⟨p, rfl⟩⟩ := changeSource_eq_some hchange
      · exact Or.inr (.refl s)
      · exact Or.inr ⟨rfl, rfl, rfl, fun _ hd => hd⟩
    | addPlot | setDefaultRuns | setDefaultProgram | loseReceiver =>
      obtain ⟨-, -, rfl⟩ := pure_eq_some h
      exact Or.inr ⟨rfl, rfl, rfl, fun _ hd => hd⟩

/-! ## The time that an operation takes -/

theorem Operation.perform_built (w : Surroundings σ) (op : Operation) (s : Scheduler) :
    Built w (op.perform w s) := by
  cases op with
  | addPlot | setDefaultRuns | setDefaultProgram | loseReceiver => exact .pure _
  | changeSource plot source refreshNow =>
    exact .bind (changeSource_built w plot source refreshNow s) fun _ => .pure _
  | start | refreshAll => exact beginCycle_built w _
  | setInterval interval => exact rearm_built w _
  | setVisible visible => exact setVisible_built w visible s
  | fireTimer t => exact .bind (fireTimer_built w t s) fun _ => .pure _
  | step => exact step_built w s

theorem time_le_afterVisit (hkeeps : w.Keeps time) (s : Scheduler) (m : σ) :
    time m ≤ time (s.afterVisit w m) := by
  cases hc : s.cursor with
  | none => exact Nat.le_of_eq (congrArg time (afterVisit_of_idle hc).symm)
  | some c =>
    rw [afterVisit_eq hc rfl]
    exact (visit_built w s c).time_le hkeeps m

theorem afterVisit_le (hkeeps : w.Keeps time) (hs : Sound s) (h : s.step w m = ⟨es, m', some s'⟩) :
    time (s.afterVisit w m) ≤ time m' := by
  cases hc : s.cursor with
  | none =>
    obtain ⟨-, rfl, -⟩ := step_eq_some_of_idle hc h
    exact Nat.le_of_eq (congrArg time (afterVisit_of_idle hc))
  | some c =>
    obtain ⟨es₁, m₁, success, es₂, hvisit, -, -, hend⟩ := step_eq_some hc (hs.registered c hc) h
    rw [afterVisit_eq hc hvisit]
    rcases hend with ⟨-, -, -, rfl⟩ | ⟨-, es₃, hfinish, -⟩
    · exact Nat.le_refl _
    · have hle := (finishCycle_built w (s.visited c success)).time_le hkeeps m₁
      rwa [hfinish] at hle

/-- Cycles end while the operation is under way. -/
theorem closing_between (hkeeps : w.Keeps time) (hs : Sound s)
    (h : op.perform w s m = ⟨es, m', some s'⟩) :
    time m ≤ time (op.closing w s m) ∧ time (op.closing w s m) ≤ time m' := by
  by_cases hop : op = .step
  · subst hop
    exact ⟨time_le_afterVisit hkeeps s m, afterVisit_le hkeeps hs h⟩
  · have hle := (op.perform_built w s).time_le hkeeps m
    rw [h] at hle
    rw [Operation.closing_of_ne_step hop]
    exact ⟨Nat.le_refl _, hle⟩

/-! ## The ends of cycles -/

/-- The cycles that have ended. -/
def finished (s : Scheduler) : Nat := s.cycleCount - s.cycling.toNat

/-- The times at which cycles have ended from one state to another, if they did so at `t`. -/
def endings (s s' : Scheduler) (t : Nat) : List Nat := List.replicate (s'.finished - s.finished) t

/-- Every cycle that has begun has ended or is running. -/
theorem count_endings (hs : Sound s) (h : op.perform w s m = ⟨es, m', some s'⟩) {n : Nat}
    (hcount : n + s.cycling.toNat = s.cycleCount) (t : Nat) :
    n + (endings s s' t).length + s'.cycling.toNat = s'.cycleCount := by
  have hoccurs : Turn.Occurs w ⟨op, s, es, s'⟩ := ⟨m, m', h⟩
  obtain ⟨sizes, haccounts⟩ := (hoccurs.kind hs).accounts
  have hnumber : sizes.length + s'.cycling.toNat + s.cycleCount = s'.cycleCount + s.cycling.toNat :=
    haccounts.number
  rw [endings, List.length_replicate, finished, finished]
  omega

theorem TimerKept.endings_eq_nil (h : TimerKept s s') (t : Nat) : endings s s' t = [] := by
  rw [endings, finished, finished, cycling, cycling, h.cursor, h.cycleCount, Nat.sub_self]
  rfl

/-- What holds of a scheduler at a moment, if cycles have ended at the times `ended`. -/
structure Timely (moment : Nat) (ended : List Nat) (s : Scheduler) : Prop where
  sound : Sound s
  /-- every cycle that has begun has ended or is running -/
  count : ended.length + s.cycling.toNat = s.cycleCount
  past : ∀ e ∈ ended, e ≤ moment
  /-- between two cycles, a deadline is one interval after a time when all cycles had ended -/
  deadline : s.cursor = none → ∀ d, s.timer = some d →
    ∃ t ≤ moment, d.nanos = t + s.interval ∧ ∀ e ∈ ended, e ≤ t

/-- It goes on to hold while time passes. -/
theorem Timely.later {moment moment' : Nat} {ended : List Nat} (h : Timely moment ended s)
    (hle : moment ≤ moment') : Timely moment' ended s where
  sound := h.sound
  count := h.count
  past e he := Nat.le_trans (h.past e he) hle
  deadline hc d hd := by
    obtain ⟨t, ht, hdeadline, hended⟩ := h.deadline hc d hd
    exact ⟨t, Nat.le_trans ht hle, hdeadline, hended⟩

/-- A timer that is due has waited for at least one interval since every cycle that has ended. -/
theorem Timely.due {moment : Nat} {ended : List Nat} {t : Instant} (h : Timely moment ended s)
    (hc : s.cursor = none) (hdue : (Operation.fireTimer t).requests s) :
    ∀ e ∈ ended, e + s.interval ≤ t.nanos := by
  intro e he
  cases hd : s.timer with
  | none => simp [Operation.requests, hd] at hdue
  | some d =>
    have hle : d.nanos ≤ t.nanos := by simpa [Operation.requests, hd] using hdue
    obtain ⟨r, -, hdeadline, hended⟩ := h.deadline hc d hd
    have := hended e he
    omega

/-- **An operation keeps deadlines timely**, if the clock does not go back. -/
theorem Timely.perform {ended : List Nat} (hkeeps : w.Keeps time) (hs : Timely (time m) ended s)
    (h : op.perform w s m = ⟨es, m', some s'⟩) :
    Timely (time m') (ended ++ endings s s' (time (op.closing w s m))) s' := by
  obtain ⟨hbegun, hdone⟩ := closing_between hkeeps hs.sound h
  have hbefore : ∀ e ∈ ended ++ endings s s' (time (op.closing w s m)), e ≤ time (op.closing w s m) := by
    intro e he
    rcases List.mem_append.mp he with he | he
    · exact Nat.le_trans (hs.past e he) hbegun
    · exact Nat.le_of_eq (List.eq_of_mem_replicate he)
  refine ⟨hs.sound.perform h, ?_, fun e he => Nat.le_trans (hbefore e he) hdone, fun hc d hd => ?_⟩
  · rw [List.length_append]
    exact count_endings hs.sound h hs.count _
  · rcases perform_timer hs.sound h with hset | hkept
    · obtain ⟨hdeadline, rfl⟩ := hset hc d hd
      refine ⟨_, hkeeps.passed _, hdeadline, fun e he => ?_⟩
      exact Nat.le_trans (hbefore e he) (hkeeps.shown _)
    · obtain ⟨t, ht, hdeadline, hended⟩ := hs.deadline (hkept.cursor ▸ hc) d (hkept.timer d hd)
      rw [hkept.endings_eq_nil, List.append_nil, hkept.interval]
      exact ⟨t, Nat.le_trans ht (Nat.le_trans hbegun hdone), hdeadline, hended⟩

/-! ## The life of a scheduler -/

/-- The scheduler has been driven from its beginning up to here, where the surroundings are as in `m`, and
cycles have ended at the times `ended`. Between two operations time may pass. -/
inductive Driven (w : Surroundings σ) (time : σ → Nat) : Scheduler → σ → List Nat → Prop
  | fresh (announcesStart announcesComplete : Bool) (link : StatusLink) (m : σ) :
      Driven w time (fresh announcesStart announcesComplete link) m []
  | perform {s s' : Scheduler} {m m₁ m' : σ} {es : List Event} {ended : List Nat} (op : Operation) :
      Driven w time s m ended → time m ≤ time m₁ → op.perform w s m₁ = ⟨es, m', some s'⟩ →
        Driven w time s' m' (ended ++ endings s s' (time (op.closing w s m₁)))

variable {ended : List Nat}

/-- **Deadlines are timely in the whole life of a scheduler.** -/
theorem Driven.timely (hkeeps : w.Keeps time) (h : Driven w time s m ended) : Timely (time m) ended s := by
  induction h with
  | fresh announcesStart announcesComplete link m =>
    exact ⟨sound_fresh _ _ _, rfl, List.forall_mem_nil _, nofun⟩
  | perform op _ hlater hop ih => exact (ih.later hlater).perform hkeeps hop

theorem Driven.stepWhileCycling {fuel : Nat} : ∀ {n k : Nat} {s : Scheduler} {m : σ} {es : List Event}
    {ended : List Nat}, Driven w time s m ended →
      stepWhileCycling w fuel n s m = ⟨es, m', some (s', k)⟩ →
        ∃ more, Driven w time s' m' (ended ++ more) := by
  induction fuel with
  | zero =>
    intro n k s m es ended hs h
    obtain ⟨-, rfl, heq⟩ := pure_eq_some h
    obtain ⟨rfl, -⟩ := Prod.mk.inj heq
    exact ⟨[], (List.append_nil ended).symm ▸ hs⟩
  | succ fuel ih =>
    intro n k s m es ended hs h
    obtain ⟨es₁, m₁, s₁, es₂, hstep, hrest, -⟩ := bind_eq_some h
    have hs₁ := hs.perform .step (Nat.le_refl _) hstep
    by_cases hc : s₁.cycling
    · rw [if_pos hc] at hrest
      obtain ⟨more, hmore⟩ := ih hs₁ hrest
      exact ⟨_, List.append_assoc .. ▸ hmore⟩
    · rw [if_neg hc] at hrest
      obtain ⟨-, rfl, heq⟩ := pure_eq_some hrest
      obtain ⟨rfl, -⟩ := Prod.mk.inj heq
      exact ⟨_, hs₁⟩

/-- A whole cycle is driven like any other. -/
theorem Driven.runCycle (hs : Driven w time s m ended) (hlater : time m ≤ time m₁)
    (h : s.runCycle w m₁ = ⟨es, m', some s'⟩) : ∃ more, Driven w time s' m' (ended ++ more) := by
  obtain ⟨es₁, m₂, s₁, es₂, hbegin, hrest, -⟩ := bind_eq_some h
  obtain ⟨es₃, m₃, ⟨s₃, k⟩, es₄, hdrain, hpure, -⟩ := bind_eq_some hrest
  obtain ⟨-, rfl, rfl⟩ := pure_eq_some hpure
  obtain ⟨more, hmore⟩ := (hs.perform .refreshAll hlater hbegin).stepWhileCycling hdrain
  exact ⟨_, List.append_assoc .. ▸ hmore⟩

end Scheduler

end HistogramMonitor
