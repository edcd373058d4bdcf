import Mathlib.Data.List.Basic
import HistogramMonitor.Proofs.Scheduler.Blocks
import HistogramMonitor.Proofs.Scheduler.Drawings
import HistogramMonitor.Proofs.Scheduler.Endings
import HistogramMonitor.Proofs.Scheduler.Requests
import HistogramMonitor.Proofs.Updater.Timing

/-!
# A worker that is left alone

Some tell the worker to start, in the end to stop, and nothing in between. Then there is one cycle after the
other over the same plots. What the worker reports is accounted for by its scheduler's turns
(`Scheduler.Accounted`), one for each errand; every errand reports something, except a wake-up that is too early;
and as long as nobody has told it to stop and the clock has not run out, the worker neither stops nor dies. All this
is kept by every move (`Underway.move`), and by whatever happens to time and files between two moves.

So it is stuck only where it has nothing left to do: after the first cycle, if it was told to start without an
interval (`Underway.goes_on`).
-/

namespace HistogramMonitor

variable {β σ : Type}

/-! ## Calm schedulers -/

namespace Scheduler

variable {w : Surroundings σ} {x : Settings} {interval : Duration} {s s' : Scheduler} {c : Nat} {m m' : σ}
  {es : List Event}

/-- A scheduler with these settings, and with a receiver for its statuses, before anything is done with it. -/
def ready (x : Settings) : Scheduler :=
  { plots := x.plots, defaultRuns := x.defaultRuns, defaultProgram := x.defaultProgram, statusLink := .attached }

/-- Somebody can see the monitor, somebody receives its statuses, and nobody has asked for anything. -/
structure Calm (x : Settings) (interval : Duration) (s : Scheduler) : Prop where
  settings : s.settings = x
  interval : s.interval = interval
  visible : s.visible = true
  link : s.statusLink = .attached
  unasked : s.rerunRequested = false

theorem sound_ready (x : Settings) : Sound (ready x) where
  queued _ := rfl
  pending h := (Bool.false_ne_true h).elim
  registered _ h := by cases h
  armed _ h := absurd rfl h.2

theorem Calm.beginCycle (hs : s.Calm x interval) (hc : s.cursor = none)
    (h : s.beginCycle w m = ⟨es, m', some s'⟩) : s'.Calm x interval := by
  have hlink : s.statusLink.noticed = .attached := by rw [hs.link]; rfl
  rcases beginCycle_eq_some (fun _ => hs.unasked) h with ⟨hsome, -⟩ | ⟨-, -, rfl, -⟩ | ⟨-, -, -, timer, rfl, -⟩
  · rw [hc] at hsome
    cases hsome
  · exact ⟨hs.settings, hs.interval, hs.visible, hlink, hs.unasked⟩
  · exact ⟨hs.settings, hs.interval, hs.visible, hlink, hs.unasked⟩

theorem Calm.step (hs : s.Calm x interval) (hsound : Sound s) (hc : s.cursor = some c)
    (h : s.step w m = ⟨es, m', some s'⟩) : s'.Calm x interval := by
  obtain ⟨es₁, m₁, success, es₂, -, -, -, ⟨-, rfl, -⟩ | ⟨-, es₃, hfinish, -⟩⟩ :=
    step_eq_some hc (hsound.registered c hc) h
  · exact ⟨hs.settings, hs.interval, hs.visible, visited_attached c success hs.link, hs.unasked⟩
  · rcases finishCycle_eq_some (s := s.visited c success) (hsound.plots_ne_nil hc) hfinish with
      ⟨hr, -⟩ | ⟨-, -, timer, rfl, -⟩
    · rw [show (s.visited c success).rerunRequested = s.rerunRequested from rfl, hs.unasked] at hr
      cases hr
    · exact ⟨hs.settings, hs.interval, hs.visible, visited_attached c success hs.link, rfl⟩

/-- Whether the visit of a turn failed, if it visits a plot for a cycle. -/
def Turn.failed? (t : Turn) : Option Bool := t.visit?.map fun _ => t.failed

theorem Turn.filterMap_progress (t : Turn) : t.progress.filterMap Progress.failed? = t.failed?.toList := by
  rw [Turn.progress, List.filterMap_append, Turn.failed?]
  cases t.visit? <;> cases t.begins <;> rfl

/-- All that there is to report about a turn names the plots that are registered after it. -/
theorem Turn.plots_of_mem_progress (t : Turn) : ∀ e ∈ t.progress, e.plots = t.after.plots.length := by
  intro e he
  rcases List.mem_append.mp he with he | he
  · obtain ⟨c, -, rfl⟩ := Option.map_eq_some_iff.mp (Option.mem_toList.mp he)
    rfl
  · split at he
    · rw [List.mem_singleton.mp he]
      rfl
    · cases he

end Scheduler

/-! ## What a worker comes to -/

/-- Whether an event wipes a plot. -/
def Event.wipes : Event → Bool
  | .clear _ => true
  | _ => false

/-- Whether the visit failed for which the worker has set out, if it is one for a cycle: then it wiped a plot. -/
def Move.failed? (t : Move β) : Option Bool :=
  if t.errand? = some .visit then some (t.events.any Event.wipes) else none

/-- For each visit of a plot for a cycle, whether it failed. -/
def visitsOf (moves : List (Move β)) : List Bool := moves.filterMap Move.failed?

/-- The statuses that the worker has reported. -/
def reportsOf (moves : List (Move β)) : List CycleStatus := statuses (moves.flatMap (·.events))

/-- Somebody has told the worker to stop. -/
def Dismissed (moves : List (Move β)) : Prop := ∃ t ∈ moves, t.deed = .post .shutdown

/-- The worker was woken before its deadline. -/
def Move.TooEarly (w : Surroundings β) (t : Move β) : Prop :=
  t.errand? = some .wake ∧ ∃ s deadline, t.before.updater.worker = .running s ∧ s.timer = some deadline ∧
    (w.now t.before.updater.desk.outside).1.nanos < deadline.nanos

section Append

variable (moves : List (Move β)) (t : Move β)

theorem visitsOf_concat : visitsOf (moves ++ [t]) = visitsOf moves ++ t.failed?.toList := by
  rw [visitsOf, List.filterMap_append]
  refine congrArg (visitsOf moves ++ ·) ?_
  cases h : t.failed? <;> simp [h]

theorem reportsOf_concat : reportsOf (moves ++ [t]) = reportsOf moves ++ statuses t.events := by
  rw [reportsOf, List.flatMap_append, List.flatMap_singleton, statuses_append]
  rfl

theorem dismissed_concat_iff : Dismissed (moves ++ [t]) ↔ Dismissed moves ∨ t.deed = .post .shutdown := by
  unfold Dismissed
  simp [or_and_right, exists_or]

end Append

/-- The scene at another time, and with other things around it. -/
def Scene.movedTo (outside : β) (x : Scene β) : Scene β :=
  { x with updater := { x.updater with desk := { x.updater.desk with outside := outside } } }

/-- Nobody sends anything to the worker while it works. -/
abbrev Surroundings.silent (w : Surroundings β) : Surroundings (Desk β) := w.withMail fun _ _ => []

section Failing

open Scheduler

variable {w : Surroundings σ} {s s' : Scheduler} {c : Nat} {m m' : σ} {es : List Event}

/-- A step wipes no plot but the one that it visits. -/
theorem any_wipes_of_step (hc : s.cursor = some c) (h : s.step w m = ⟨es, m', some s'⟩) :
    some (es.any Event.wipes) = Turn.failed? ⟨.step, s, es, s'⟩ := by
  have hvisit : Turn.visit? ⟨.step, s, es, s'⟩ = some c := Turn.visit?_eq_some rfl hc
  have htarget : ∀ e ∈ es, e.wipes = decide (e = .clear c) := by
    intro e he
    have htarget := step_targets w s m e (by rw [h]; exact he)
    cases e with
    | clear p =>
      obtain rfl := Option.some.inj (hc.symm.trans (htarget p rfl))
      simp [Event.wipes]
    | _ => simp [Event.wipes]
  have hany : es.any Event.wipes = decide (.clear c ∈ es) := by
    rw [Bool.eq_iff_iff, List.any_eq_true, decide_eq_true_iff]
    refine ⟨fun ⟨e, he, hwipes⟩ => ?_, fun he => ⟨_, he, rfl⟩⟩
    rw [htarget e he, decide_eq_true_iff] at hwipes
    exact hwipes ▸ he
  rw [Turn.failed?, Turn.failed, hvisit, hany]
  rfl

end Failing

/-! ## The invariant -/

open Scheduler in
/-- What a scheduler is like whose worker has these commands to serve: it is to be started, or it was. -/
inductive Stage (x : Settings) (interval : Duration) : Scheduler → List Command → Prop
  | waiting : Stage x interval (ready x) [.start interval]
  | going {s : Scheduler} (calm : s.Calm x interval) (begun : 0 < s.cycleCount) : Stage x interval s []

/-- How far a worker has come, after these moves, that is left alone. -/
structure Underway (w : Surroundings β) (x : Settings) (interval : Duration) (moves : List (Move β))
    (y : Scene β) (turns : List Scheduler.Turn) (s : Scheduler) : Prop where
  worker : y.updater.worker = .running s ∨ (y.updater.worker = .stopped ∧ Dismissed moves)
  dismissed : .shutdown ∈ y.pending → Dismissed moves
  stage : Stage x interval s (commands y.pending)
  sound : Scheduler.Sound s
  visiting : y.errand = some .visit → s.cycling
  waking : y.errand = some .wake → ¬ s.cycling ∧ s.timer.isSome
  /-- the turns of the scheduler account for what was reported -/
  accounted : Scheduler.Accounted turns s
  plots : ∀ t ∈ turns, t.after.plots.length = x.plots.length
  reports : reportsOf moves = statuses (turns.flatMap (·.events))
  visits : visitsOf moves = turns.filterMap Scheduler.Turn.failed?
  /-- only who is woken too early has nothing to report -/
  busy : ∀ t ∈ moves, t.errand? ≠ none → statuses t.events ≠ [] ∨ t.TooEarly w

namespace Underway

open Scheduler HistogramMonitor.Action

variable {w : Surroundings β} {x : Settings} {interval : Duration} {moves : List (Move β)} {y : Scene β}
  {turns : List Turn} {s s' : Scheduler}

theorem running {s' : Scheduler} (h : Underway w x interval moves y turns s)
    (hy : y.updater.worker = .running s') : s' = s := by
  rcases h.worker with hs | ⟨hstopped, -⟩
  · exact Worker.running.inj (hy.symm.trans hs)
  · cases hy.symm.trans hstopped

/-- Nothing changes for the worker while time passes and files change. -/
theorem movedTo (h : Underway w x interval moves y turns s) (outside : β) :
    Underway w x interval moves (y.movedTo outside) turns s where
  worker := h.worker
  dismissed := h.dismissed
  stage := h.stage
  sound := h.sound
  visiting := h.visiting
  waking := h.waking
  accounted := h.accounted
  plots := h.plots
  reports := h.reports
  visits := h.visits
  busy := h.busy

/-- A move with which nothing is reported, and which leaves the scheduler alone. -/
theorem aside {t : Move β} (h : Underway w x interval moves t.before turns s) (hevents : t.events = [])
    (hnone : t.errand? = none)
    (hworker : t.after.updater.worker = .running s ∨
      (t.after.updater.worker = .stopped ∧ Dismissed (moves ++ [t])))
    (hdismissed : .shutdown ∈ t.after.pending → Dismissed (moves ++ [t]))
    (hcommands : commands t.after.pending = commands t.before.pending)
    (hvisiting : t.after.errand = some .visit → s.cycling)
    (hwaking : t.after.errand = some .wake → ¬ s.cycling ∧ s.timer.isSome) :
    Underway w x interval (moves ++ [t]) t.after turns s where
  worker := hworker
  dismissed := hdismissed
  stage := hcommands ▸ h.stage
  sound := h.sound
  visiting := hvisiting
  waking := hwaking
  accounted := h.accounted
  plots := h.plots
  reports := by
    rw [reportsOf_concat, hevents, statuses_nil, List.append_nil]
    exact h.reports
  visits := by
    have hquiet : t.failed? = none := by
      rw [Move.failed?, hnone]
      rfl
    rw [visitsOf_concat, hquiet, Option.toList_none, List.append_nil]
    exact h.visits
  busy := List.forall_mem_append.mpr
    ⟨h.busy, List.forall_mem_singleton.mpr fun hsome => absurd hnone hsome⟩

/-- An errand from which the worker returns is a turn of the scheduler. -/
theorem turn {errand : Errand} {op : Operation} {d d' m : Desk β} {es : List Event}
    (h : Underway w x interval moves ⟨⟨.running s, d⟩, some errand⟩ turns s)
    (hop : op.perform w.silent s m = ⟨es, d', some s'⟩) (hstays : op ≠ .loseReceiver)
    (hlink : s.statusLink = .attached) (hcalm : s'.Calm x interval) (hbegun : 0 < s'.cycleCount)
    (hmailbox : d'.mailbox = d.mailbox) (hcommands : commands d.mailbox.queue = [])
    (hfailed : Move.failed? ⟨.work, ⟨⟨.running s, d⟩, some errand⟩, es, ⟨⟨.running s', d'⟩, none⟩⟩ =
      Turn.failed? ⟨op, s, es, s'⟩)
    (hbusy : statuses es ≠ [] ∨ Move.TooEarly w
      ⟨.work, ⟨⟨.running s, d⟩, some errand⟩, es, ⟨⟨.running s', d'⟩, none⟩⟩) :
    Underway w x interval (moves ++ [⟨.work, ⟨⟨.running s, d⟩, some errand⟩, es, ⟨⟨.running s', d'⟩, none⟩⟩])
      ⟨⟨.running s', d'⟩, none⟩ (turns ++ [⟨op, s, es, s'⟩]) s' := by
  have ht : Turn.Occurs w.silent ⟨op, s, es, s'⟩ := ⟨m, d', hop⟩
  have hpending : Scene.pending ⟨⟨.running s', d'⟩, none⟩ = d.mailbox.queue := congrArg Mailbox.queue hmailbox
  refine ⟨Or.inl rfl, fun hstop => ?_, ?_, ht.sound h.sound, by rintro ⟨⟩, by rintro ⟨⟩, ?_, ?_, ?_, ?_, ?_⟩
  · rw [hpending] at hstop
    obtain ⟨u, hu, hdeed⟩ := h.dismissed (List.mem_append_right _ hstop)
    exact ⟨u, List.mem_append_left _ hu, hdeed⟩
  · rw [hpending, hcommands]
    exact .going hcalm hbegun
  · exact Accounted.turn (t := ⟨op, s, es, s'⟩) h.accounted (ht.kind h.sound) (ht.reports h.sound hlink hstays)
      (ht.frame h.sound).plots
  · refine List.forall_mem_append.mpr ⟨h.plots, List.forall_mem_singleton.mpr ?_⟩
    exact congrArg (fun x : Settings => x.plots.length) hcalm.settings
  · rw [reportsOf_concat, h.reports, List.flatMap_append, List.flatMap_singleton, statuses_append]
  · rw [visitsOf_concat, h.visits, List.filterMap_append, hfailed]
    refine congrArg (_ ++ ·) ?_
    cases hf : Turn.failed? ⟨op, s, es, s'⟩ <;> simp [hf]
  · exact List.forall_mem_append.mpr ⟨h.busy, List.forall_mem_singleton.mpr fun _ => hbusy⟩

/-! ### Errands -/

/-- What such a worker can have set out to do. -/
inductive Task (x : Settings) (interval : Duration) : Errand → Scheduler → Prop
  | start : Task x interval (.serve (.start interval)) (ready x)
  | visit {s : Scheduler} {c : Nat} (calm : s.Calm x interval) (begun : 0 < s.cycleCount)
      (running : s.cursor = some c) : Task x interval .visit s
  | wake {s : Scheduler} {deadline : Instant} (calm : s.Calm x interval) (begun : 0 < s.cycleCount)
      (idle : s.cursor = none) (armed : s.timer = some deadline) : Task x interval .wake s

theorem task {errand : Errand} {d : Desk β} (h : Underway w x interval moves ⟨⟨.running s, d⟩, some errand⟩ turns s) :
    Task x interval errand s ∧ commands d.mailbox.queue = [] := by
  obtain ⟨hstage, hvisiting, hwaking⟩ := And.intro h.stage (And.intro h.visiting h.waking)
  cases errand with
  | serve c =>
    change Stage x interval s (c :: commands d.mailbox.queue) at hstage
    generalize commands d.mailbox.queue = rest at hstage ⊢
    cases hstage with
    | waiting => exact ⟨.start, rfl⟩
  | visit =>
    change Stage x interval s (commands d.mailbox.queue) at hstage
    obtain ⟨c, hc⟩ := Option.isSome_iff_exists.mp (hvisiting rfl)
    generalize commands d.mailbox.queue = rest at hstage ⊢
    cases hstage with
    | waiting => cases hc
    | going calm begun => exact ⟨.visit calm begun hc, rfl⟩
  | wake =>
    change Stage x interval s (commands d.mailbox.queue) at hstage
    obtain ⟨hidle, harmed⟩ := hwaking rfl
    obtain ⟨deadline, hd⟩ := Option.isSome_iff_exists.mp harmed
    generalize commands d.mailbox.queue = rest at hstage ⊢
    cases hstage with
    | waiting => cases hd
    | going calm begun => exact ⟨.wake calm begun (not_cycling_iff.mp hidle) hd, rfl⟩

/-- Only the clock can bring such a worker down. -/
theorem Task.runsOut {w : Surroundings σ} {errand : Errand} {m m' : σ} {es : List Event} (h : Task x interval errand s)
    (hw : w.Answers) (hs : Sound s) (done : errand.action w s m = ⟨es, m', none⟩) : ∃ m₁, w.RunsOut interval m₁ m' := by
  cases h with
  | start => exact ⟨m, runsOut_of_beginCycle (s := { ready x with interval := interval, timer := none }) done⟩
  | visit calm begun hc =>
    obtain ⟨m₁, hout⟩ := runsOut_of_step hw hc (hs.registered _ hc) done
    exact ⟨m₁, calm.interval ▸ hout⟩
  | wake calm =>
    obtain ⟨_, hwoken⟩ := bind_eq_none_of_eq (rfl : Action.now w m = ⟨[], (w.now m).2, some (w.now m).1⟩) done
    rcases bind_eq_none hwoken with hfire | ⟨_, _, _, _, -, hpure⟩
    · exact ⟨_, calm.interval ▸ runsOut_of_fireTimer hfire⟩
    · cases hpure

/-- The worker returns from an errand, and is underway. -/
theorem returns {errand : Errand} {d d' : Desk β} {es : List Event}
    (h : Underway w x interval moves ⟨⟨.running s, d⟩, some errand⟩ turns s)
    (done : errand.action w.silent s d = ⟨es, d', some s'⟩) :
    ∃ turns, Underway w x interval
      (moves ++ [⟨.work, ⟨⟨.running s, d⟩, some errand⟩, es, ⟨⟨.running s', d'⟩, none⟩⟩])
      ⟨⟨.running s', d'⟩, none⟩ turns s' := by
  have hmailbox : d'.mailbox = d.mailbox := by
    have hkept := (errand.action_built w.silent s).mailbox_eq d
    rwa [done] at hkept
  obtain ⟨htask, hcommands⟩ := h.task
  cases htask with
  | start =>
    have hop : Operation.perform w.silent (.start interval) (ready x) d = ⟨es, d', some s'⟩ := done
    have hreport := statuses_of_requests (w := w.silent) (s := ready x) rfl (fun _ => rfl)
      (rfl : (Operation.start interval).requests (ready x)) d
    rw [hop] at hreport
    have ht : Turn.Occurs w.silent ⟨.start interval, ready x, es, s'⟩ := ⟨d, d', hop⟩
    have hcount := (ht.kind h.sound).count_of_requests rfl rfl
    have hcalm : Calm x interval { ready x with interval := interval, timer := none } := ⟨rfl, rfl, rfl, rfl, rfl⟩
    have hbegun : 0 < s'.cycleCount := hcount.symm ▸ Nat.succ_pos _
    exact ⟨_, h.turn hop (by rintro ⟨⟩) rfl (hcalm.beginCycle rfl hop) hbegun hmailbox hcommands rfl
      (Or.inl (hreport ▸ List.cons_ne_nil _ _))⟩
  | visit calm begun hc =>
    have hop : Operation.perform w.silent .step s d = ⟨es, d', some s'⟩ := done
    have ht : Turn.Occurs w.silent ⟨.step, s, es, s'⟩ := ⟨d, d', hop⟩
    have hvisit : Turn.visit? ⟨.step, s, es, s'⟩ = some _ := Turn.visit?_eq_some rfl hc
    have hstays : Operation.step ≠ .loseReceiver := by rintro ⟨⟩
    have hreport := (ht.reports h.sound calm.link hstays).statuses
    rw [hvisit] at hreport
    have hbegun : 0 < s'.cycleCount := Nat.lt_of_lt_of_le begun (ht.kind h.sound).count_le
    exact ⟨_, h.turn hop hstays calm.link (calm.step h.sound hc hop) hbegun hmailbox hcommands
      (any_wipes_of_step hc hop) (Or.inl (hreport ▸ List.cons_ne_nil _ _))⟩
  | @wake _ deadline calm begun idle armed =>
    have hop : Operation.perform w.silent (.fireTimer (w.now d.outside).1) s (w.silent.now d).2 =
        ⟨es, d', some s'⟩ := done
    cases hdue : (Operation.fireTimer (w.now d.outside).1).requests s with
    | false =>
      rw [Errand.wake_early (w := w.silent) hdue] at done
      cases done
      have hearly : (w.now d.outside).1.nanos < deadline.nanos := by
        simpa [Operation.requests, armed] using hdue
      exact ⟨_, h.turn hop (by rintro ⟨⟩) calm.link calm begun hmailbox hcommands rfl
        (Or.inr ⟨rfl, s, deadline, rfl, armed, hearly⟩)⟩
    | true =>
      have hreport := statuses_of_requests (w := w.silent) calm.link (fun _ => calm.unasked) hdue
        (w.silent.now d).2
      rw [hop, if_neg (not_cycling_iff.mpr idle)] at hreport
      have ht : Turn.Occurs w.silent ⟨.fireTimer (w.now d.outside).1, s, es, s'⟩ := ⟨_, d', hop⟩
      have hcount := (ht.kind h.sound).count_of_requests idle hdue
      obtain ⟨es', -, hbegin⟩ := perform_eq_some_of_requests hdue hop
      have hcalm : Calm x interval { s with timer := none } :=
        ⟨calm.settings, calm.interval, calm.visible, calm.link, calm.unasked⟩
      have hbegun : 0 < s'.cycleCount := hcount.symm ▸ Nat.succ_pos _
      exact ⟨_, h.turn hop (by rintro ⟨⟩) calm.link (hcalm.beginCycle idle hbegin) hbegun hmailbox hcommands rfl
        (Or.inl (hreport ▸ List.cons_ne_nil _ _))⟩

/-- A worker that dies is late. -/
theorem late {time : β → Nat} {errand : Errand} {d d' : Desk β} {es : List Event} (hw : w.Answers) (hkeeps : w.Keeps time)
    (h : Underway w x interval moves ⟨⟨.running s, d⟩, some errand⟩ turns s)
    (done : errand.action w.silent s d = ⟨es, d', none⟩) : Instant.bound ≤ time d'.outside + interval := by
  obtain ⟨d₁, hout⟩ := h.task.1.runsOut (w := w.silent) (fun d c => hw d.outside c) h.sound done
  have hlate := hout.bound_le (hkeeps.withMail fun _ _ => [])
  exact hlate

/-! ### Moves -/

/-- **Every move** leaves such a worker underway, as long as nobody asks it for anything and the clock can hold
the next deadline. -/
theorem move {time : β → Nat} {t : Move β} (hw : w.Answers) (hkeeps : w.Keeps time)
    (hclock : time t.after.updater.desk.outside + interval < Instant.bound)
    (h : Underway w x interval moves t.before turns s) (ht : t.Occurs w.silent)
    (hpost : ∀ msg, t.deed = .post msg → msg = .shutdown) :
    ∃ turns s, Underway w x interval (moves ++ [t]) t.after turns s := by
  have hstill : Dismissed moves → Dismissed (moves ++ [t]) := fun hd => (dismissed_concat_iff moves t).mpr (Or.inl hd)
  -- but for a message that is posted, what is pending stays pending
  have hkept : t.after.pending = t.before.pending → (.shutdown ∈ t.after.pending → Dismissed (moves ++ [t])) ∧
      commands t.after.pending = commands t.before.pending :=
    fun hsame => ⟨fun hstop => hstill (h.dismissed (hsame ▸ hstop)), congrArg commands hsame⟩
  cases ht.kind with
  | posts msg y =>
    obtain rfl := hpost msg rfl
    have hnow : Dismissed (moves ++ [⟨.post .shutdown, y, [], y.withMailbox (y.mailbox.post .shutdown).1⟩]) :=
      (dismissed_concat_iff _ _).mpr (Or.inr rfl)
    have hcommands : commands (y.mailbox.post .shutdown).1.queue = commands y.mailbox.queue := by
      unfold Mailbox.post
      dsimp only
      split
      · exact (commands_append _ _).trans (List.append_nil _)
      · rfl
    refine ⟨turns, s, h.aside rfl rfl ?_ (fun _ => hnow) ?_ h.visiting h.waking⟩
    · exact h.worker.imp_right fun hstopped => ⟨hstopped.1, hnow⟩
    · rw [Scene.pending, Scene.pending, commands_append, commands_append]
      exact congrArg (_ ++ ·) hcommands
  | takes s₁ queue =>
    obtain rfl := h.running rfl
    obtain ⟨hstop, hcommands⟩ := hkept queue.symm
    exact ⟨turns, _, h.aside rfl rfl (Or.inl rfl) hstop hcommands (by rintro ⟨⟩) (by rintro ⟨⟩)⟩
  | @stops s₁ d rest queue =>
    obtain ⟨hstop, hcommands⟩ := hkept rfl
    have hmem : Message.shutdown ∈ d.mailbox.queue := queue.symm ▸ List.mem_cons_self
    exact ⟨turns, s, h.aside rfl rfl (Or.inr ⟨rfl, hstop hmem⟩) hstop hcommands (by rintro ⟨⟩) (by rintro ⟨⟩)⟩
  | departs queue cycling =>
    obtain rfl := h.running rfl
    obtain ⟨hstop, hcommands⟩ := hkept rfl
    exact ⟨turns, _, h.aside rfl rfl (Or.inl rfl) hstop hcommands (fun _ => cycling) (by rintro ⟨⟩)⟩
  | expires queue idle armed =>
    obtain rfl := h.running rfl
    obtain ⟨hstop, hcommands⟩ := hkept rfl
    exact ⟨turns, _, h.aside rfl rfl (Or.inl rfl) hstop hcommands (by rintro ⟨⟩) fun _ => ⟨idle, armed⟩⟩
  | returns done =>
    obtain rfl := h.running rfl
    obtain ⟨turns', hback⟩ := h.returns done
    exact ⟨turns', _, hback⟩
  | dies done =>
    obtain rfl := h.running rfl
    exact absurd (h.late hw hkeeps done) (Nat.not_le_of_lt hclock)

end Underway

/-- A scheduler with these settings has just been moved onto a thread of its own, and told to start. -/
def Scene.outset (x : Settings) (interval : Duration) (outside : β) : Scene β :=
  ⟨((Updater.spawn (Scheduler.ready x) outside).send (.start interval)).1, none⟩

theorem underway_outset (w : Surroundings β) (x : Settings) (interval : Duration) (outside : β) :
    Underway w x interval [] (.outset x interval outside) [] (Scheduler.ready x) where
  worker := Or.inl rfl
  dismissed hstop := absurd (List.mem_singleton.mp hstop) nofun
  stage := .waiting
  sound := Scheduler.sound_ready x
  visiting := nofun
  waking := nofun
  accounted := ⟨[], [], rfl, rfl, rfl, rfl, nofun, nofun, nofun, nofun⟩
  plots := List.forall_mem_nil _
  reports := rfl
  visits := rfl
  busy := List.forall_mem_nil _

/-! ## What a worker has reported -/

namespace Underway

open Scheduler HistogramMonitor.Action

variable {w : Surroundings β} {x : Settings} {interval : Duration} {moves : List (Move β)} {y : Scene β}
  {turns : List Turn} {s : Scheduler}

theorem settings (h : Underway w x interval moves y turns s) : s.settings = x := by
  have hstage := h.stage
  generalize commands y.pending = cs at hstage
  cases hstage with
  | waiting => rfl
  | going calm => exact calm.settings

/-- **The account of a worker.** So many cycles are over; each has visited all plots, and the running one those
before the cursor. The finished cycles among the statuses are those, and who has read a whole block of
statuses more has read of another finished cycle. -/
theorem account (h : Underway w x interval moves y turns s) : ∃ cycles,
    cycles + s.cycling.toNat = s.cycleCount ∧
    (visitsOf moves).length = cycles * x.plots.length + s.cursor.getD 0 ∧
    (reportsOf moves).filter (·.finished) =
      (List.range cycles).map (lastStatus x.plots.length (visitsOf moves)) ∧
    ∀ read, read <+: reportsOf moves →
      read.length < ((read.filter (·.finished)).length + 1) * (x.plots.length + 1) := by
  have hplots : s.plots.length = x.plots.length := congrArg (fun x : Settings => x.plots.length) h.settings
  have hsteady : ∀ e ∈ turns.flatMap Turn.progress, e.plots = x.plots.length := by
    intro e he
    obtain ⟨t, ht, he⟩ := List.mem_flatMap.mp he
    exact (t.plots_of_mem_progress e he).trans (h.plots t ht)
  have hvisits : (turns.flatMap Turn.progress).filterMap Progress.failed? = visitsOf moves := by
    rw [h.visits, List.filterMap_flatMap, List.filterMap_eq_flatMap_toList]
    exact congrArg (List.flatMap · turns) (funext Turn.filterMap_progress)
  obtain ⟨past, running, hledger⟩ := h.accounted
  rw [hplots, ← h.reports] at hledger
  have hlength := hledger.length_failed hsteady
  have hfilter := hledger.filter_reports hsteady
  rw [hvisits] at hlength hfilter
  have hcount := hledger.count
  rw [hledger.length_running] at hcount
  exact ⟨past.length, hcount, hlength, hfilter, fun read hread => hledger.length_lt hsteady hread⟩

/-- The worker can do its errand, look into its mailbox, or wait for its timer, unless it was told to start without
an interval and the only cycle is over. -/
theorem goes_on (h : Underway w x interval moves y turns s) (hy : y.updater.worker = .running s) :
    (y.look.isSome ∨ y.expire.isSome ∨ (y.work w.silent).isSome) ∨
      (interval = 0 ∧ s.cursor = none ∧ 0 < s.cycleCount) := by
  obtain ⟨⟨worker, d⟩, errand⟩ := y
  obtain rfl : worker = .running s := hy
  cases errand with
  | some errand => exact Or.inl (Or.inr (Or.inr rfl))
  | none =>
    unfold Scene.look Scene.expire
    dsimp only
    have hstage : Stage x interval s (commands d.mailbox.queue) := h.stage
    rcases hqueue : d.mailbox.queue with _ | ⟨_ | _, rest⟩
    · rw [hqueue] at hstage
      by_cases hc : s.cycling
      · exact Or.inl (Or.inl (by rw [if_pos hc]; rfl))
      · cases hstage with
        | going calm begun =>
          have hidle := not_cycling_iff.mp hc
          by_cases hzero : interval = 0
          · exact Or.inr ⟨hzero, hidle, begun⟩
          · -- between two cycles a timer is pending
            have harmed := h.sound.armed hidle ⟨calm.visible, calm.interval.symm ▸ hzero⟩
            exact Or.inl (Or.inr (Or.inl (by rw [if_pos ⟨rfl, hc, harmed⟩]; rfl)))
    · exact Or.inl (Or.inl rfl)
    · exact Or.inl (Or.inl rfl)

/-- A visit is the one of the plot that is next, and it fails exactly if the retrieval of one of the series of the
plot does. -/
theorem visit {time : β → Nat} {t : Move β} (hw : w.Answers) (hkeeps : w.Keeps time)
    (hclock : time t.after.updater.desk.outside + interval < Instant.bound)
    (h : Underway w x interval moves t.before turns s) (ht : t.Occurs w.silent) (hvisit : t.errand? = some .visit) :
    ∃ cycles p failed, t.before.updater.worker = .running s ∧ s.cursor = some p ∧ p < x.plots.length ∧
      s.cycleCount = cycles + 1 ∧ (visitsOf moves).length = cycles * x.plots.length + p ∧
      t.failed? = some failed ∧
      Retrieved w.silent s (s.series p) t.before.updater.desk (!failed) := by
  cases ht.kind with
  | posts | takes | stops | departs | expires => cases hvisit
  | dies done =>
    obtain rfl := h.running rfl
    exact absurd (h.late hw hkeeps done) (Nat.not_le_of_lt hclock)
  | @returns errand s₁ s' d d' es done =>
    obtain rfl := h.running rfl
    obtain rfl : errand = .visit := Option.some.inj hvisit
    obtain ⟨htask, -⟩ := h.task
    cases htask with
    | @visit _ p calm begun hc =>
      have hop : Operation.perform w.silent .step s₁ d = ⟨es, d', some s'⟩ := done
      have hplots : s₁.plots.length = x.plots.length := congrArg (fun x : Settings => x.plots.length) h.settings
      obtain ⟨cycles, hcount, hlength, -⟩ := h.account
      have hcycling : s₁.cycling = true := by rw [cycling, hc]; rfl
      rw [hcycling] at hcount
      rw [hc] at hlength
      refine ⟨cycles, p, Turn.failed ⟨.step, s₁, es, s'⟩, rfl, hc, hplots ▸ h.sound.registered p hc, hcount.symm,
        hlength, ?_, ?_⟩
      · have hwipes := any_wipes_of_step hc hop
        rw [Turn.failed?, Turn.visit?_eq_some rfl hc] at hwipes
        exact hwipes
      · exact Turn.retrieved (t := ⟨.step, s₁, es, s'⟩) h.sound hop (Turn.visit?_eq_some rfl hc)

end Underway

end HistogramMonitor
