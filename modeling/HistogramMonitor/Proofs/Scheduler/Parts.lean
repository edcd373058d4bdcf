import HistogramMonitor.Monitor.Scheduler
import HistogramMonitor.Proofs.Effects

/-!
# What the parts of the scheduler come to

The operations of a scheduler are put together from a few parts: a report, the opening and the closing of
a cycle, the setting of the timer and the visit of a plot. Here is what each of them does to the state and
which *boundaries* of cycles, the beginnings and ends that somebody is told about, it lets happen.

* Opening, closing and reporting need nothing from the surroundings, so their outcomes are equations.
* Setting the timer reads the clock: `rearm_eq_some` says when a timer is pending afterwards.
* A visit shows no boundary and changes nothing (`visit_emits`); all else that a step does is notices
  about cycles (`Event.IsNotice`).

From these come the two inversions that everything else rests on: `beginCycle_eq_some` and
`finishCycle_eq_some` list all that beginning and finishing a cycle can come to.
-/

namespace HistogramMonitor

variable {σ : Type}

/-! ## Kinds of events -/

/-- The beginning or the end of a cycle. -/
def Event.IsBoundary : Event → Bool
  | .cycleStart | .cycleComplete => true
  | _ => false

/-- What is said about cycles as such: boundaries, statuses and lines in the log. -/
def Event.IsNotice : Event → Prop
  | .cycleStart | .cycleComplete | .status _ | .log _ => True
  | _ => False

/-- What a visit shows: traffic, drawings, and whom it told. -/
def Event.IsVisual : Event → Prop
  | .call _ | .sent _ | .log _ | .display .. | .clear _ | .updateStart _ | .updateComplete _ => True
  | _ => False

theorem Event.IsTraffic.isVisual {e : Event} (h : e.IsTraffic) : e.IsVisual := by
  cases e <;> first | exact h | trivial

theorem Event.IsVisual.not_boundary {e : Event} (h : e.IsVisual) : e.IsBoundary = false := by
  cases e <;> first | rfl | exact h.elim

/-- The boundaries among events. -/
def boundaries (es : List Event) : List Event := es.filter Event.IsBoundary

@[simp] theorem boundaries_nil : boundaries [] = [] := rfl

@[simp] theorem boundaries_append (es fs : List Event) :
    boundaries (es ++ fs) = boundaries es ++ boundaries fs :=
  List.filter_append es fs

theorem boundaries_of_visual {es : List Event} (h : ∀ e ∈ es, e.IsVisual) : boundaries es = [] := by
  refine List.filter_eq_nil_iff.mpr fun e he => ?_
  rw [(h e he).not_boundary]
  exact Bool.false_ne_true

/-- What a report leaves of a link: a receiver that has gone away is forgotten. -/
def StatusLink.noticed : StatusLink → StatusLink
  | .abandoned => .absent
  | link => link

namespace Scheduler

open HistogramMonitor.Action

/-! ## Reports -/

/-- What a report shows: the status, or that nobody receives it any more. -/
def announcement (done : Nat) (s : Scheduler) : List Event :=
  match s.statusLink with
  | .absent => []
  | .attached => [.status ⟨s.cycleCount, done, s.plots.length, s.cycleFailures⟩]
  | .abandoned =>
    [.diagnostic .debug "Cycle status receiver is gone, no longer reporting progress"]

theorem report_apply (done : Nat) (s : Scheduler) (m : σ) :
    report done s m =
      ⟨s.announcement done, m, some { s with statusLink := s.statusLink.noticed }⟩ := by
  rcases s with ⟨_, _, _, _, _, _, _, _, _, _, link, _, _⟩
  cases link <;> rfl

@[simp] theorem boundaries_announcement (done : Nat) (s : Scheduler) :
    boundaries (s.announcement done) = [] := by
  unfold announcement
  split <;> rfl

theorem isNotice_announcement (done : Nat) (s : Scheduler) :
    ∀ e ∈ s.announcement done, e.IsNotice := by
  intro e he
  unfold announcement at he
  split at he
  · cases he
  all_goals
    rw [List.mem_singleton] at he
    rw [he]
    trivial

theorem report_emits (done : Nat) (s : Scheduler) :
    (report done s : Action σ Scheduler).Emits Event.IsNotice := by
  intro m e he
  rw [report_apply] at he
  exact s.isNotice_announcement done e he

/-! ## The ends of a cycle -/

/-- The state after the opening of a cycle. -/
def opened (s : Scheduler) : Scheduler :=
  { s with
    cycleCount := s.cycleCount + 1, cycleFailures := 0, cursor := some 0
    statusLink := s.statusLink.noticed }

@[simp] theorem opened_plots (s : Scheduler) : s.opened.plots = s.plots := rfl

/-- The state with no cycle running and none queued. -/
def rested (s : Scheduler) : Scheduler := { s with cursor := none, rerunRequested := false }

@[simp] theorem rested_plots (s : Scheduler) : s.rested.plots = s.plots := rfl

/-- What somebody is told when a cycle begins. -/
def startNotice (s : Scheduler) : List Event :=
  if s.announcesStart ∧ s.plots ≠ [] then [.cycleStart] else []

/-- What somebody is told when a cycle ends. -/
def completeNotice (s : Scheduler) : List Event :=
  if s.announcesComplete ∧ s.plots ≠ [] then [.cycleComplete] else []

@[simp] theorem boundaries_startNotice (s : Scheduler) :
    boundaries s.startNotice = s.startNotice := by
  unfold startNotice
  split <;> rfl

@[simp] theorem boundaries_completeNotice (s : Scheduler) :
    boundaries s.completeNotice = s.completeNotice := by
  unfold completeNotice
  split <;> rfl

theorem openCycle_eq_some {s s' : Scheduler} {m m' : σ} {es : List Event}
    (h : s.openCycle m = ⟨es, m', some s'⟩) : s' = s.opened ∧ boundaries es = s.startNotice := by
  unfold openCycle at h
  dsimp only at h
  obtain ⟨fs, hr, rfl⟩ := tell_if_eq_some h
  rw [report_apply] at hr
  cases hr
  refine ⟨rfl, ?_⟩
  rw [boundaries_append, boundaries_announcement, List.append_nil]
  exact s.boundaries_startNotice

theorem openCycle_emits (s : Scheduler) :
    (s.openCycle : Action σ Scheduler).Emits Event.IsNotice :=
  (report_emits 0 _).tell_if (by trivial)

theorem closeCycle_eq_some {s s' : Scheduler} {m m' : σ} {es : List Event}
    (h : s.closeCycle m = ⟨es, m', some s'⟩) :
    s' = { s with cursor := none } ∧ boundaries es = s.completeNotice := by
  unfold closeCycle diagnose at h
  dsimp only at h
  obtain ⟨fs, hw, rfl⟩ := tell_if_eq_some h
  obtain ⟨gs, hp, rfl⟩ := tell_if_eq_some hw
  obtain ⟨rfl, -, rfl⟩ := pure_eq_some hp
  refine ⟨rfl, ?_⟩
  -- the warning about failures is no boundary
  have hq : ∀ text,
      boundaries (if 0 < s.cycleFailures then [.diagnostic .warn text] else []) = [] := by
    intro text
    split <;> rfl
  rw [boundaries_append, boundaries_append, hq]
  exact (List.append_nil _).trans s.boundaries_completeNotice

theorem closeCycle_emits (s : Scheduler) :
    (s.closeCycle : Action σ Scheduler).Emits Event.IsNotice :=
  ((emits_pure _).tell_if (by trivial)).tell_if (by trivial)

/-! ## The timer -/

theorem arm_eq_some {w : Surroundings σ} {s s' : Scheduler} {m m' : σ} {es : List Event}
    (h : s.arm w m = ⟨es, m', some s'⟩) :
    es = [] ∧ ∃ deadline, s' = { s with timer := some deadline } := by
  obtain ⟨es₁, m₁, t, es₂, h₁, h₂, rfl⟩ := bind_eq_some h
  obtain rfl : es₁ = [] := by
    cases h₁
    rfl
  rcases hd : t.after? s.interval with _ | deadline
  · rw [hd] at h₂
    cases h₂
  · rw [hd] at h₂
    obtain ⟨rfl, -, rfl⟩ := pure_eq_some h₂
    exact ⟨rfl, deadline, rfl⟩

/-- Afterwards a timer is pending exactly if updates are to go on; nothing else has changed. -/
theorem rearm_eq_some {w : Surroundings σ} {s s' : Scheduler} {m m' : σ} {es : List Event}
    (h : s.rearm w m = ⟨es, m', some s'⟩) :
    es = [] ∧ ∃ timer : Option Instant, s' = { s with timer := timer } ∧
      (timer.isSome ↔ s.visible ∧ s.interval ≠ 0) := by
  unfold rearm at h
  dsimp only at h
  by_cases hc : s.interval ≠ 0 ∧ s.visible
  · rw [if_pos hc] at h
    obtain ⟨hes, deadline, hs'⟩ := arm_eq_some h
    exact ⟨hes, some deadline, hs', fun _ => ⟨hc.2, hc.1⟩, fun _ => rfl⟩
  · rw [if_neg hc] at h
    obtain ⟨hes, -, hs'⟩ := pure_eq_some h
    exact ⟨hes, none, hs', fun ht => (Bool.false_ne_true ht).elim, fun ht => (hc ⟨ht.2, ht.1⟩).elim⟩

theorem rearm_emits (w : Surroundings σ) (s : Scheduler) : (s.rearm w).Emits Event.IsNotice := by
  refine Emits.ite (Emits.bind (fun m e he => ?_) fun t => ?_) (emits_pure _)
  · cases he
  · cases t.after? s.interval with
    | none => exact fun m e he => by cases he
    | some deadline => exact emits_pure _

/-! ## Beginning and finishing a cycle -/

/-- Over at least one plot: either a follow-up was asked for and somebody can see it, and it begins in the
same breath, or the timer is set. In either case nothing is queued any more. -/
theorem finishCycle_eq_some {w : Surroundings σ} {s s' : Scheduler} {m m' : σ} {es : List Event}
    (hp : s.plots ≠ []) (h : s.finishCycle w m = ⟨es, m', some s'⟩) :
    (s.rerunRequested ∧ s.visible ∧
        s' = s.rested.opened ∧ boundaries es = s.completeNotice ++ s.startNotice) ∨
      (¬ (s.rerunRequested ∧ s.visible) ∧ boundaries es = s.completeNotice ∧
        ∃ timer : Option Instant,
          s' = { s.rested with timer := timer } ∧ (timer.isSome ↔ s.visible ∧ s.interval ≠ 0)) := by
  obtain ⟨es₁, m₁, s₁, es₂, h₁, h₂, rfl⟩ := bind_eq_some h
  obtain ⟨rfl, hb₁⟩ := closeCycle_eq_some h₁
  rw [boundaries_append, hb₁]
  by_cases hr : s.rerunRequested
  · rw [if_pos hr] at h₂
    by_cases hv : s.visible
    · -- the follow-up
      rw [if_pos hv] at h₂
      obtain ⟨es₃, m₃, s₃, es₄, h₃, h₄, rfl⟩ := bind_eq_some h₂
      obtain ⟨hs₃, hb₃⟩ := openCycle_eq_some (s := s.rested) h₃
      rw [hs₃, opened_plots, rested_plots, if_neg hp] at h₄
      obtain ⟨rfl, -, rfl⟩ := pure_eq_some h₄
      rw [boundaries_append, hb₃, boundaries_nil, List.append_nil]
      exact Or.inl ⟨hr, hv, rfl, rfl⟩
    · -- it is dropped, since nobody can see it
      rw [if_neg hv] at h₂
      obtain ⟨rfl, timer, hs', ht⟩ := rearm_eq_some h₂
      exact Or.inr ⟨fun hrv => hv hrv.2, List.append_nil _, timer, hs', ht⟩
  · rw [if_neg hr] at h₂
    obtain ⟨rfl, timer, rfl, ht⟩ := rearm_eq_some h₂
    rw [Bool.not_eq_true] at hr
    exact Or.inr ⟨by simp [hr], List.append_nil _, timer, by rw [rested, hr], ht⟩

/-- Over no plots nothing can be queued, and the timer is set. -/
theorem finishCycle_eq_some_of_empty {w : Surroundings σ} {s s' : Scheduler} {m m' : σ}
    {es : List Event} (hp : s.plots = []) (hr : s.rerunRequested = false)
    (h : s.finishCycle w m = ⟨es, m', some s'⟩) :
    boundaries es = [] ∧ ∃ timer : Option Instant,
      s' = { s with cursor := none, timer := timer } ∧
        (timer.isSome ↔ s.visible ∧ s.interval ≠ 0) := by
  obtain ⟨es₁, m₁, s₁, es₂, h₁, h₂, rfl⟩ := bind_eq_some h
  obtain ⟨rfl, hb₁⟩ := closeCycle_eq_some h₁
  rw [if_neg (by simp [hr])] at h₂
  obtain ⟨rfl, timer, hs', ht⟩ := rearm_eq_some h₂
  have hn : s.completeNotice = [] := if_neg fun hc => hc.2 hp
  rw [boundaries_append, hb₁, hn]
  exact ⟨rfl, timer, hs', ht⟩

theorem finishCycle_emits (w : Surroundings σ) (s : Scheduler) :
    (s.finishCycle w).Emits Event.IsNotice := by
  refine (closeCycle_emits s).bind fun s => Emits.ite (Emits.ite ?_ (rearm_emits w _)) (rearm_emits w s)
  exact (openCycle_emits _).bind fun s =>
    Emits.ite ((closeCycle_emits s).bind fun s => rearm_emits w s) (emits_pure s)

/-- All that a request for a cycle can come to: it is noted if a cycle is running; else a cycle begins,
and one over no plots has ended as well. -/
theorem beginCycle_eq_some {w : Surroundings σ} {s s' : Scheduler} {m m' : σ} {es : List Event}
    (hr : s.cursor = none → s.rerunRequested = false)
    (h : s.beginCycle w m = ⟨es, m', some s'⟩) :
    (s.cursor.isSome ∧ es = [] ∧ s' = { s with rerunRequested := true }) ∨
      (s.cursor = none ∧ s.plots ≠ [] ∧ s' = s.opened ∧ boundaries es = s.startNotice) ∨
      (s.cursor = none ∧ s.plots = [] ∧ boundaries es = [] ∧ ∃ timer : Option Instant,
        s' = { s.opened with cursor := none, timer := timer } ∧
          (timer.isSome ↔ s.visible ∧ s.interval ≠ 0)) := by
  unfold beginCycle at h
  by_cases hc : s.cycling
  · rw [if_pos hc] at h
    obtain ⟨rfl, -, rfl⟩ := pure_eq_some h
    exact Or.inl ⟨hc, rfl, rfl⟩
  · rw [if_neg hc] at h
    have hcur : s.cursor = none := by simpa [cycling] using hc
    obtain ⟨es₁, m₁, s₁, es₂, h₁, h₂, rfl⟩ := bind_eq_some h
    obtain ⟨rfl, hb₁⟩ := openCycle_eq_some h₁
    rw [boundaries_append, hb₁]
    rw [opened_plots] at h₂
    by_cases hp : s.plots = []
    · rw [if_pos hp] at h₂
      obtain ⟨hb₂, timer, hs', ht⟩ := finishCycle_eq_some_of_empty (s := s.opened) hp (hr hcur) h₂
      have hn : s.startNotice = [] := if_neg fun hc => hc.2 hp
      exact Or.inr (Or.inr ⟨hcur, hp, by rw [hn, hb₂]; rfl, timer, hs', ht⟩)
    · rw [if_neg hp] at h₂
      obtain ⟨rfl, -, rfl⟩ := pure_eq_some h₂
      exact Or.inr (Or.inl ⟨hcur, hp, rfl, List.append_nil _⟩)

/-! ## Visits -/

theorem drawSeries_emits (w : Surroundings σ) (s : Scheduler) (plot : Nat) (items : List SeriesSource) :
    ∀ i, (s.drawSeries w plot i items).Emits Event.IsVisual := by
  induction items with
  | nil => exact fun _ => emits_pure _
  | cons item rest ih =>
    intro i
    refine Emits.bind ((Client.retrieve_emits w _ _ _).mono fun _ => Event.IsTraffic.isVisual)
      fun answer => ?_
    cases answer with
    | ok h => exact (emits_tell (by trivial)).bind fun _ => ih (i + 1)
    | error e =>
      exact (emits_diagnose (by trivial)).bind fun _ =>
        (emits_tell (by trivial)).bind fun _ => emits_pure _

/-- A visit shows nothing but its own traffic and drawings. -/
theorem visit_emits (w : Surroundings σ) (s : Scheduler) (plot : Nat) :
    (s.visit w plot).Emits Event.IsVisual := by
  unfold visit
  cases s.plots[plot]? with
  | none => exact emits_pure _
  | some p =>
    dsimp only
    cases p.source with
    | none => exact emits_pure _
    | some source =>
      refine Emits.tell_if (Emits.bind (drawSeries_emits w s plot _ 0) ?_) (by trivial)
      exact fun _ => (emits_pure _).tell_if (by trivial)

theorem boundaries_of_visit {w : Surroundings σ} {s : Scheduler} {plot : Nat} {m m' : σ}
    {es : List Event} {v : Option Bool} (h : s.visit w plot m = ⟨es, m', v⟩) : boundaries es = [] := by
  refine boundaries_of_visual fun e he => visit_emits w s plot m e ?_
  rw [h]
  exact he

/-- The state after the visit of the plot at the cursor. -/
def visited (c : Nat) (success : Bool) (s : Scheduler) : Scheduler :=
  { s with
    cycleFailures := if success then s.cycleFailures else s.cycleFailures + 1
    cursor := some (c + 1), statusLink := s.statusLink.noticed }

/-- Without a running cycle a step does nothing. -/
theorem step_eq_some_of_idle {w : Surroundings σ} {s s' : Scheduler} {m m' : σ} {es : List Event}
    (hc : s.cursor = none) (h : s.step w m = ⟨es, m', some s'⟩) : es = [] ∧ m' = m ∧ s' = s := by
  unfold step at h
  rw [hc] at h
  exact pure_eq_some h

/-- All that a step of a running cycle can come to: it visits the plot at the cursor, and after the last
one it finishes the cycle. After the visit it shows only notices. -/
theorem step_eq_some {w : Surroundings σ} {s s' : Scheduler} {c : Nat} {m m' : σ} {es : List Event}
    (hc : s.cursor = some c) (hlt : c < s.plots.length) (h : s.step w m = ⟨es, m', some s'⟩) :
    ∃ es₁ m₁ success es₂, s.visit w c m = ⟨es₁, m₁, some success⟩ ∧ es = es₁ ++ es₂ ∧
      (∀ e ∈ es₂, e.IsNotice) ∧
      ((c + 1 < s.plots.length ∧ s' = s.visited c success ∧ boundaries es₂ = [] ∧ m' = m₁) ∨
        (c + 1 = s.plots.length ∧ ∃ es₃,
          (s.visited c success).finishCycle w m₁ = ⟨es₃, m', some s'⟩ ∧
            boundaries es₂ = boundaries es₃)) := by
  unfold step at h
  rw [hc] at h
  dsimp only at h
  rw [if_pos hlt] at h
  obtain ⟨es₁, m₁, success, es₂, hv, h₂, rfl⟩ := bind_eq_some h
  obtain ⟨es₃, m₂, s₁, es₄, h₃, h₄, rfl⟩ := bind_eq_some h₂
  rw [report_apply] at h₃
  cases h₃
  have hend : (if s.plots.length ≤ c + 1 then (s.visited c success).finishCycle w
      else pure (s.visited c success)) m₁ = ⟨es₄, m', some s'⟩ := by
    simpa [visited] using h₄
  refine ⟨es₁, m₁, success, _, hv, rfl, ?_, ?_⟩
  · intro e he
    rcases List.mem_append.mp he with he | he
    · exact isNotice_announcement _ _ e he
    · have hemits : ∀ e ∈ es₄, e.IsNotice := by
        have := Emits.ite (c := s.plots.length ≤ c + 1) (finishCycle_emits w (s.visited c success))
          (emits_pure (s.visited c success)) m₁
        rwa [hend] at this
      exact hemits e he
  · rw [boundaries_append, boundaries_announcement, List.nil_append]
    by_cases hlast : s.plots.length ≤ c + 1
    · rw [if_pos hlast] at hend
      exact Or.inr ⟨Nat.le_antisymm hlt hlast, es₄, hend, rfl⟩
    · rw [if_neg hlast] at hend
      obtain ⟨rfl, hmemory, rfl⟩ := pure_eq_some hend
      exact Or.inl ⟨Nat.lt_of_not_le hlast, rfl, rfl, hmemory⟩

end Scheduler

end HistogramMonitor
