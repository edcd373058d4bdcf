import HistogramMonitor.Proofs.Scheduler.Cycles

/-!
# What operations report

The statuses among the events of an operation, for a scheduler whose receiver is there. They do not depend
on whether the operation comes to an end: whatever may die, the calls of a visit and the reading of the
clock, reports nothing itself. So these are equations about all outcomes.

* A request reports the opening of a cycle, unless one is running (`statuses_of_requests`).
* A step reports how far the cycle is after its visit, and then the opening of the follow-up if there is one
  (`statuses_of_step`).
* All else reports nothing (`statuses_of_aside`).
-/

namespace HistogramMonitor

variable {σ α β : Type}

/-! ## Statuses among events -/

/-- The status that an event reports. -/
def Event.status? : Event → Option CycleStatus
  | .status s => some s
  | _ => none

/-- The statuses among events. -/
def statuses (es : List Event) : List CycleStatus := es.filterMap Event.status?

@[simp] theorem statuses_nil : statuses [] = [] := rfl

@[simp] theorem statuses_append (es fs : List Event) :
    statuses (es ++ fs) = statuses es ++ statuses fs :=
  List.filterMap_append

theorem statuses_of_visual {es : List Event} (h : ∀ e ∈ es, e.IsVisual) : statuses es = [] := by
  refine List.filterMap_eq_nil_iff.mpr fun e he => ?_
  have hvisual := h e he
  cases e <;> first | rfl | exact hvisual.elim

namespace Action

/-- Something that reports nothing comes first. -/
theorem statuses_bind_of_nil {x : Action σ α} {f : α → Action σ β} {m : σ}
    (hx : statuses (x m).events = []) : statuses ((x >>= f) m).events =
      match (x m).value with
      | none => []
      | some a => statuses (f a (x m).next).events := by
  rw [bind_apply]
  cases (x m).value with
  | none => exact hx
  | some a => rw [statuses_append, hx, List.nil_append]

/-- What is made of a value reports nothing. -/
theorem statuses_bind_pure {x : Action σ α} {g : α → β} {m : σ} :
    statuses ((x >>= fun a => pure (g a)) m).events = statuses (x m).events := by
  rw [bind_apply]
  cases (x m).value with
  | none => rfl
  | some a => exact congrArg statuses (List.append_nil _)

/-- What is told under a condition comes first. -/
theorem tell_if_apply {c : Prop} [Decidable c] {es : List Event} {x : Action σ α} {m : σ} :
    (if c then tell es >>= fun _ => x else x) m =
      ⟨(if c then es else []) ++ (x m).events, (x m).next, (x m).value⟩ := by
  split
  · rfl
  · rfl

end Action

namespace Scheduler

open HistogramMonitor.Action

variable {w : Surroundings σ} {s : Scheduler} {m : σ}

/-! ## Parts -/

/-- The status that goes out when a cycle begins. -/
def opening (s : Scheduler) : CycleStatus := ⟨s.cycleCount + 1, 0, s.plots.length, 0⟩

theorem openCycle_apply (hl : s.statusLink = .attached) (m : σ) :
    ∃ es, s.openCycle m = ⟨es, m, some s.opened⟩ ∧ statuses es = [s.opening] := by
  unfold openCycle
  dsimp only
  rw [tell_if_apply, report_apply]
  refine ⟨_, rfl, ?_⟩
  have hnotice : statuses (if s.announcesStart ∧ s.plots ≠ [] then [.cycleStart] else []) = [] := by
    split <;> rfl
  rw [statuses_append, hnotice, announcement, hl]
  rfl

theorem closeCycle_apply (s : Scheduler) (m : σ) :
    ∃ es, s.closeCycle m = ⟨es, m, some { s with cursor := none }⟩ ∧ statuses es = [] := by
  unfold closeCycle diagnose
  dsimp only
  rw [tell_if_apply, tell_if_apply]
  refine ⟨_, rfl, ?_⟩
  have hnotice : statuses (if s.announcesComplete ∧ s.plots ≠ [] then [.cycleComplete] else []) = [] := by
    split <;> rfl
  have hwarning : ∀ text,
      statuses (if 0 < s.cycleFailures then [.diagnostic .warn text] else []) = [] := by
    intro text
    split <;> rfl
  rw [statuses_append, statuses_append, hnotice, hwarning]
  rfl

theorem statuses_rearm (s : Scheduler) (m : σ) : statuses (s.rearm w m).events = [] := by
  unfold rearm
  dsimp only
  split
  · refine (statuses_bind_of_nil rfl).trans ?_
    cases (now w m).value with
    | none => rfl
    | some t =>
      dsimp only
      cases t.after? s.interval <;> rfl
  · rfl

theorem statuses_visit (s : Scheduler) (plot : Nat) (m : σ) : statuses (s.visit w plot m).events = [] :=
  statuses_of_visual (visit_emits w s plot m)

/-! ## Cycles -/

/-- Ending a cycle reports the opening of the follow-up, if there is one. -/
theorem statuses_finishCycle (hl : s.statusLink = .attached) (hp : s.plots = [] → s.rerunRequested = false)
    (m : σ) : statuses (s.finishCycle w m).events =
      if s.rerunRequested ∧ s.visible then [s.opening] else [] := by
  obtain ⟨es, hclose, hnil⟩ := s.closeCycle_apply m
  have hfirst : statuses (s.closeCycle m).events = [] := by rw [hclose, hnil]
  refine (statuses_bind_of_nil hfirst).trans ?_
  rw [hclose]
  dsimp only
  -- only who is visible follows up; else the timer is armed, which is not reported
  by_cases hr : s.rerunRequested
  · rw [if_pos hr]
    by_cases hv : s.visible
    · rw [if_pos hv, if_pos ⟨hr, hv⟩]
      have hne : s.plots ≠ [] := by
        intro hnone
        rw [hp hnone] at hr
        cases hr
      obtain ⟨fs, hopen, hreport⟩ :=
        openCycle_apply (s := { s with cursor := none, rerunRequested := false }) hl m
      unfold followUp
      rw [bind_apply, hopen]
      dsimp only
      rw [opened_plots, if_neg hne, pure_apply, List.append_nil, hreport]
      rfl
    · rw [if_neg hv, if_neg fun h => hv h.2]
      exact statuses_rearm _ _
  · rw [if_neg hr, if_neg fun h => hr h.1]
    exact statuses_rearm _ _

/-- Beginning a cycle reports its opening, unless one is running. -/
theorem statuses_beginCycle (hl : s.statusLink = .attached)
    (hr : s.cursor = none → s.rerunRequested = false) (m : σ) :
    statuses (s.beginCycle w m).events = if s.cycling then [] else [s.opening] := by
  unfold beginCycle
  by_cases hc : s.cycling
  · rw [if_pos hc, if_pos hc]
    rfl
  · rw [if_neg hc, if_neg hc]
    have hidle : s.rerunRequested = false := hr (not_cycling_iff.mp hc)
    obtain ⟨es, hopen, hreport⟩ := openCycle_apply hl m
    rw [bind_apply, hopen]
    dsimp only
    rw [statuses_append, hreport, opened_plots]
    split
    · have hattached : s.opened.statusLink = .attached := by rw [opened, hl]; rfl
      rw [statuses_finishCycle hattached (fun _ => hidle), if_neg]
      · rfl
      · rintro ⟨hrerun, -⟩
        rw [show s.opened.rerunRequested = s.rerunRequested from rfl, hidle] at hrerun
        cases hrerun
    · rfl

/-- How far the running cycle is after a visit. -/
def reached (s : Scheduler) (c : Nat) (success : Bool) : CycleStatus :=
  ⟨s.cycleCount, c + 1, s.plots.length, s.cycleFailures + (!success).toNat⟩

theorem visited_attached (c : Nat) (success : Bool) (hl : s.statusLink = .attached) :
    (s.visited c success).statusLink = .attached := by
  rw [visited, hl]
  rfl

/-- A step reports how far the cycle is after its visit, and then the opening of the follow-up, if there is
one. One that dies in its visit reports nothing. -/
theorem statuses_of_step {c : Nat} (hl : s.statusLink = .attached) (hc : s.cursor = some c)
    (hlt : c < s.plots.length) (m : σ) :
    statuses (s.step w m).events =
      match (s.visit w c m).value with
      | none => []
      | some success => s.reached c success ::
          if c + 1 = s.plots.length ∧ s.rerunRequested ∧ s.visible then [s.opening] else [] := by
  unfold step
  rw [hc]
  dsimp only
  rw [if_pos hlt]
  refine (statuses_bind_of_nil (statuses_visit s c m)).trans ?_
  cases (s.visit w c m).value with
  | none => rfl
  | some success =>
    have hreport : statuses (announcement (c + 1) { s with
        cycleFailures := if success then s.cycleFailures else s.cycleFailures + 1
        cursor := some (c + 1) }) = [s.reached c success] := by
      rw [announcement, hl]
      cases success <;> rfl
    dsimp only
    rw [bind_apply, report_apply]
    simp only [statuses_append, hreport, Option.any_some, decide_eq_true_eq]
    change _ :: statuses ((if s.plots.length ≤ c + 1 then (s.visited c success).finishCycle w
      else pure (s.visited c success)) _).events = _
    by_cases hlast : s.plots.length ≤ c + 1
    · have hp : (s.visited c success).plots = [] → (s.visited c success).rerunRequested = false := by
        intro hnil
        rw [show s.plots = [] from hnil] at hlt
        cases hlt
      have hend : c + 1 = s.plots.length := Nat.le_antisymm hlt hlast
      rw [if_pos hlast, statuses_finishCycle (visited_attached c success hl) hp]
      simp only [hend, true_and]
      rfl
    · have hend : c + 1 ≠ s.plots.length := fun hend => hlast (Nat.le_of_eq hend.symm)
      rw [if_neg hlast, if_neg fun h => hend h.1]
      rfl

/-! ## Operations -/

/-- A request reports the opening of a cycle, unless one is running. -/
theorem statuses_of_requests {op : Operation} (hl : s.statusLink = .attached)
    (hq : s.cursor = none → s.rerunRequested = false) (hr : op.requests s) (m : σ) :
    statuses (op.perform w s m).events = if s.cycling then [] else [s.opening] := by
  cases op with
  | start interval =>
    exact statuses_beginCycle (s := { s with interval := interval, timer := none }) hl hq m
  | refreshAll => exact statuses_beginCycle hl hq m
  | setVisible visible =>
    simp only [Operation.requests, Bool.and_eq_true, Bool.not_eq_true', bne_iff_ne] at hr
    obtain ⟨⟨rfl, hv⟩, hi⟩ := hr
    have hperform : Operation.perform w (.setVisible true) s = (diagnose .debug
        "Plots visible again, resuming updates" >>= fun _ => beginCycle w { s with visible := true }) := by
      simp [Operation.perform, setVisible, hv, hi]
    rw [hperform]
    refine (statuses_bind_of_nil rfl).trans ?_
    exact statuses_beginCycle (s := { s with visible := true }) hl hq m
  | fireTimer time =>
    rcases ht : s.timer with _ | deadline
    · simp [Operation.requests, ht] at hr
    · have hle : deadline.nanos ≤ time.nanos := by simpa [Operation.requests, ht] using hr
      refine statuses_bind_pure.trans ?_
      simp only [fireTimer, ht, if_pos hle]
      exact statuses_bind_pure.trans (statuses_beginCycle (s := { s with timer := none }) hl hq m)
  | _ => cases hr

theorem statuses_changeSource (s : Scheduler) (plot : Nat) (source : Option PlotSource)
    (refreshNow : Bool) (m : σ) : statuses (s.changeSource w plot source refreshNow m).events = [] := by
  unfold changeSource
  cases s.plots[plot]? with
  | none => rfl
  | some p =>
    dsimp only
    split
    · exact statuses_bind_pure.trans (statuses_visit _ plot m)
    · rfl

/-- All else reports nothing, even where it visits a plot. -/
theorem statuses_of_aside {op : Operation} (hr : op.requests s = false) (hop : op ≠ .step) (m : σ) :
    statuses (op.perform w s m).events = [] := by
  cases op with
  | changeSource plot source refreshNow =>
    exact statuses_bind_pure.trans (statuses_changeSource s plot source refreshNow m)
  | setInterval interval => exact statuses_rearm _ m
  | setVisible visible =>
    change statuses (s.setVisible w visible m).events = []
    unfold setVisible
    split
    · rfl
    · rename_i hchange
      split
      · rename_i hvisible
        have hidden : s.visible = false := by simpa [hvisible] using Ne.symm hchange
        have hzero : s.interval = 0 := by simpa [Operation.requests, hvisible, hidden] using hr
        simp only [hzero]
        rfl
      · rfl
  | fireTimer time =>
    refine statuses_bind_pure.trans ?_
    rcases ht : s.timer with _ | deadline
    · simp only [fireTimer, ht]
      rfl
    · have hlt : ¬ deadline.nanos ≤ time.nanos := by simpa [Operation.requests, ht] using hr
      simp only [fireTimer, ht, if_neg hlt]
      rfl
  | start | refreshAll => cases hr
  | step => exact absurd rfl hop
  | _ => rfl

/-! ## Failed visits -/

/-- What becomes of a plot's series: each is retrieved in turn, up to the first for which that fails. The
answer is whether it fails for none. -/
inductive Retrieved (w : Surroundings σ) (s : Scheduler) : List SeriesSource → σ → Bool → Prop
  | all (m : σ) : Retrieved w s [] m true
  | got {item : SeriesSource} {rest : List SeriesSource} {m m' : σ} {es : List Event} {h : Snapshot}
      {success : Bool}
      (retrieved : Client.retrieve w item.name (item.runs.getD s.defaultRuns)
        (item.program.getD s.defaultProgram) m = ⟨es, m', some (.ok h)⟩)
      (more : Retrieved w s rest m' success) : Retrieved w s (item :: rest) m success
  | lost {item : SeriesSource} {rest : List SeriesSource} {m m' : σ} {es : List Event}
      {e : TransportError}
      (failed : Client.retrieve w item.name (item.runs.getD s.defaultRuns)
        (item.program.getD s.defaultProgram) m = ⟨es, m', some (.error e)⟩) :
      Retrieved w s (item :: rest) m false

/-- The series of a plot; one without a source has none. -/
def series (s : Scheduler) (plot : Nat) : List SeriesSource :=
  ((s.source? plot).map PlotSource.series).getD []

theorem drawSeries_eq_some {plot : Nat} {items : List SeriesSource} {success : Bool} :
    ∀ {i : Nat} {m m' : σ} {es : List Event}, s.drawSeries w plot i items m = ⟨es, m', some success⟩ →
      Retrieved w s items m success ∧ (.clear plot ∈ es ↔ success = false) := by
  induction items with
  | nil =>
    intro i m m' es h
    obtain ⟨rfl, -, rfl⟩ := pure_eq_some h
    exact ⟨.all m, by simp⟩
  | cons item rest ih =>
    intro i m m' es h
    obtain ⟨es₁, m₁, answer, es₂, hretrieve, h₂, rfl⟩ := bind_eq_some h
    have hquiet : .clear plot ∉ es₁ := by
      intro hmem
      have htraffic := Client.retrieve_emits w item.name (item.runs.getD s.defaultRuns)
        (item.program.getD s.defaultProgram) m
      rw [hretrieve] at htraffic
      exact htraffic _ hmem
    cases answer with
    | ok shown =>
      obtain ⟨es₃, m₃, u, es₄, htell, hrest, rfl⟩ := bind_eq_some h₂
      cases htell
      obtain ⟨hmore, hclear⟩ := ih hrest
      exact ⟨.got hretrieve hmore, by simpa [hquiet] using hclear⟩
    | error e =>
      obtain ⟨es₃, m₃, u, es₄, hlog, h₃, rfl⟩ := bind_eq_some h₂
      cases hlog
      obtain ⟨es₅, m₅, u, es₆, hwipe, h₄, rfl⟩ := bind_eq_some h₃
      cases hwipe
      obtain ⟨rfl, -, rfl⟩ := pure_eq_some h₄
      exact ⟨.lost hretrieve, by simp⟩

/-- A visit fails exactly if the retrieval of one of the series does, and exactly then it wipes the plot. -/
theorem visit_eq_some {plot : Nat} {success : Bool} {m m' : σ} {es : List Event}
    (h : s.visit w plot m = ⟨es, m', some success⟩) :
    Retrieved w s (s.series plot) m success ∧ (.clear plot ∈ es ↔ success = false) := by
  unfold visit at h
  unfold series source?
  cases hp : s.plots[plot]? with
  | none =>
    rw [hp] at h
    obtain ⟨rfl, -, rfl⟩ := pure_eq_some h
    exact ⟨.all m, by simp⟩
  | some p =>
    rw [hp] at h
    dsimp only at h
    cases hsource : p.source with
    | none =>
      rw [hsource] at h
      obtain ⟨rfl, -, rfl⟩ := pure_eq_some h
      rw [Option.bind_some, hsource]
      exact ⟨.all m, by simp⟩
    | some source =>
      rw [hsource] at h
      dsimp only at h
      obtain ⟨es₁, h₁, rfl⟩ := tell_if_eq_some h
      obtain ⟨es₂, m₂, success', es₃, hdraw, h₃, rfl⟩ := bind_eq_some h₁
      obtain ⟨es₄, hpure, rfl⟩ := tell_if_eq_some h₃
      obtain ⟨rfl, -, rfl⟩ := pure_eq_some hpure
      obtain ⟨hretrieved, hclear⟩ := drawSeries_eq_some hdraw
      rw [Option.bind_some, hsource]
      refine ⟨hretrieved, ?_⟩
      have hstart : Event.clear plot ∉ if p.announcesStart then [Event.updateStart plot] else [] := by
        split <;> simp
      have hcomplete :
          Event.clear plot ∉ if p.announcesComplete then [Event.updateComplete plot] else [] := by
        split <;> simp
      simp [hstart, hcomplete, hclear]

/-! ## Turns -/

theorem Turn.visit?_eq_some {t : Turn} {c : Nat} (hstep : t.operation = .step)
    (hc : t.before.cursor = some c) : t.visit? = some c := by
  rw [Turn.visit?, if_pos hstep, hc]

theorem Turn.begins_eq_true {t : Turn} (h : t.after.cycleCount = t.before.cycleCount + 1) :
    t.begins = true :=
  decide_eq_true (h ▸ Nat.lt_succ_self _)

theorem Turn.begins_eq_false {t : Turn} (h : t.after.cycleCount = t.before.cycleCount) :
    t.begins = false :=
  decide_eq_false (h ▸ Nat.lt_irrefl _)

/-- Whether the visit of a turn for the running cycle failed: then it wiped the plot. -/
def Turn.failed (t : Turn) : Bool := t.visit?.any fun c => decide (.clear c ∈ t.events)

theorem Turn.failed_eq_false {t : Turn} (h : t.visit? = none) : t.failed = false := by
  rw [Turn.failed, h, Option.any_none]

/-- A turn fails as its visit does: nothing wipes the plot behind it. -/
theorem Turn.failed_eq {t : Turn} {c : Nat} {m m' : σ} {es rest : List Event} {success : Bool}
    (hc : t.visit? = some c) (hv : t.before.visit w c m = ⟨es, m', some success⟩)
    (hes : t.events = es ++ rest) (hnotice : ∀ e ∈ rest, e.IsNotice) : t.failed = !success := by
  have hquiet : .clear c ∉ rest := fun hmem => hnotice _ hmem
  have hclear := (visit_eq_some hv).2
  rw [Turn.failed, hc, Option.any_some, hes]
  cases success <;> simp_all

/-- A visit for the running cycle failed exactly if the retrieval of one of the series of the plot did, from
whatever memory the turn went out. -/
theorem Turn.retrieved {t : Turn} {c : Nat} {m m' : σ} (hs : Sound t.before)
    (h : t.operation.perform w t.before m = ⟨t.events, m', some t.after⟩) (hc : t.visit? = some c) :
    Retrieved w t.before (t.before.series c) m (!t.failed) := by
  obtain ⟨hstep, hcursor⟩ : t.operation = .step ∧ t.before.cursor = some c := by
    simpa [Turn.visit?] using hc
  rw [hstep] at h
  obtain ⟨es, m₁, success, rest, hv, hes, hnotice, -⟩ :=
    step_eq_some hcursor (hs.registered c hcursor) h
  rw [Turn.failed_eq hc hv hes hnotice, Bool.not_not]
  exact (visit_eq_some hv).1

/-- What a turn reports, and what it leaves for the reports to come. -/
structure Turn.Reports (t : Turn) : Prop where
  link : t.after.statusLink = .attached
  statuses : statuses t.events = (t.visit?.map fun c => t.before.reached c !t.failed).toList ++
    if t.begins then [t.before.opening] else []
  failures : t.after.cursor ≠ none →
    t.after.cycleFailures = if t.begins then 0 else t.before.cycleFailures + t.failed.toNat

variable {t : Turn}

/-- Only the receiver itself changes whether it is there, and only cycles count failures. -/
theorem perform_keeps_of_aside {op : Operation} {s' : Scheduler} {m' : σ} {es : List Event}
    (hr : op.requests s = false) (hop : op ≠ .step) (hlose : op ≠ .loseReceiver)
    (h : op.perform w s m = ⟨es, m', some s'⟩) :
    s'.statusLink = s.statusLink ∧ s'.cycleFailures = s.cycleFailures := by
  cases op with
  | addPlot | setDefaultRuns | setDefaultProgram =>
    obtain ⟨-, -, rfl⟩ := pure_eq_some h
    exact ⟨rfl, rfl⟩
  | changeSource plot source refreshNow =>
    obtain ⟨es₁, m₁, r, es₂, h₁, h₂, -⟩ := bind_eq_some h
    obtain ⟨-, -, rfl⟩ := pure_eq_some h₂
    obtain ⟨-, rfl | ⟨p, rfl⟩⟩ := changeSource_eq_some h₁
    · exact ⟨rfl, rfl⟩
    · exact ⟨rfl, rfl⟩
  | setInterval interval =>
    obtain ⟨-, timer, rfl, -⟩ := rearm_eq_some h
    exact ⟨rfl, rfl⟩
  | setVisible visible =>
    change s.setVisible w visible m = _ at h
    unfold setVisible at h
    split at h
    · obtain ⟨-, -, rfl⟩ := pure_eq_some h
      exact ⟨rfl, rfl⟩
    · rename_i hchange
      split at h
      · rename_i hvisible
        have hidden : s.visible = false := by simpa [hvisible] using Ne.symm hchange
        have hzero : s.interval = 0 := by simpa [Operation.requests, hvisible, hidden] using hr
        dsimp only at h
        rw [if_neg fun hne => hne hzero] at h
        obtain ⟨-, -, rfl⟩ := pure_eq_some h
        exact ⟨rfl, rfl⟩
      · obtain ⟨es₁, m₁, u, es₂, -, h₂, -⟩ := bind_eq_some h
        obtain ⟨-, -, rfl⟩ := pure_eq_some h₂
        exact ⟨rfl, rfl⟩
  | fireTimer time =>
    obtain ⟨es₁, m₁, ⟨s₁, fired⟩, es₂, h₁, h₂, -⟩ := bind_eq_some h
    obtain ⟨-, -, rfl⟩ := pure_eq_some h₂
    obtain ⟨-, rfl, -⟩ := fireTimer_eq_some_of_aside hr h₁
    exact ⟨rfl, rfl⟩
  | start | refreshAll => cases hr
  | step => exact absurd rfl hop
  | loseReceiver => exact absurd rfl hlose

theorem Turn.reports_of_step {s' : Scheduler} {c : Nat} {m' : σ} {es : List Event} (hs : Sound s)
    (hl : s.statusLink = .attached) (hc : s.cursor = some c) (h : s.step w m = ⟨es, m', some s'⟩) :
    Turn.Reports ⟨.step, s, es, s'⟩ := by
  have hlt := hs.registered c hc
  have hreport := statuses_of_step (w := w) hl hc hlt m
  obtain ⟨es₁, m₁, success, es₂, hv, rfl, hnotice, hend⟩ := step_eq_some hc hlt h
  have hvisit : Turn.visit? ⟨.step, s, es₁ ++ es₂, s'⟩ = some c := Turn.visit?_eq_some rfl hc
  have hfailed : Turn.failed ⟨.step, s, es₁ ++ es₂, s'⟩ = !success :=
    Turn.failed_eq hvisit hv rfl hnotice
  rw [h, hv] at hreport
  dsimp only at hreport
  rcases hend with ⟨hmore, rfl, -⟩ | ⟨hlast, es₃, hf, -⟩
  · have hbegins : Turn.begins ⟨.step, s, es₁ ++ es₂, s.visited c success⟩ = false :=
      decide_eq_false (Nat.lt_irrefl _)
    refine ⟨visited_attached c success hl, ?_, fun _ => ?_⟩
    · rw [hreport, hvisit, hfailed, hbegins, Bool.not_not, if_neg fun hend => Nat.ne_of_lt hmore hend.1]
      rfl
    · rw [hfailed, hbegins]
      cases success <;> rfl
  · rcases finishCycle_eq_some (s := s.visited c success) (hs.plots_ne_nil hc) hf with
      ⟨hrerun, hvisible, rfl, -⟩ | ⟨hnot, -, timer, rfl, -⟩
    · have hbegins : Turn.begins ⟨.step, s, es₁ ++ es₂, (s.visited c success).rested.opened⟩ = true :=
        Turn.begins_eq_true rfl
      refine ⟨?_, ?_, fun _ => ?_⟩
      · change (s.visited c success).statusLink.noticed = _
        rw [visited_attached c success hl]
        rfl
      · rw [hreport, hvisit, hfailed, hbegins, Bool.not_not, if_pos ⟨hlast, hrerun, hvisible⟩]
        rfl
      · rw [hbegins]
        rfl
    · have hbegins : Turn.begins ⟨.step, s, es₁ ++ es₂, { (s.visited c success).rested with
          timer := timer }⟩ = false :=
        Turn.begins_eq_false rfl
      refine ⟨visited_attached c success hl, ?_, fun hne => absurd rfl hne⟩
      rw [hreport, hvisit, hfailed, hbegins, Bool.not_not, if_neg fun hend => hnot hend.2]
      rfl

theorem Turn.reports_of_idle_step {s' : Scheduler} {m' : σ} {es : List Event}
    (hl : s.statusLink = .attached) (hc : s.cursor = none) (h : s.step w m = ⟨es, m', some s'⟩) :
    Turn.Reports ⟨.step, s, es, s'⟩ := by
  unfold step at h
  rw [hc] at h
  obtain ⟨rfl, -, rfl⟩ := pure_eq_some h
  refine ⟨hl, ?_, fun hne => absurd hc hne⟩
  simp [Turn.visit?, Turn.begins, hc]

theorem Turn.reports_of_requests {op : Operation} {s' : Scheduler} {m' : σ} {es : List Event}
    (hs : Sound s) (hl : s.statusLink = .attached) (hr : op.requests s)
    (h : op.perform w s m = ⟨es, m', some s'⟩) : Turn.Reports ⟨op, s, es, s'⟩ := by
  have hreport := statuses_of_requests (w := w) hl hs.queued hr m
  rw [h] at hreport
  dsimp only at hreport
  have hstep : op ≠ .step := by
    rintro rfl
    cases hr
  have hvisit : Turn.visit? ⟨op, s, es, s'⟩ = none := if_neg hstep
  have hfailed : Turn.failed ⟨op, s, es, s'⟩ = false := Turn.failed_eq_false hvisit
  obtain ⟨es', -, hbegin⟩ := perform_eq_some_of_requests hr h
  obtain ⟨interval, timer, hp⟩ := Operation.prepare_eq hr
  rw [hp] at hbegin
  rcases beginCycle_eq_some (by exact hs.queued) hbegin with
    ⟨hsome, -, rfl⟩ | ⟨hnone, -, rfl, -⟩ | ⟨hnone, -, -, timer', rfl, -⟩
  · have hcycling : s.cycling = true := hsome
    rw [if_pos hcycling] at hreport
    refine ⟨hl, ?_, fun _ => ?_⟩
    · rw [hreport, hvisit, Turn.begins]
      simp
    · rw [hfailed, Turn.begins]
      simp
  · have hidle : ¬ s.cycling = true := not_cycling_iff.mpr hnone
    rw [if_neg hidle] at hreport
    refine ⟨?_, ?_, fun _ => ?_⟩
    · change s.statusLink.noticed = _
      rw [hl]
      rfl
    · rw [hreport, hvisit, Turn.begins]
      simp [opened]
    · rw [Turn.begins]
      simp [opened]
  · have hidle : ¬ s.cycling = true := not_cycling_iff.mpr hnone
    rw [if_neg hidle] at hreport
    refine ⟨?_, ?_, fun hne => absurd rfl hne⟩
    · change s.statusLink.noticed = _
      rw [hl]
      rfl
    · rw [hreport, hvisit, Turn.begins]
      simp [opened]

theorem Turn.reports_of_aside {op : Operation} {s' : Scheduler} {m' : σ} {es : List Event}
    (hs : Sound s) (hl : s.statusLink = .attached) (hr : op.requests s = false) (hop : op ≠ .step)
    (hlose : op ≠ .loseReceiver) (h : op.perform w s m = ⟨es, m', some s'⟩) :
    Turn.Reports ⟨op, s, es, s'⟩ := by
  have hreport := statuses_of_aside (w := w) hr hop m
  rw [h] at hreport
  obtain ⟨hlink, hfailures⟩ := perform_keeps_of_aside hr hop hlose h
  obtain ⟨-, haside, -⟩ := perform_eq_some_of_aside hs.toOrderly hr hop h
  have hvisit : Turn.visit? ⟨op, s, es, s'⟩ = none := if_neg hop
  have hfailed : Turn.failed ⟨op, s, es, s'⟩ = false := Turn.failed_eq_false hvisit
  have hbegins : Turn.begins ⟨op, s, es, s'⟩ = false := Turn.begins_eq_false haside.cycleCount
  refine ⟨hlink.trans hl, ?_, fun _ => ?_⟩
  · rw [hreport, hvisit, hbegins]
    rfl
  · rw [hbegins, hfailed]
    exact hfailures

theorem Turn.Occurs.reports (hs : Sound t.before) (hl : t.before.statusLink = .attached)
    (hlose : t.operation ≠ .loseReceiver) (h : t.Occurs w) : t.Reports := by
  obtain ⟨op, s, es, s'⟩ := t
  obtain ⟨m, m', h⟩ := h
  by_cases hop : op = .step
  · subst hop
    cases hc : s.cursor with
    | some c => exact Turn.reports_of_step hs hl hc h
    | none => exact Turn.reports_of_idle_step hl hc h
  · by_cases hr : op.requests s
    · exact Turn.reports_of_requests hs hl hr h
    · exact Turn.reports_of_aside hs hl (by simpa using hr) hop hlose h

/-- Over a run, every turn reports as long as the receiver stays. -/
theorem Run.reports {s' : Scheduler} {turns : List Turn} (hs : Sound s) (hl : s.statusLink = .attached)
    (hstays : ∀ t ∈ turns, t.operation ≠ .loseReceiver) (h : Run w s turns s') :
    (∀ t ∈ turns, t.Reports) ∧ s'.statusLink = .attached := by
  induction h with
  | nil s => exact ⟨List.forall_mem_nil _, hl⟩
  | @cons t turns s' ht _ ih =>
    obtain ⟨hstay, hstays⟩ := List.forall_mem_cons.mp hstays
    have hreports := ht.reports hs hl hstay
    obtain ⟨hmore, hattached⟩ := ih (ht.sound hs) hreports.link hstays
    exact ⟨List.forall_mem_cons.mpr ⟨hreports, hmore⟩, hattached⟩

end Scheduler

end HistogramMonitor
