import HistogramMonitor.Proofs.Scheduler.Reports

/-!
# Work without observers

Whoever looks on can be told of the beginnings and ends of cycles and of refreshes, and can receive statuses.
A scheduler without observers is *bare*. The idea is to erase them: `Shadows f x y` says that an action `x` does
the same work as an action `y` and comes to the same but for `f`, whatever observers are told in between.
Sequences keep that, and so all that a scheduler does shadows what the bare one does, part by part.

A step reports once when the cursor has moved on, and once more if a follow-up begins. Here it is taken apart
between the two (`step_eq_advance_settle`).
-/

namespace HistogramMonitor

variable {σ α β γ δ : Type}

/-! ## Work -/

/-- Something that only observers are told, or that is said about them. -/
def Event.IsForObservers : Event → Bool
  | .updateStart _ | .updateComplete _ | .cycleStart | .cycleComplete | .status _ => true
  | .log l => l = ⟨.diagnostics, .debug, "Cycle status receiver is gone, no longer reporting progress"⟩
  | _ => false

/-- What is left of some events if nobody looks on. -/
def work (es : List Event) : List Event := es.filter fun e => !e.IsForObservers

theorem work_append (es fs : List Event) : work (es ++ fs) = work es ++ work fs := List.filter_append es fs

theorem work_eq_nil {es : List Event} (h : ∀ e ∈ es, e.IsForObservers = true) : work es = [] :=
  List.filter_eq_nil_iff.mpr fun e he => by simp [h e he]

namespace Action

theorem pure_bind (a : α) (f : α → Action σ β) : (pure a >>= f : Action σ β) = f a := rfl

theorem bind_pure (x : Action σ α) : x >>= pure = x := by
  funext m
  rw [bind_apply]
  rcases x m with ⟨es, m', _ | a⟩
  · rfl
  · exact congrArg (Outcome.mk · m' (some a)) (List.append_nil es)

theorem bind_assoc (x : Action σ α) (f : α → Action σ β) (g : β → Action σ γ) :
    x >>= f >>= g = x >>= fun a => f a >>= g := by
  funext m
  simp only [bind_apply]
  cases (x m).value with
  | none => rfl
  | some a =>
    dsimp only
    cases (f a (x m).next).value with
    | none => rfl
    | some b => simp only [List.append_assoc]

/-- What comes behind an action has to be known only for the values that the action can come to. -/
theorem Gives.bind_congr {x : Action σ α} {f g : α → Action σ β} (h : x.Gives fun a => f a = g a) :
    x >>= f = x >>= g := by
  funext m
  rw [bind_apply, bind_apply]
  cases hvalue : (x m).value with
  | none => rfl
  | some a =>
    dsimp only
    rw [h m a hvalue]

/-- Both actions do the same work, leave the same memory and come to the same but for `f`, or die both. -/
def Shadows (f : α → β) (x : Action σ α) (y : Action σ β) : Prop :=
  ∀ m, work (x m).events = work (y m).events ∧ (x m).next = (y m).next ∧ (x m).value.map f = (y m).value

theorem Shadows.refl (x : Action σ α) : Shadows id x x := fun _ => ⟨rfl, rfl, congrFun Option.map_id _⟩

theorem shadows_pure {f : α → β} (a : α) : Shadows f (pure a : Action σ α) (pure (f a)) :=
  fun _ => ⟨rfl, rfl, rfl⟩

theorem Shadows.bind {f : α → β} {g : γ → δ} {x : Action σ α} {y : Action σ β} {k : α → Action σ γ}
    {l : β → Action σ δ} (hxy : Shadows f x y) (hkl : ∀ a, Shadows g (k a) (l (f a))) :
    Shadows g (x >>= k) (y >>= l) := by
  intro m
  obtain ⟨hwork, hnext, hvalue⟩ := hxy m
  rw [bind_apply, bind_apply, ← hvalue, ← hnext]
  cases (x m).value with
  | none => exact ⟨hwork, rfl, rfl⟩
  | some a =>
    obtain ⟨hmore, hlast⟩ := hkl a (x m).next
    refine ⟨?_, hlast⟩
    dsimp only [Option.map_some]
    rw [work_append, work_append, hwork, hmore]

theorem Shadows.ite {f : α → β} {c d : Prop} [Decidable c] [Decidable d] {x x' : Action σ α}
    {y y' : Action σ β} (hcd : c ↔ d) (h : Shadows f x y) (h' : Shadows f x' y') :
    Shadows f (if c then x else x') (if d then y else y') := by
  by_cases hc : c
  · rw [if_pos hc, if_pos (hcd.mp hc)]
    exact h
  · rw [if_neg hc, if_neg fun hd => hc (hcd.mpr hd)]
    exact h'

/-- It makes no difference under which condition observers are told something. -/
theorem Shadows.tell_if {f : α → β} {c d : Prop} [Decidable c] [Decidable d] {e : Event} {x : Action σ α}
    {y : Action σ β} (he : e.IsForObservers = true) (h : Shadows f x y) :
    Shadows f (if c then tell [e] >>= fun _ => x else x) (if d then tell [e] >>= fun _ => y else y) := by
  have hquiet : ∀ (p : Prop) [Decidable p], work (if p then [e] else []) = [] := by
    intro p _
    split
    · exact work_eq_nil (List.forall_mem_singleton.mpr he)
    · rfl
  intro m
  obtain ⟨hwork, hrest⟩ := h m
  rw [tell_if_apply, tell_if_apply]
  refine ⟨?_, hrest⟩
  dsimp only
  rw [work_append, work_append, hquiet, hquiet, hwork]

end Action

open HistogramMonitor.Action

/-! ## Bare schedulers -/

/-- The plot without observers. -/
def Plot.bare (p : Plot) : Plot := { p with announcesStart := false, announcesComplete := false }

namespace Scheduler

/-- The scheduler without observers. -/
def bare (s : Scheduler) : Scheduler :=
  { s with
    plots := s.plots.map Plot.bare
    announcesStart := false
    announcesComplete := false
    statusLink := .absent }

variable {w : Surroundings σ} {s : Scheduler}

@[simp] theorem length_plots_bare (s : Scheduler) : s.bare.plots.length = s.plots.length := List.length_map _

theorem plots_bare_eq_nil (s : Scheduler) : s.bare.plots = [] ↔ s.plots = [] := List.map_eq_nil_iff

theorem getElem?_plots_bare (s : Scheduler) (i : Nat) : s.bare.plots[i]? = s.plots[i]?.map Plot.bare :=
  List.getElem?_map

/-! ## The parts -/

theorem work_announcement (done : Nat) (s : Scheduler) : work (s.announcement done) = [] := by
  unfold announcement
  split <;> rfl

theorem report_shadows (done : Nat) (s : Scheduler) :
    Shadows bare (report done s : Action σ Scheduler) (report done s.bare) := by
  intro m
  rw [report_apply, report_apply]
  refine ⟨?_, rfl, rfl⟩
  dsimp only
  rw [work_announcement, work_announcement]

theorem rearm_shadows (w : Surroundings σ) (s : Scheduler) : Shadows bare (s.rearm w) (s.bare.rearm w) := by
  refine .ite Iff.rfl (.bind (.refl (now w)) fun t => ?_) (shadows_pure _)
  dsimp only [bare, id_eq]
  cases t.after? s.interval with
  | none => exact fun _ => ⟨rfl, rfl, rfl⟩
  | some deadline => exact shadows_pure _

theorem openCycle_shadows (s : Scheduler) :
    Shadows bare (s.openCycle : Action σ Scheduler) s.bare.openCycle :=
  .tell_if rfl (report_shadows 0 _)

theorem closeCycle_shadows (s : Scheduler) :
    Shadows bare (s.closeCycle : Action σ Scheduler) s.bare.closeCycle := by
  unfold closeCycle
  rw [length_plots_bare]
  refine .tell_if rfl (.ite Iff.rfl (.bind (.refl _) fun _ => shadows_pure _) (shadows_pure _))

theorem followUp_shadows (w : Surroundings σ) (s : Scheduler) :
    Shadows bare (s.followUp w) (s.bare.followUp w) := by
  refine .bind (openCycle_shadows s) fun s => .ite (s.plots_bare_eq_nil).symm ?_ (shadows_pure s)
  exact .bind (closeCycle_shadows s) (rearm_shadows w)

theorem finishCycle_shadows (w : Surroundings σ) (s : Scheduler) :
    Shadows bare (s.finishCycle w) (s.bare.finishCycle w) := by
  refine .bind (closeCycle_shadows s) fun s => .ite Iff.rfl (.ite Iff.rfl ?_ ?_) (rearm_shadows w s)
  · exact followUp_shadows w { s with rerunRequested := false }
  · exact rearm_shadows w { s with rerunRequested := false }

theorem beginCycle_shadows (w : Surroundings σ) (s : Scheduler) :
    Shadows bare (s.beginCycle w) (s.bare.beginCycle w) := by
  refine .ite Iff.rfl (shadows_pure _) (.bind (openCycle_shadows s) fun s => ?_)
  exact .ite (s.plots_bare_eq_nil).symm (finishCycle_shadows w s) (shadows_pure s)

/-! ## Visits and steps -/

/-- Drawing reads the defaults only. -/
theorem drawSeries_congr {t : Scheduler} (hruns : t.defaultRuns = s.defaultRuns)
    (hprogram : t.defaultProgram = s.defaultProgram) (plot : Nat) (items : List SeriesSource) :
    ∀ i, t.drawSeries w plot i items = s.drawSeries w plot i items := by
  induction items with
  | nil => exact fun _ => rfl
  | cons item rest ih =>
    intro i
    unfold drawSeries
    simp only [ih, hruns, hprogram]

/-- A visit reads its plot and the defaults only. -/
theorem visit_congr {t : Scheduler} {plot : Nat} (hplot : t.plots[plot]? = s.plots[plot]?)
    (hruns : t.defaultRuns = s.defaultRuns) (hprogram : t.defaultProgram = s.defaultProgram) :
    t.visit w plot = s.visit w plot := by
  unfold visit
  simp only [hplot, drawSeries_congr hruns hprogram]

theorem visit_shadows (w : Surroundings σ) (s : Scheduler) (plot : Nat) :
    Shadows id (s.visit w plot) (s.bare.visit w plot) := by
  unfold visit
  rw [getElem?_plots_bare]
  cases s.plots[plot]? with
  | none => exact .refl _
  | some p =>
    dsimp only [Option.map_some, Plot.bare]
    cases p.source with
    | none => exact .refl _
    | some source =>
      dsimp only
      rw [drawSeries_congr (s := s) (t := s.bare) rfl rfl]
      exact .tell_if rfl (.bind (.refl _) fun success => .tell_if rfl (shadows_pure success))

/-- The first half of a step: the plot at the cursor is visited, and the cursor moves on. -/
def advance (w : Surroundings σ) (s : Scheduler) : Action σ Scheduler :=
  match s.cursor with
  | none => return s
  | some c =>
    if c < s.plots.length then do
      let success ← s.visit w c
      let failures := if success then s.cycleFailures else s.cycleFailures + 1
      report (c + 1) { s with cycleFailures := failures, cursor := some (c + 1) }
    else return s

/-- The second half of a step: if that was the last plot, the cycle is finished. -/
def settle (w : Surroundings σ) (s : Scheduler) : Action σ Scheduler :=
  if s.cursor.any (s.plots.length ≤ ·) then s.finishCycle w else return s

theorem advance_shadows (w : Surroundings σ) (s : Scheduler) :
    Shadows bare (s.advance w) (s.bare.advance w) := by
  unfold advance
  have hcursor : s.bare.cursor = s.cursor := rfl
  rw [hcursor]
  cases s.cursor with
  | none => exact shadows_pure s
  | some c =>
    dsimp only
    rw [length_plots_bare]
    exact .ite Iff.rfl (.bind (visit_shadows w s c) fun success => report_shadows (c + 1) _) (shadows_pure s)

theorem settle_shadows (w : Surroundings σ) (s : Scheduler) : Shadows bare (s.settle w) (s.bare.settle w) := by
  unfold settle
  rw [length_plots_bare]
  exact .ite Iff.rfl (finishCycle_shadows w s) (shadows_pure s)

/-- A step is its two halves. -/
theorem step_eq_advance_settle (w : Surroundings σ) (s : Scheduler) : s.step w = s.advance w >>= settle w := by
  unfold step advance
  cases hc : s.cursor with
  | none =>
    dsimp only
    rw [pure_bind, settle, hc, Option.any_none, if_neg Bool.false_ne_true]
  | some c =>
    dsimp only
    by_cases hlt : c < s.plots.length
    · rw [if_pos hlt, if_pos hlt, bind_assoc]
      rfl
    · rw [if_neg hlt, if_neg hlt, pure_bind]
      rfl

/-! ## Operations -/

theorem changeSource_shadows (w : Surroundings σ) (plot : Nat) (source : Option PlotSource)
    (refreshNow : Bool) (s : Scheduler) :
    Shadows (Option.map bare) (s.changeSource w plot source refreshNow)
      (s.bare.changeSource w plot source refreshNow) := by
  unfold changeSource
  rw [getElem?_plots_bare]
  cases s.plots[plot]? with
  | none => exact shadows_pure none
  | some p =>
    have hset : ({ s with plots := s.plots.set plot { p with source := source } } : Scheduler).bare =
        { s.bare with plots := s.bare.plots.set plot { p.bare with source := source } } := by
      simp only [bare, List.map_set, Plot.bare]
    dsimp only [Option.map_some]
    rw [← hset]
    exact .ite Iff.rfl (.bind (visit_shadows w _ plot) fun _ => shadows_pure (some _)) (shadows_pure (some _))

theorem setVisible_shadows (w : Surroundings σ) (visible : Bool) (s : Scheduler) :
    Shadows bare (s.setVisible w visible) (s.bare.setVisible w visible) := by
  refine .ite Iff.rfl (shadows_pure s) (.ite Iff.rfl (.ite Iff.rfl ?_ (shadows_pure _)) ?_)
  · exact .bind (.refl _) fun _ => beginCycle_shadows w _
  · exact .bind (.refl _) fun _ => shadows_pure _

theorem fireTimer_shadows (w : Surroundings σ) (time : Instant) (s : Scheduler) :
    Shadows (fun r => (r.1.bare, r.2)) (s.fireTimer w time) (s.bare.fireTimer w time) := by
  unfold fireTimer
  have htimer : s.bare.timer = s.timer := rfl
  rw [htimer]
  cases s.timer with
  | none => exact shadows_pure (s, false)
  | some deadline =>
    refine .ite Iff.rfl (.bind (beginCycle_shadows w _) fun s => shadows_pure (s, true)) ?_
    exact shadows_pure (s, false)

theorem step_shadows (w : Surroundings σ) (s : Scheduler) : Shadows bare (s.step w) (s.bare.step w) := by
  rw [step_eq_advance_settle, step_eq_advance_settle]
  exact .bind (advance_shadows w s) (settle_shadows w)

end Scheduler

end HistogramMonitor
