import HistogramMonitor.Proofs.Scheduler.Reports
import HistogramMonitor.Proofs.Transport.Calls

/-!
# What a visit asks for

A visit asks for the series of its plot one after the other, with the runs and the program that each names
or else the defaults, and leaves those alone that are behind the one at which it ends (`Asks`). A step asks for
what its visit asks for and for nothing else (`calls_step`). Since this is about calls and not about what comes of
them, it also holds of a visit in which the client dies. Where a visit ends is decided by what comes back for its
series, and that is another matter (`Retrievals`).
-/

namespace HistogramMonitor

/-- The first call for a series, where these defaults are in force. -/
def SeriesSource.request (runs : List UInt32) (program : String) (item : SeriesSource) : Call :=
  Client.request item.name (item.runs.getD runs) (item.program.getD program)

/-- The calls that a visit to a plot with these series can make, where these defaults are in force. -/
inductive Asks (runs : List UInt32) (program : String) : List SeriesSource → List Call → Prop
  /-- there is nothing, or nothing more, to ask for -/
  | done : Asks runs program [] []
  /-- the series is asked for, and those behind it are left alone -/
  | lost {item : SeriesSource} {rest : List SeriesSource} {cs : List Call}
      (asked : Client.Attempts (item.request runs program) cs) : Asks runs program (item :: rest) cs
  | got {item : SeriesSource} {rest : List SeriesSource} {cs more : List Call}
      (asked : Client.Attempts (item.request runs program) cs) (next : Asks runs program rest more) :
      Asks runs program (item :: rest) (cs ++ more)

theorem Event.IsNotice.silent {e : Event} (h : e.IsNotice) : e.call? = none := by
  cases e <;> first | rfl | exact h.elim

namespace Scheduler

open HistogramMonitor.Action

variable {σ : Type}

theorem calls_drawSeries (w : Surroundings σ) (s : Scheduler) (plot : Nat) (items : List SeriesSource) :
    ∀ i m, Asks s.defaultRuns s.defaultProgram items
      (calls (s.drawSeries w plot i items m).events) := by
  induction items with
  | nil => exact fun i m => .done
  | cons item rest ih =>
    intro i m
    have hasked := Client.calls_retrieve w item.name (item.runs.getD s.defaultRuns)
      (item.program.getD s.defaultProgram) m
    unfold drawSeries
    dsimp only
    rw [calls_bind]
    rcases (Client.retrieve w item.name (item.runs.getD s.defaultRuns)
      (item.program.getD s.defaultProgram) m).value with _ | e | h
    · exact (List.append_nil _).symm ▸ .lost hasked
    · exact (List.append_nil _).symm ▸ .lost hasked
    · exact .got hasked (ih (i + 1) _)

/-- A visit draws the series of its plot, and may tell somebody about it before and after. -/
theorem visit_apply (w : Surroundings σ) (s : Scheduler) (plot : Nat) (m : σ) :
    ∃ before after : List Event,
      (∀ e ∈ before ++ after, e = .updateStart plot ∨ e = .updateComplete plot) ∧
      s.visit w plot m = ⟨before ++ (s.drawSeries w plot 0 (s.series plot) m).events ++ after,
        (s.drawSeries w plot 0 (s.series plot) m).next,
        (s.drawSeries w plot 0 (s.series plot) m).value⟩ := by
  unfold visit series source?
  cases s.plots[plot]? with
  | none => exact ⟨[], [], List.forall_mem_nil _, rfl⟩
  | some p =>
    dsimp only
    rw [Option.bind_some]
    cases p.source with
    | none => exact ⟨[], [], List.forall_mem_nil _, rfl⟩
    | some source =>
      dsimp only [Option.map_some, Option.getD_some]
      have hstart : ∀ e ∈ (if p.announcesStart then [Event.updateStart plot] else []),
          e = .updateStart plot ∨ e = .updateComplete plot := by
        split <;> simp
      have hcomplete : ∀ e ∈ (if p.announcesComplete then [Event.updateComplete plot] else []),
          e = .updateStart plot ∨ e = .updateComplete plot := by
        split <;> simp
      rw [tell_if_apply, bind_apply]
      cases (s.drawSeries w plot 0 source.series m).value with
      | none =>
        -- the client has died, and nobody is told any more
        refine ⟨_, [], List.forall_mem_append.mpr ⟨hstart, List.forall_mem_nil _⟩, ?_⟩
        rw [List.append_nil]
      | some success =>
        dsimp only
        rw [tell_if_apply]
        refine ⟨_, _, List.forall_mem_append.mpr ⟨hstart, hcomplete⟩, ?_⟩
        rw [pure_apply, List.append_nil, List.append_assoc]

/-- The calls of a visit are those of its drawings. -/
theorem calls_visit_eq (w : Surroundings σ) (s : Scheduler) (plot : Nat) (m : σ) :
    calls (s.visit w plot m).events = calls (s.drawSeries w plot 0 (s.series plot) m).events := by
  obtain ⟨before, after, hnotices, hvisit⟩ := visit_apply w s plot m
  have hsilent : ∀ e ∈ before ++ after, e.call? = none := by
    intro e he
    rcases hnotices e he with rfl | rfl <;> rfl
  rw [hvisit, calls_append, calls_append, calls_eq_nil fun e he => hsilent e (List.mem_append_left _ he),
    calls_eq_nil fun e he => hsilent e (List.mem_append_right _ he), List.nil_append, List.append_nil]

/-- A visit asks for the series of its plot, with the defaults in force. -/
theorem calls_visit (w : Surroundings σ) (s : Scheduler) (plot : Nat) (m : σ) :
    Asks s.defaultRuns s.defaultProgram (s.series plot) (calls (s.visit w plot m).events) := by
  rw [calls_visit_eq]
  exact calls_drawSeries w s plot (s.series plot) 0 m

/-- What a step does once the cursor has moved on. -/
theorem step_end_emits (w : Surroundings σ) (s : Scheduler) :
    (if s.cursor.any (s.plots.length ≤ ·) then s.finishCycle w else pure s).Emits Event.IsNotice :=
  Emits.ite (finishCycle_emits w s) (emits_pure s)

/-- The calls of a step are those of its visit. -/
theorem calls_step_eq (w : Surroundings σ) {s : Scheduler} {c : Nat} (hc : s.cursor = some c) (m : σ) :
    calls (s.step w m).events = calls (s.visit w c m).events := by
  unfold step
  rw [hc]
  dsimp only
  by_cases hlt : c < s.plots.length
  · rw [if_pos hlt]
    exact calls_bind_of_emits m fun success =>
      ((report_emits _ _).bind (step_end_emits w)).mono fun _ => Event.IsNotice.silent
  · -- there is no plot at the cursor, and nothing but the end of the cycle is left
    have hnone : s.plots[c]? = none := List.getElem?_eq_none_iff.mpr (Nat.le_of_not_lt hlt)
    have hvisit : s.visit w c m = ⟨[], m, some true⟩ := by
      unfold visit
      rw [hnone]
      rfl
    rw [if_neg hlt, hvisit]
    exact calls_of_emits ((step_end_emits w s).mono fun _ => Event.IsNotice.silent) m

/-- **A step** of a running cycle asks for the series of the plot at the cursor, with the defaults in force,
and for nothing else. -/
theorem calls_step (w : Surroundings σ) {s : Scheduler} {c : Nat} (hc : s.cursor = some c) (m : σ) :
    Asks s.defaultRuns s.defaultProgram (s.series c) (calls (s.step w m).events) := by
  rw [calls_step_eq w hc]
  exact calls_visit w s c m

end Scheduler

end HistogramMonitor
