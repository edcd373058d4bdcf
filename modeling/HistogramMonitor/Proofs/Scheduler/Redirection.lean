import HistogramMonitor.Proofs.Scheduler.Observers
import HistogramMonitor.Proofs.Scheduler.Visits

/-!
# Pointing a plot at another source

A change of the source either finds no such plot, and then it is as if nobody had asked, or it changes the
registry at that one place (`redirected`). If the plot is to be seen at once, it is visited, and that is the visit
that a step would make: it counts nothing, moves nothing and reports nothing, and whether it fails or not makes no
difference to the state (`changeSource_eq`).

Headline: `source_changed`.
-/

namespace HistogramMonitor.Scheduler

open HistogramMonitor.Action

variable {σ : Type} {w : Surroundings σ} {s : Scheduler} {plot : Nat} {source : Option PlotSource}

/-! ## The state -/

/-- The scheduler with a plot that is pointed at another source. -/
def redirected (plot : Nat) (source : Option PlotSource) (s : Scheduler) : Scheduler :=
  { s with plots := s.plots.modify plot fun p => { p with source := source } }

@[simp] theorem length_plots_redirected (plot : Nat) (source : Option PlotSource) (s : Scheduler) :
    (s.redirected plot source).plots.length = s.plots.length :=
  List.length_modify ..

theorem plots_redirected_eq_nil (plot : Nat) (source : Option PlotSource) (s : Scheduler) :
    (s.redirected plot source).plots = [] ↔ s.plots = [] := by
  rw [← List.length_eq_zero_iff, ← List.length_eq_zero_iff, length_plots_redirected]

/-- The plot keeps its callbacks, and all others keep everything. -/
theorem getElem?_plots_redirected (i : Nat) : (s.redirected plot source).plots[i]? =
    s.plots[i]?.map fun p => if i = plot then { p with source := source } else p := by
  rw [redirected, List.getElem?_modify]
  simp only [eq_comm]
  rfl

theorem getElem?_plots_redirected_of_ne {i : Nat} (h : i ≠ plot) :
    (s.redirected plot source).plots[i]? = s.plots[i]? := by
  rw [getElem?_plots_redirected]
  simp only [if_neg h, Option.map_id']

theorem redirected_of_unregistered (h : s.plots.length ≤ plot) : s.redirected plot source = s := by
  rw [redirected, List.modify_eq_self h]

/-! ## The change -/

theorem changeSource_of_unregistered (h : s.plots.length ≤ plot) (refreshNow : Bool) :
    s.changeSource w plot source refreshNow = pure none := by
  simp only [changeSource, List.getElem?_eq_none h]

/-- A change of the source is a change of the registry, and the visit that may be made besides decides nothing. -/
theorem changeSource_eq (h : plot < s.plots.length) (refreshNow : Bool) :
    s.changeSource w plot source refreshNow =
      if refreshNow then (s.redirected plot source).visit w plot >>= fun _ => pure (some (s.redirected plot source))
      else pure (some (s.redirected plot source)) := by
  have hp : s.plots[plot]? = some s.plots[plot] := List.getElem?_eq_getElem h
  simp only [changeSource, hp, set_source hp, redirected]

/-- Without a visit a change of the source needs nothing and shows nothing. -/
theorem perform_changeSource_false (w : Surroundings σ) (plot : Nat) (source : Option PlotSource) (s : Scheduler) :
    (Operation.changeSource plot source false).perform w s = pure (s.redirected plot source) := by
  dsimp only [Operation.perform]
  rcases Nat.lt_or_ge plot s.plots.length with h | h
  · rw [changeSource_eq h, if_neg Bool.false_ne_true, pure_bind, Option.getD_some]
  · rw [changeSource_of_unregistered h, redirected_of_unregistered h, pure_bind, Option.getD_none]

/-- Who names a plot that is not registered is told so, and that is all. -/
theorem execute_changeSource_of_unregistered (h : s.plots.length ≤ plot) (refreshNow : Bool) :
    (Operation.changeSource plot source refreshNow).execute w s = pure (some (.unknown plot), s) := by
  simp only [Operation.execute, changeSource_of_unregistered h, pure_bind]

/-- What a change of the source that finds its plot comes to. -/
theorem execute_changeSource (h : plot < s.plots.length) (refreshNow : Bool) (m : σ) :
    (Operation.changeSource plot source refreshNow).execute w s m =
      if refreshNow then
        ⟨((s.redirected plot source).visit w plot m).events, ((s.redirected plot source).visit w plot m).next,
          ((s.redirected plot source).visit w plot m).value.map fun _ =>
            (some .nothing, s.redirected plot source)⟩
      else ⟨[], m, some (some .nothing, s.redirected plot source)⟩ := by
  simp only [Operation.execute, changeSource_eq h]
  cases refreshNow with
  | false => rfl
  | true =>
    rw [if_pos rfl, if_pos rfl, bind_apply, bind_apply]
    cases ((s.redirected plot source).visit w plot m).value with
    | none => rfl
    | some success => simp only [pure_apply, Option.map_some, List.append_nil]

theorem execute_changeSource_unknown_iff (refreshNow : Bool) (m : σ) :
    (∃ i x, ((Operation.changeSource plot source refreshNow).execute w s m).value = some (some (.unknown i), x)) ↔
      s.plots.length ≤ plot := by
  constructor
  · rintro ⟨i, x, hvalue⟩
    apply Nat.le_of_not_lt
    intro h
    rw [execute_changeSource h] at hvalue
    cases refreshNow with
    | false => cases hvalue
    | true =>
      obtain ⟨success, -, hreturned⟩ := Option.map_eq_some_iff.mp hvalue
      cases hreturned
  · intro h
    rw [execute_changeSource_of_unregistered h]
    exact ⟨plot, s, rfl⟩

/-- The visit is the one that a step makes of the plot. -/
theorem acts_visit_eq_step (h : plot < s.plots.length) (m : σ) :
    acts (s.visit w plot m).events = acts (step w { s with cursor := some plot } m).events := by
  have hsame : Scheduler.visit w { s with cursor := some plot } plot = s.visit w plot := visit_congr rfl rfl rfl
  rw [acts_step (s := { s with cursor := some plot }) rfl h, hsame]

/-- **What a change of the source comes to**, in any state and whatever the backend does.

* It fails exactly if no such plot is registered, and then it says so, the state is the same as before, and nothing
  has happened, not even a look at the clock.
* Else nothing but the source of that plot has changed.
* If the plot is to be seen at once, what happens and what is left of the surroundings is what a visit of the plot
  brings with it. It is the visit that a step would make in its place, with the same acts; it draws on no
  other plot, reports nothing and tells nobody of the beginning or the end of a cycle. Whether it has failed makes no
  difference to the state, and only a client that dies keeps the end away. If not, nothing happens. -/
theorem source_changed (w : Surroundings σ) (s : Scheduler) (plot : Nat) (source : Option PlotSource)
    (refreshNow : Bool) (m : σ) :
    let o := (Operation.changeSource plot source refreshNow).execute w s m
    let s' := s.redirected plot source
    let visit := s'.visit w plot m
    ((∃ i x, o.value = some (some (.unknown i), x)) ↔ s.plots.length ≤ plot) ∧
    (s.plots.length ≤ plot → o = ⟨[], m, some (some (.unknown plot), s)⟩) ∧
    (plot < s.plots.length → o = if refreshNow
      then ⟨visit.events, visit.next, visit.value.map fun _ => (some .nothing, s')⟩
      else ⟨[], m, some (some .nothing, s')⟩) ∧
    ({ s' with plots := s.plots } = s ∧ ∀ i, s'.plots[i]? =
      s.plots[i]?.map fun p => if i = plot then { p with source := source } else p) ∧
    (statuses visit.events = [] ∧ boundaries visit.events = [] ∧
      ∀ e ∈ visit.events, ∀ p, e.target? = some p → p = plot) ∧
    (plot < s.plots.length → acts visit.events = acts (step w { s' with cursor := some plot } m).events) ∧
    (w.Answers → ∃ success, visit.value = some success) := by
  intro o s' visit
  refine ⟨execute_changeSource_unknown_iff refreshNow m, fun h => ?_, fun h => execute_changeSource h refreshNow m,
    ⟨rfl, getElem?_plots_redirected⟩, ⟨statuses_visit s' plot m, boundaries_of_visit rfl, visit_targets w s' plot m⟩,
    fun h => ?_, fun hw => visit_value hw s' plot m⟩
  · exact congrFun (execute_changeSource_of_unregistered h refreshNow) m
  · have hregistered : plot < s'.plots.length := by
      rw [length_plots_redirected]
      exact h
    exact acts_visit_eq_step hregistered m

/-- In the middle of a cycle, the only plot is pointed at a series that the backend does not have. -/
theorem source_changed_of_loss :
    let change (plot : Nat) := (Operation.changeSource plot (some single) true).execute stillness onlyPlot ()
    change 1 = ⟨[], (), some (some (.unknown 1), onlyPlot)⟩ ∧
      acts (change 0).events = [.call (Client.request "A" [0] standardProgram), .clear 0] ∧
      (change 0).value =
        some (some .nothing, { plots := [⟨some single, false, false⟩], cursor := some 0, cycleCount := 1 }) := by
  intro change
  have hlt : 0 < onlyPlot.plots.length := by decide
  have hle : onlyPlot.plots.length ≤ 1 := by decide
  obtain ⟨-, -, hchanged, -⟩ := source_changed stillness onlyPlot 0 (some single) true ()
  obtain ⟨-, hunknown, -⟩ := source_changed stillness onlyPlot 1 (some single) true ()
  have hchange : change 0 = _ := hchanged hlt
  rw [hchange]
  exact ⟨hunknown hle, rfl, rfl⟩

end HistogramMonitor.Scheduler
